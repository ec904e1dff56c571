import Literate.Document.Basic
import Literate.Proofs.Markup.Tags
import Literate.Weave.Reporting

namespace Literate.Weave

open Markup

variable {h : Highlighter} {filler extension : Text} {anchors : Anchors}

/-- How plain text writes a character that would be markup. The quotes may be entities, too. -/
def plainChar (quotes : Bool) (c : Char) : Text :=
  if quotes ∧ c = '"' then "&quot;"
  else if quotes ∧ c = '\'' then "&#39;"
  else escapeContentChar c

/-- The files of an extension are plain text for a highlighter: it adds no tags, writes entities for
markup characters, and ends the last line. A carriage return or a byte order mark in front may make
other text of the code. -/
def Highlighter.PlainText (h : Highlighter) (extension : Text) : Prop :=
  ∃ quotes, ∀ code, ∃ text, h.ofExtension extension code = text.flatMap (plainChar quotes) ∧
    ('\r' ∉ code → code.head? ≠ some Text.byteOrderMark → text = endLine code)

theorem universalNewlines_eq_self {s : Text} (h : '\r' ∉ s) : Text.universalNewlines s = s := by
  fun_induction Text.universalNewlines s with
  | case1 => rfl
  | case2 s ih => simp at h
  | case3 c s hne ih =>
    rw [List.mem_cons, not_or] at h
    rw [ih h.2, if_neg (Ne.symm h.1)]

theorem cleanCode_eq_self {s : Text} (hreturn : '\r' ∉ s)
    (hmark : s.head? ≠ some Text.byteOrderMark) : cleanCode s = s := by
  have hwhole : Text.withoutMark s = s := by
    cases s with
    | nil => rfl
    | cons c s => exact if_neg fun hc => hmark (by rw [hc]; rfl)
  rw [cleanCode, hwhole, universalNewlines_eq_self hreturn]

theorem plainChar_cases (quotes : Bool) (c : Char) :
    plainChar quotes c ∈ entities ∨ plainChar quotes c = [c] ∧ c ≠ '<' ∧ c ≠ '&' := by
  unfold plainChar escapeContentChar
  split_ifs with _ _ hamp hlt
  iterate 5 exact .inl (by decide)
  exact .inr ⟨rfl, hlt, hamp⟩

theorem getLast?_plainChar {quotes : Bool} {c : Char}
    (h : (plainChar quotes c).getLast? = some '\n') : c = '\n' := by
  have hentities : ∀ e ∈ entities, e.getLast? ≠ some '\n' := by decide
  rcases plainChar_cases quotes c with hentity | ⟨hself, -⟩
  · exact absurd h (hentities _ hentity)
  · rw [hself] at h
    exact Option.some.inj h

theorem bracket_notMem_plain (quotes : Bool) (s : Text) : '<' ∉ s.flatMap (plainChar quotes) := by
  have hentities : ∀ e ∈ entities, '<' ∉ e := by decide
  intro hmem
  obtain ⟨c, -, hc⟩ := List.mem_flatMap.1 hmem
  rcases plainChar_cases quotes c with hentity | ⟨hself, hne, -⟩
  · exact hentities _ hentity hc
  · rw [hself, List.mem_singleton] at hc
    exact hne hc.symm

theorem plainChar_ne_nil (quotes : Bool) (c : Char) : plainChar quotes c ≠ [] := by
  have hentities : ∀ e ∈ entities, e ≠ [] := by decide
  rcases plainChar_cases quotes c with hentity | ⟨hself, -⟩
  · exact hentities _ hentity
  · simp [hself]

theorem flatMap_plainChar_lineEnd (quotes : Bool) (s : Text) :
    (s ++ ['\n']).flatMap (plainChar quotes) = s.flatMap (plainChar quotes) ++ ['\n'] := by
  have hend : plainChar quotes '\n' = ['\n'] := by cases quotes <;> decide
  rw [List.flatMap_append, List.flatMap_singleton, hend]

theorem exists_of_getLast?_plain {quotes : Bool} {s : Text}
    (h : (s.flatMap (plainChar quotes)).getLast? = some '\n') : ∃ t, s = t ++ ['\n'] := by
  rcases List.eq_nil_or_concat s with rfl | ⟨t, c, rfl⟩
  · simp at h
  · rw [List.concat_eq_append, List.flatMap_append, List.flatMap_singleton,
      List.getLast?_append_of_ne_nil _ (plainChar_ne_nil quotes c)] at h
    obtain rfl := getLast?_plainChar h
    exact ⟨t, List.concat_eq_append⟩

/-- Taking away a line end that the fragment did not have leaves plain text. -/
theorem exists_codeHtml_eq {h : Highlighter} {extension : Text} (hplain : h.PlainText extension)
    (code : Text) : ∃ (quotes : Bool) (text : Text),
      codeHtml h extension code = text.flatMap (plainChar quotes) := by
  obtain ⟨quotes, hplain⟩ := hplain
  obtain ⟨text, htext, -⟩ := hplain code
  refine ⟨quotes, ?_⟩
  unfold codeHtml
  rw [htext]
  dsimp only
  split_ifs with hempty hended
  · exact ⟨[], rfl⟩
  · obtain ⟨t, rfl⟩ := exists_of_getLast?_plain hended.2
    refine ⟨t, ?_⟩
    rw [flatMap_plainChar_lineEnd]
    exact List.dropLast_concat
  · exact ⟨text, rfl⟩

theorem tagged_plain {T : Text → Prop} (quotes : Bool) (s : Text) :
    Tagged T (s.flatMap (plainChar quotes)) := by
  refine Tagged.flatten fun a ha => ?_
  obtain ⟨c, -, rfl⟩ := List.mem_map.1 ha
  rcases plainChar_cases quotes c with hentity | ⟨hself, hc⟩
  · exact tagged_entity hentity
  · rw [hself]
    exact NoMarkup.tagged (List.forall_mem_singleton.2 hc)

/-- The tags of a page as they are written. The link of a header is one of those that prose has. -/
inductive PageTag : Text → Prop where
  | prose {tag : Text} (isProse : ProseTag tag) : PageTag tag
  | definition : PageTag "<div class=\"definition\">"
  | firstDefinition (anchor : Text) :
      PageTag ("<div class=\"definition\" id=\"" ++ escape anchor ++ "\">")
  | header : PageTag "<p class=\"macro-header\">"
  | highlighted : PageTag "<pre class=\"highlight\">"
  | use (anchor : Text) :
      PageTag ("<a class=\"macro-ref\" href=\"#" ++ escape anchor ++ "\">")

theorem headerLink_isProse (anchor : Text) :
    ProseTag ("<a" ++ ([] : Text) ++ " href=\"#" ++ escape anchor ++ "\">") := by
  have hprose : ∀ a ∈ ['#'] :: anchor.map escapeChar, IsProse a := by
    rw [List.forall_mem_cons]
    refine ⟨.inl ⟨'#', by decide, rfl⟩, fun a ha => ?_⟩
    obtain ⟨c, -, rfl⟩ := List.mem_map.1 ha
    exact isProse_escapeChar c
  have hshut : attributeEnd ∉ ['#'] :: anchor.map escapeChar := by
    intro hmem
    rcases hprose _ hmem with ⟨c, -, hc⟩ | hentity
    · have hlong : attributeEnd.length ≠ 1 := by decide
      exact hlong (congrArg List.length hc)
    · exact absurd hentity (by decide)
  exact .link (fun a ha => (hprose a ha).isPiece) hshut

theorem tagged_macroLabel (name : Text) : Tagged PageTag (macroLabel name) := by
  have hspace : Tagged PageTag " " := NoMarkup.tagged (by decide)
  have hopen : Tagged PageTag ("&lt;" ++ ("&lt;" ++ " ")) :=
    (tagged_entity (by decide)).append ((tagged_entity (by decide)).append hspace)
  have hclose : Tagged PageTag (" " ++ ("&gt;" ++ "&gt;")) :=
    hspace.append ((tagged_entity (by decide)).append (tagged_entity (by decide)))
  show Tagged PageTag ("&lt;&lt; " ++ escape (Text.trim name) ++ " &gt;&gt;")
  exact (hopen.append (tagged_escape _)).append hclose

theorem tagged_pageClosing (name : Text) (h : name ∈ closingNames) :
    Tagged PageTag ("</" ++ name ++ ">") :=
  Tagged.mono (fun _ => PageTag.prose) (tagged_closing name h)

theorem tagged_linkOf {attributes label : Text} (anchor : Text)
    (hstart : NoMarkup ("<a" ++ attributes ++ " href=\"#").tail)
    (htag : PageTag ("<a" ++ attributes ++ " href=\"#" ++ escape anchor ++ "\">"))
    (h : Tagged PageTag label) : Tagged PageTag (linkOf anchor label attributes) := by
  have hlabel : Tagged PageTag (label ++ "</a>") := h.append (tagged_pageClosing "a" (by decide))
  have hvalue : Tagged PageTag (escape anchor ++ ("\">" ++ (label ++ "</a>"))) :=
    (tagged_escape anchor).append ((NoMarkup.tagged (by decide)).append hlabel)
  have hopened : Tagged PageTag ("<a" ++ attributes ++ " href=\"#" ++
      (escape anchor ++ ("\">" ++ (label ++ "</a>")))) := by
    refine Tagged.opened rfl hstart ⟨_, htag, label ++ "</a>", ?_⟩ hvalue
    simp only [List.append_assoc]
  show Tagged PageTag
    ("<a" ++ attributes ++ " href=\"#" ++ escape anchor ++ "\">" ++ label ++ "</a>")
  simpa only [List.append_assoc] using hopened

theorem tagged_fragmentHtml (hplain : h.PlainText extension) (fragment : Fragment) :
    Tagged PageTag (fragmentHtml h filler extension anchors fragment) := by
  cases fragment with
  | code text =>
    obtain ⟨quotes, shown, hshown⟩ := exists_codeHtml_eq hplain text
    show Tagged PageTag (codeHtml h extension text)
    rw [hshown]
    exact tagged_plain quotes shown
  | reference target indent =>
    have huse : Tagged PageTag (linkOf (anchorOf filler anchors target.text)
        (macroLabel target.text) " class=\"macro-ref\"") :=
      tagged_linkOf _ (by decide) (.use _) (tagged_macroLabel _)
    exact ((tagged_escape indent).append huse).append tagged_lineEnd

def idAttribute : Option Text → Text
  | none => []
  | some id => " id=\"" ++ escape id ++ "\""

theorem tagged_blockStart (id? : Option Text) :
    Tagged PageTag ("<div class=\"definition\"" ++ idAttribute id? ++ ">\n") := by
  cases id? with
  | none =>
    show Tagged PageTag ("<div class=\"definition\">" ++ "\n")
    exact (tagged_tag .definition rfl (by decide)).append tagged_lineEnd
  | some id =>
    have hstart : ("<div class=\"definition\" id=\"" : Text) =
      "<div class=\"definition\"" ++ " id=\"" := by decide
    have hend : ("\">\n" : Text) = "\"" ++ ">\n" := by decide
    have htag : PageTag ("<div class=\"definition\" id=\"" ++ escape id ++ "\">") :=
      .firstDefinition id
    -- the id is escaped, so that only the quote behind it ends its value
    have hvalue : Tagged PageTag (escape id ++ "\">\n") :=
      (tagged_escape id).append (NoMarkup.tagged (by decide))
    have hopened :
        Tagged PageTag ("<div class=\"definition\" id=\"" ++ (escape id ++ "\">\n")) := by
      refine Tagged.opened rfl (by decide) ⟨_, htag, "\n", ?_⟩ hvalue
      have hclose : ("\">\n" : Text) = "\">" ++ "\n" := by decide
      rw [hclose]
      simp only [List.append_assoc]
    show Tagged PageTag
      ("<div class=\"definition\"" ++ (" id=\"" ++ escape id ++ "\"") ++ ">\n")
    rw [hstart, hend] at hopened
    simpa only [List.append_assoc] using hopened

def blockHtml (id? : Option Text) (header code : Text) : Text :=
  "<div class=\"definition\"" ++ idAttribute id? ++ ">\n" ++
    "<p class=\"macro-header\">" ++ header ++ "</p>\n" ++
    "<pre class=\"highlight\"><code>" ++ code ++ "</code></pre>\n" ++
    "</div>"

theorem definitionBlock_eq (first : Bool) (d : Definition) :
    definitionBlock h filler extension anchors first d =
      blockHtml (if first then some (anchorOf filler anchors d.name.text) else none)
        (linkOf (anchorOf filler anchors d.name.text) (macroLabel d.name.text ++ operator first) [])
        (partsHtml h filler extension anchors d.parts) := by
  cases first with
  | false => rfl
  | true => rfl

theorem tagged_blockHtml {header code : Text} (id? : Option Text) (hheader : Tagged PageTag header)
    (hcode : Tagged PageTag code) : Tagged PageTag (blockHtml id? header code) := by
  have hstart : Tagged PageTag "<p class=\"macro-header\">" := tagged_tag .header rfl (by decide)
  have hheaderEnd : Tagged PageTag ("</" ++ "p" ++ ">" ++ "\n") :=
    (tagged_pageClosing "p" (by decide)).append tagged_lineEnd
  have hcodeStart : Tagged PageTag ("<pre class=\"highlight\">" ++ ("<" ++ "code" ++ ">")) :=
    (tagged_tag .highlighted rfl (by decide)).append
      ((tagged_opening "code" (by decide)).mono fun _ => PageTag.prose)
  have hcodeEnd : Tagged PageTag (("</" ++ "code" ++ ">") ++ (("</" ++ "pre" ++ ">") ++ "\n")) :=
    (tagged_pageClosing "code" (by decide)).append
      ((tagged_pageClosing "pre" (by decide)).append tagged_lineEnd)
  have hend : Tagged PageTag ("</" ++ "div" ++ ">") := tagged_pageClosing "div" (by decide)
  exact (((((((tagged_blockStart id?).append hstart).append hheader).append hheaderEnd).append
    hcodeStart).append hcode).append hcodeEnd).append hend

theorem tagged_definitionBlock (hplain : h.PlainText extension) (first : Bool) (d : Definition) :
    Tagged PageTag (definitionBlock h filler extension anchors first d) := by
  have hlabel : Tagged PageTag (macroLabel d.name.text ++ operator first) := by
    refine (tagged_macroLabel _).append (NoMarkup.tagged ?_)
    cases first with
    | false => decide
    | true => decide
  have hlink : Tagged PageTag (linkOf (anchorOf filler anchors d.name.text)
      (macroLabel d.name.text ++ operator first) []) := by
    refine tagged_linkOf _ (by decide) (.prose ?_) hlabel
    exact headerLink_isProse _
  have hparts : Tagged PageTag (partsHtml h filler extension anchors d.parts) := by
    refine Tagged.flatten fun a ha => ?_
    obtain ⟨fragment, -, rfl⟩ := List.mem_map.1 ha
    exact tagged_fragmentHtml hplain fragment
  rw [definitionBlock_eq]
  exact tagged_blockHtml _ hlink hparts

theorem tagged_proseBlock (lines : List Text) :
    ∀ block ∈ proseBlock lines, Tagged PageTag block := by
  intro block hblock
  unfold proseBlock at hblock
  split at hblock
  · simp at hblock
  · split at hblock
    · simp at hblock
    · obtain rfl := List.mem_singleton.1 hblock
      exact (tagged_proseHtml _).mono fun _ => PageTag.prose

theorem tagged_pageBlocks (hplain : h.PlainText extension) (chunks : List Chunk)
    (seen prose : List Text) :
    ∀ block ∈ pageBlocks h filler extension anchors seen prose chunks, Tagged PageTag block := by
  induction chunks generalizing seen prose with
  | nil => exact tagged_proseBlock prose
  | cons c cs ih =>
    cases c with
    | narrative line => exact ih seen (prose ++ [line])
    | definition d =>
      intro block hblock
      rcases List.mem_append.1 hblock with hblock | hblock
      · exact tagged_proseBlock prose block hblock
      · rcases List.mem_cons.1 hblock with rfl | hblock
        · exact tagged_definitionBlock hplain _ d
        · exact ih (d.key :: seen) [] block hblock
    | foreign x => exact x.elim

theorem tagged_pageBody (hplain : h.PlainText extension) (filler : Text) (chunks : List Chunk) :
    Tagged PageTag (pageBody h filler extension chunks) :=
  Tagged.joinLines (tagged_pageBlocks hplain chunks [] [])

/-- The body of every page whose code is shown as plain text can be written, and in it a bracket
that could begin a tag begins a tag of the page, and an ampersand the entity of an escaped
character: the narrative, the names, the indents and the code of a document bring no markup of their
own. -/
theorem page_markup_is_own (h : Highlighter) (filler extension : Text)
    (hplain : h.PlainText extension) (chunks : List Chunk) : ∃ html,
    (bodyTraced h filler extension chunks).result = .ok html ∧ ∀ front rest,
      (html = front ++ '<' :: rest → ∃ tag, PageTag tag ∧ tag <+: '<' :: rest) ∧
      (html = front ++ '&' :: rest → ∃ entity ∈ entities, entity <+: '&' :: rest) := by
  refine ⟨pageBody h filler extension chunks, result_bodyTraced h filler extension chunks,
    fun front rest => ?_⟩
  have htagged := tagged_pageBody hplain filler chunks
  constructor
  · intro heq
    rw [heq] at htagged
    exact htagged.of_append.1.tag rfl
  · intro heq
    rw [heq] at htagged
    exact htagged.of_append.1.entity rfl

def Highlighter.quoting : Highlighter where
  plain code := (endLine (cleanCode code)).flatMap (plainChar true)
  ofFileName? _ := none
  rules := Highlighter.bare.rules

theorem plainText_quoting (extension : Text) : Highlighter.quoting.PlainText extension := by
  refine ⟨true, fun code => ⟨endLine (cleanCode code), ?_, fun hreturn hmark => ?_⟩⟩
  · unfold Highlighter.ofExtension
    cases Tangle.dottedExtension extension <;> rfl
  · rw [cleanCode_eq_self hreturn hmark]

def markedUpPage : List Chunk :=
  [.narrative "<b>&lt; *x*",
    .definition (.after 1 "<i>" [.literal "</code>\"&'", .to "a&b" "<\t"])]

theorem page_markup_is_own_marked :
    Highlighter.quoting.PlainText ".txt" ∧
    ∃ html, html = ("<p>&lt;b&gt;&amp;lt; <em>x</em></p>\n" ++
      "<div class=\"definition\" id=\"&lt;i&gt;\">\n" ++
      "<p class=\"macro-header\"><a href=\"#&lt;i&gt;\">&lt;&lt; &lt;i&gt; &gt;&gt;=</a></p>\n" ++
      "<pre class=\"highlight\"><code>&lt;/code&gt;&quot;&amp;&#39;&lt;\t" ++
      "<a class=\"macro-ref\" href=\"#a&amp;b\">&lt;&lt; a&amp;b &gt;&gt;</a>\n" ++
      "</code></pre>\n</div>" : Text) ∧
    ∀ front rest,
      (html = front ++ '<' :: rest → ∃ tag, PageTag tag ∧ tag <+: '<' :: rest) ∧
      (html = front ++ '&' :: rest → ∃ entity ∈ entities, entity <+: '&' :: rest) := by
  have hplain := plainText_quoting ".txt"
  obtain ⟨html, hhtml, hown⟩ :=
    page_markup_is_own .quoting defaultFiller ".txt" hplain markedUpPage
  refine ⟨hplain, html, ?_, hown⟩
  rw [result_bodyTraced] at hhtml
  obtain rfl := Except.ok.inj hhtml
  decide +kernel

end Literate.Weave
