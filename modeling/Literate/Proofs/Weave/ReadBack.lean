import Literate.Proofs.Weave.Tags
import Literate.Weave.Reporting
import Mathlib.Data.List.Infix

namespace Literate.Weave

open Markup

/-- The characters outside of tags, where `inside` tells whether the text begins within a tag. -/
def outsideTags (inside : Bool) : Text → Text
  | [] => []
  | c :: s =>
    if inside then outsideTags (c != '>') s
    else if c = '<' then outsideTags true s
    else c :: outsideTags false s

/-- What the entities stand for; the apostrophe has two. -/
def meanings : List (Char × Text) := ('\'', "&#39;") :: escapes

/-- Reads an entity as its character. -/
def entityRule : Rule := fun _ s =>
  (meanings.find? fun e => Text.startsWith e.2 s).map fun e => ([e.1], e.2.length)

/-- The text that HTML shows: without its tags, and with its entities read. -/
def shownText (html : Text) : Text := substitute entityRule (outsideTags false html)

/-- The text before the first occurrence of a mark and the text after it. -/
def cutAt? (mark : Text) : Text → Option (Text × Text)
  | [] => none
  | c :: s =>
    if Text.startsWith mark (c :: s) then some ([], (c :: s).drop mark.length)
    else (cutAt? mark s).map fun cut => (c :: cut.1, cut.2)

/-- The contents of the first element with an opening tag, up to the closing tag that comes next. -/
def contents? (opening closing html : Text) : Option Text := do
  let (_, rest) ← cutAt? opening html
  let (inner, _) ← cutAt? closing rest
  return inner

/-- A character is written as one of its entities or, if it begins no markup, as it is. -/
def Spelling (c : Char) (a : Text) : Prop :=
  (c, a) ∈ meanings ∨ (c ≠ '<' ∧ c ≠ '&') ∧ a = [c]

/-- HTML made of written characters with tags between them, and the text of these characters. -/
inductive Reads : Text → Text → Prop where
  | nil : Reads [] []
  | char {c : Char} {a html text : Text} (spelled : Spelling c a) (later : Reads html text) :
    Reads (a ++ html) (c :: text)
  | tag {tag html text : Text} (closed : '>' ∉ tag) (later : Reads html text) :
    Reads ('<' :: (tag ++ '>' :: html)) text

variable {c : Char} {a s html html' text text' : Text}

theorem Reads.append (h : Reads html text) (h' : Reads html' text') :
    Reads (html ++ html') (text ++ text') := by
  induction h with
  | nil => exact h'
  | char spelled later ih =>
    rw [List.append_assoc]
    exact .char spelled ih
  | tag closed later ih =>
    rw [List.cons_append, List.append_assoc, List.cons_append]
    exact .tag closed ih

theorem Reads.flatMap {α : Type} {f g : α → Text} {xs : List α}
    (h : ∀ x ∈ xs, Reads (f x) (g x)) : Reads (xs.flatMap f) (xs.flatMap g) := by
  induction xs with
  | nil => exact .nil
  | cons x xs ih =>
    rw [List.forall_mem_cons] at h
    exact h.1.append (ih h.2)

theorem outsideTags_append (h : '<' ∉ a) (s : Text) :
    outsideTags false (a ++ s) = a ++ outsideTags false s := by
  induction a with
  | nil => rfl
  | cons c a ih =>
    rw [List.mem_cons, not_or] at h
    rw [List.cons_append, outsideTags, if_neg (by decide), if_neg (Ne.symm h.1), ih h.2]
    rfl

theorem outsideTags_tag (h : '>' ∉ a) (s : Text) :
    outsideTags true (a ++ '>' :: s) = outsideTags false s := by
  induction a with
  | nil => rfl
  | cons c a ih =>
    rw [List.mem_cons, not_or] at h
    have hc : (c != '>') = true := by simpa using Ne.symm h.1
    rw [List.cons_append, outsideTags, if_pos rfl, hc, ih h.2]

theorem Spelling.bracket_notMem (h : Spelling c a) : '<' ∉ a := by
  rcases h with h | ⟨⟨h, -⟩, rfl⟩
  · have hnone : ∀ e ∈ meanings, '<' ∉ e.2 := by decide
    exact hnone _ h
  · simpa using Ne.symm h

theorem entityRule_of_mem (before : Option Char) (h : (c, a) ∈ meanings) (s : Text) :
    entityRule before (a ++ s) = some ([c], a.length) := by
  have hall : ∀ e ∈ meanings, entityRule before (e.2 ++ s) = some ([e.1], e.2.length) := by
    simp [meanings, escapes, entityRule, Text.startsWith, List.isPrefixOf]
  exact hall _ h

theorem entityRule_of_ne (before : Option Char) (h : c ≠ '&') (s : Text) :
    entityRule before (c :: s) = none := by
  have hc : ∀ e ∈ meanings, ¬Text.startsWith e.2 (c :: s) := by
    simp [meanings, escapes, Text.startsWith, Ne.symm h]
  rw [entityRule, List.find?_eq_none.2 hc]
  rfl

theorem Reads.substituteFrom (h : Reads html text) (before : Option Char) :
    substituteFrom entityRule before 0 (outsideTags false html) = text := by
  induction h generalizing before with
  | nil => rfl
  | @char c a html text spelled later ih =>
    rw [outsideTags_append spelled.bracket_notMem]
    rcases spelled with hentity | ⟨⟨-, hne⟩, rfl⟩
    · have hnil : ∀ e ∈ meanings, e.2 ≠ [] := by decide
      obtain ⟨now, hnow⟩ := exists_substituteFrom_fired (hnil _ hentity)
        (entityRule_of_mem before hentity (outsideTags false html))
      rw [hnow, ih]
      rfl
    · rw [List.singleton_append, Markup.substituteFrom, if_neg (Nat.lt_irrefl 0),
        entityRule_of_ne before hne]
      exact congrArg (c :: ·) (ih _)
  | tag closed later ih =>
    rw [outsideTags, if_neg (by decide), if_pos rfl, outsideTags_tag closed]
    exact ih before

theorem Reads.shownText_eq (h : Reads html text) : shownText html = text := h.substituteFrom none

/-- Text is shown however its characters are written. -/
theorem reads_flatMap {e : Char → Text} (he : ∀ c, Spelling c (e c)) (s : Text) :
    Reads (s.flatMap e) s := by
  induction s with
  | nil => exact .nil
  | cons c s ih => exact .char (he c) ih

theorem spelling_escapeContentChar (c : Char) : Spelling c (escapeContentChar c) := by
  unfold escapeContentChar
  split_ifs with hamp hlt hgt
  · exact .inl (by simp [hamp, meanings, escapes])
  · exact .inl (by simp [hlt, meanings, escapes])
  · exact .inl (by simp [hgt, meanings, escapes])
  · exact .inr ⟨⟨hlt, hamp⟩, rfl⟩

theorem spelling_escapeChar (c : Char) : Spelling c (escapeChar c) := by
  unfold escapeChar
  split_ifs with hquote hapostrophe
  · exact .inl (by simp [hquote, meanings, escapes])
  · exact .inl (by simp [hapostrophe, meanings, escapes])
  · exact spelling_escapeContentChar c

theorem spelling_plainChar (quotes : Bool) (c : Char) : Spelling c (plainChar quotes c) := by
  unfold plainChar
  split_ifs with hquote hapostrophe
  · exact .inl (by simp [hquote.2, meanings, escapes])
  · exact .inl (by simp [hapostrophe.2, meanings, escapes])
  · exact spelling_escapeContentChar c

theorem reads_escape (s : Text) : Reads (escape s) s := reads_flatMap spelling_escapeChar s

theorem NoMarkup.reads (h : NoMarkup s) : Reads s s := by
  induction s with
  | nil => exact .nil
  | cons c s ih =>
    exact .char (a := [c]) (.inr ⟨h c List.mem_cons_self, rfl⟩)
      (ih fun d hd => h d (List.mem_cons_of_mem _ hd))

theorem reads_macroLabel (n : Name) :
    Reads (macroLabel n.text) ("<< " ++ n.key ++ " >>") := by
  have hspace : Reads " " " " := NoMarkup.reads (by decide)
  have hless : Spelling '<' "&lt;" := .inl (by decide)
  have hgreater : Spelling '>' "&gt;" := .inl (by decide)
  have hopening : Reads "&lt;&lt; " "<< " := .char hless (.char hless hspace)
  have hclosing : Reads "&gt;&gt;" ">>" := .char hgreater (.char hgreater .nil)
  exact (hopening.append (reads_escape n.key)).append (hspace.append hclosing)

theorem notMem_escape (h : c = '<' ∨ c = '>') (s : Text) : c ∉ escape s := by
  have hentities : ∀ a ∈ entities, '<' ∉ a ∧ '>' ∉ a := by decide
  intro hmem
  obtain ⟨d, -, hc⟩ := List.mem_flatMap.1 hmem
  rcases isProse_escapeChar d with ⟨e, he, heq⟩ | hentity
  · rw [heq, List.mem_singleton] at hc
    subst hc
    rcases h with rfl | rfl
    · exact he (by decide)
    · exact he (by decide)
  · rcases h with rfl | rfl
    · exact (hentities _ hentity).1 hc
    · exact (hentities _ hentity).2 hc

theorem reads_linkOf {attributes label : Text} (anchor : Text) (hattributes : '>' ∉ attributes)
    (h : Reads label text) : Reads (linkOf anchor label attributes) text := by
  have hopening : '>' ∉ "a" ++ attributes ++ " href=\"#" ++ escape anchor ++ "\"" := by
    simp only [List.mem_append, not_or]
    exact ⟨⟨⟨⟨by decide, hattributes⟩, by decide⟩, notMem_escape (.inr rfl) anchor⟩, by decide⟩
  have hclosing : Reads "</a>" [] := @Reads.tag "/a" [] [] (by decide) .nil
  have hlink := Reads.tag hopening (h.append hclosing)
  rw [List.append_nil] at hlink
  show Reads ("<a" ++ attributes ++ " href=\"#" ++ escape anchor ++ "\">" ++ label ++ "</a>") text
  have hsplit : ("<a" : Text) ++ attributes ++ " href=\"#" ++ escape anchor ++ "\">" ++ label ++
      "</a>" = '<' :: ("a" ++ attributes ++ " href=\"#" ++ escape anchor ++ "\"" ++
        '>' :: (label ++ "</a>")) := by
    have hquote : ("\">" : Text) = "\"" ++ ['>'] := by decide
    rw [hquote]
    simp only [List.append_assoc, List.cons_append, List.nil_append]
    rfl
  rw [hsplit]
  exact hlink

/-- The line end that shown code gets when it lacks one is taken away again. -/
theorem codeHtml_eq_plain {h : Highlighter} {extension : Text} (hplain : h.PlainText extension)
    (hreturn : '\r' ∉ s) (hmark : s.head? ≠ some Text.byteOrderMark) :
    ∃ quotes, codeHtml h extension s = s.flatMap (plainChar quotes) := by
  obtain ⟨quotes, hplain⟩ := hplain
  obtain ⟨text, htext, hclean⟩ := hplain s
  obtain rfl := hclean hreturn hmark
  refine ⟨quotes, ?_⟩
  unfold codeHtml
  rw [htext]
  cases hempty : s.isEmpty with
  | true => rw [List.isEmpty_iff.1 hempty, if_pos rfl, List.flatMap_nil]
  | false =>
    rw [if_neg (by decide)]
    by_cases hend : s.getLast? = some '\n'
    · have hended : endLine s = s := by simp [endLine, hend]
      rw [hended]
      exact if_neg fun hlacks => hlacks.1 hend
    · have hended : endLine s = s ++ ['\n'] := by simp [endLine, hempty, hend]
      rw [hended, flatMap_plainChar_lineEnd, if_pos ⟨hend, List.getLast?_concat⟩]
      exact List.dropLast_concat

def fragmentText : Fragment → Text
  | .code s => s
  | .reference target indent => markdownPart (.reference target indent)

theorem flatMap_fragmentText (ps : List Part) :
    (fragments ps).flatMap fragmentText = ps.flatMap markdownPart := by
  induction ps with
  | nil => rfl
  | cons p ps ih =>
    cases p with
    | literal s =>
      have hadd : ∀ fs, (addLiteral s fs).flatMap fragmentText = s ++ fs.flatMap fragmentText := by
        intro fs
        rcases fs with _ | ⟨⟨t⟩ | ⟨target, indent⟩, fs⟩
        · rfl
        · simp [addLiteral, fragmentText]
        · rfl
      rw [fragments, hadd, ih]
      rfl
    | reference target indent => exact congrArg (_ ++ ·) ih
    | foreign x => exact x.elim

theorem mem_of_mem_fragments {ps : List Part} (h : .code s ∈ fragments ps) (hc : c ∈ s) :
    ∃ t, .literal t ∈ ps ∧ c ∈ t := by
  induction ps generalizing s with
  | nil => cases h
  | cons p ps ih =>
    have hlater : ∀ {t}, .code t ∈ fragments ps → c ∈ t → ∃ t, .literal t ∈ p :: ps ∧ c ∈ t := by
      intro t ht hct
      obtain ⟨u, hu, hcu⟩ := ih ht hct
      exact ⟨u, List.mem_cons_of_mem _ hu, hcu⟩
    cases p with
    | literal t =>
      rw [fragments] at h
      -- a literal joins the code that follows it, and the first fragment holds both
      cases hfs : fragments ps with
      | nil =>
        rw [hfs] at h
        obtain rfl := Fragment.code.inj (List.mem_singleton.1 h)
        exact ⟨s, List.mem_cons_self, hc⟩
      | cons f fs =>
        rw [hfs] at h hlater
        cases f with
        | code u =>
          rcases List.mem_cons.1 h with h | h
          · obtain rfl := Fragment.code.inj h
            rcases List.mem_append.1 hc with hc | hc
            · exact ⟨t, List.mem_cons_self, hc⟩
            · exact hlater List.mem_cons_self hc
          · exact hlater (List.mem_cons_of_mem _ h) hc
        | reference target indent =>
          rcases List.mem_cons.1 h with h | h
          · obtain rfl := Fragment.code.inj h
            exact ⟨s, List.mem_cons_self, hc⟩
          · exact hlater h hc
    | reference target indent =>
      rcases List.mem_cons.1 h with h | h
      · cases h
      · exact hlater h hc
    | foreign x => exact x.elim

variable {h : Highlighter} {filler extension : Text} {anchors : Anchors}

theorem reads_partsHtml {ps : List Part} (hplain : h.PlainText extension)
    (hreturn : ∀ s, .literal s ∈ ps → '\r' ∉ s)
    (hmark : ∀ s, .code s ∈ fragments ps → s.head? ≠ some Text.byteOrderMark) :
    Reads (partsHtml h filler extension anchors ps) (ps.flatMap markdownPart) := by
  rw [← flatMap_fragmentText]
  refine Reads.flatMap fun fragment hmem => ?_
  cases fragment with
  | code s =>
    have hs : '\r' ∉ s := by
      intro hc
      obtain ⟨t, ht, hct⟩ := mem_of_mem_fragments hmem hc
      exact hreturn t ht hct
    -- each quote is left or spelled as the highlighter has it; both spellings are read as the quote
    obtain ⟨quotes, hshown⟩ := codeHtml_eq_plain hplain hs (hmark s hmem)
    show Reads (codeHtml h extension s) s
    rw [hshown]
    exact reads_flatMap (spelling_plainChar quotes) s
  | reference target indent =>
    have hlink : Reads (linkOf (anchorOf filler anchors target.text) (macroLabel target.text)
        " class=\"macro-ref\"") ("<< " ++ target.key ++ " >>") :=
      reads_linkOf _ (by decide) (reads_macroLabel target)
    have hend : Reads "\n" "\n" := NoMarkup.reads (by decide)
    have hall := ((reads_escape indent).append hlink).append hend
    have htext : indent ++ ("<< " ++ target.key ++ " >>") ++ "\n" =
        fragmentText (.reference target indent) := by
      have hlast : (" >>\n" : Text) = " >>" ++ "\n" := by decide
      show _ = indent ++ "<< " ++ target.key ++ " >>\n"
      rw [hlast]
      simp only [List.append_assoc]
    rw [← htext]
    exact hall

/-- A mark begins nowhere in a text, whatever stands behind the text. -/
def Aside (mark piece : Text) : Prop :=
  ∀ t ∈ piece.tails, t ≠ [] → ¬mark <+: t ∧ ¬t <+: mark

instance (mark piece : Text) : Decidable (Aside mark piece) :=
  inferInstanceAs (Decidable (∀ t ∈ piece.tails, _))

variable {mark opening closing front inner back piece piece' : Text}

theorem Aside.append (h : Aside mark piece) (h' : Aside mark piece') :
    Aside mark (piece ++ piece') := by
  intro t ht hne
  obtain ⟨before, hbefore⟩ := (List.mem_tails _ _).1 ht
  rcases List.append_eq_append_iff.1 hbefore with ⟨u, rfl, rfl⟩ | ⟨u, rfl, rfl⟩
  · cases u with
    | nil => exact h' _ ((List.mem_tails _ _).2 (List.suffix_refl _)) hne
    | cons c u =>
      have hu := h (c :: u) ((List.mem_tails _ _).2 (List.suffix_append _ _)) (List.cons_ne_nil c u)
      refine ⟨fun hmark => ?_, fun hmark => hu.2 ((List.prefix_append _ _).trans hmark)⟩
      rcases List.prefix_or_prefix_of_prefix hmark (List.prefix_append _ _) with hp | hp
      · exact hu.1 hp
      · exact hu.2 hp
  · exact h' t ((List.mem_tails _ _).2 (List.suffix_append _ _)) hne

theorem Aside.flatMap {α : Type} {f : α → Text} {xs : List α} (h : ∀ x ∈ xs, Aside mark (f x)) :
    Aside mark (xs.flatMap f) := by
  induction xs with
  | nil => simp [Aside]
  | cons x xs ih =>
    rw [List.forall_mem_cons] at h
    exact h.1.append (ih h.2)

theorem aside_of_bracket_notMem (hmark : mark.head? = some '<') (h : '<' ∉ piece) :
    Aside mark piece := by
  obtain ⟨tag, rfl⟩ := List.head?_eq_some_iff.1 hmark
  intro t ht hne
  obtain ⟨c, t, rfl⟩ := List.exists_cons_of_ne_nil hne
  have hc : '<' ≠ c := by
    rintro rfl
    exact h (((List.mem_tails _ _).1 ht).subset List.mem_cons_self)
  exact ⟨fun hp => hc (List.cons_prefix_cons.1 hp).1,
    fun hp => hc (List.cons_prefix_cons.1 hp).1.symm⟩

theorem cutAt?_eq (hmark : mark ≠ []) (h : Aside mark piece) (s : Text) :
    cutAt? mark (piece ++ (mark ++ s)) = some (piece, s) := by
  induction piece with
  | nil =>
    obtain ⟨c, tag, rfl⟩ := List.exists_cons_of_ne_nil hmark
    have hstarts : Text.startsWith (c :: tag) (c :: (tag ++ s)) = true :=
      List.isPrefixOf_iff_prefix.2 (List.prefix_append (c :: tag) s)
    show cutAt? (c :: tag) (c :: (tag ++ s)) = _
    rw [cutAt?, if_pos hstarts]
    simp
  | cons c piece ih =>
    have hlater : Aside mark piece := fun t ht =>
      h t ((List.mem_tails _ _).2 (((List.mem_tails _ _).1 ht).trans (List.suffix_cons c piece)))
    have hself := h (c :: piece) ((List.mem_tails _ _).2 (List.suffix_refl _))
      (List.cons_ne_nil c piece)
    have hstarts : ¬Text.startsWith mark (c :: (piece ++ (mark ++ s))) = true := by
      intro hp
      rcases List.prefix_or_prefix_of_prefix (List.isPrefixOf_iff_prefix.1 hp)
        (List.prefix_append (c :: piece) (mark ++ s)) with hp | hp
      · exact hself.1 hp
      · exact hself.2 hp
    rw [List.cons_append, cutAt?, if_neg hstarts, ih hlater]
    rfl

theorem contents?_eq (hopening : opening ≠ []) (hclosing : closing ≠ [])
    (hfront : Aside opening front) (hinner : Aside closing inner) (back : Text) :
    contents? opening closing (front ++ (opening ++ (inner ++ (closing ++ back)))) =
      some inner := by
  unfold contents?
  rw [cutAt?_eq hopening hfront]
  show (cutAt? closing _ >>= fun x => pure x.1) = some inner
  rw [cutAt?_eq hclosing hinner]
  rfl

def headerOpening : Text := "<p class=\"macro-header\">"

def headerClosing : Text := "</p>"

def codeOpening : Text := "<code>"

def codeClosing : Text := "</code>"

theorem aside_linkOf {attributes label : Text} (anchor : Text) (hmark : mark.head? = some '<')
    (hopening : Aside mark ("<a" ++ attributes ++ " href=\"#")) (hclosing : Aside mark "</a>")
    (hlabel : '<' ∉ label) : Aside mark (linkOf anchor label attributes) := by
  have hanchor : Aside mark (escape anchor) :=
    aside_of_bracket_notMem hmark (notMem_escape (.inl rfl) anchor)
  have hend : Aside mark "\">" := aside_of_bracket_notMem hmark (by decide)
  exact (((hopening.append hanchor).append hend).append
    (aside_of_bracket_notMem hmark hlabel)).append hclosing

theorem bracket_notMem_macroLabel (name : Text) : '<' ∉ macroLabel name := by
  show '<' ∉ "&lt;&lt; " ++ escape (Text.trim name) ++ " &gt;&gt;"
  rw [List.mem_append, List.mem_append, not_or, not_or]
  exact ⟨⟨by decide, notMem_escape (.inl rfl) _⟩, by decide⟩

theorem aside_partsHtml (hplain : h.PlainText extension) (ps : List Part) :
    Aside codeClosing (partsHtml h filler extension anchors ps) := by
  refine Aside.flatMap fun fragment _ => ?_
  cases fragment with
  | code s =>
    obtain ⟨quotes, shown, hshown⟩ := exists_codeHtml_eq hplain s
    refine aside_of_bracket_notMem rfl ?_
    show '<' ∉ codeHtml h extension s
    rw [hshown]
    exact bracket_notMem_plain quotes shown
  | reference target indent =>
    have hindent : Aside codeClosing (escape indent) :=
      aside_of_bracket_notMem rfl (notMem_escape (.inl rfl) indent)
    have hlink : Aside codeClosing (linkOf (anchorOf filler anchors target.text)
        (macroLabel target.text) " class=\"macro-ref\"") :=
      aside_linkOf _ rfl (by decide) (by decide) (bracket_notMem_macroLabel _)
    exact (hindent.append hlink).append (by decide)

theorem contents?_blockHtml (id? : Option Text) {header code : Text}
    (hheader : ∀ mark ∈ [headerClosing, codeOpening], Aside mark header)
    (hcode : Aside codeClosing code) :
    contents? headerOpening headerClosing (blockHtml id? header code) = some header ∧
      contents? codeOpening codeClosing (blockHtml id? header code) = some code := by
  have hid : '<' ∉ idAttribute id? := by
    cases id? with
    | none => decide
    | some id =>
      exact List.not_mem_append
        (List.not_mem_append (by decide) (notMem_escape (.inl rfl) id)) (by decide)
  have hstart : ∀ mark ∈ [headerOpening, codeOpening],
      Aside mark ("<div class=\"definition\"" ++ idAttribute id? ++ ">\n") := by
    have hhead : ∀ mark ∈ [headerOpening, codeOpening],
        mark.head? = some '<' ∧ Aside mark "<div class=\"definition\"" ∧ Aside mark ">\n" := by
      decide
    intro mark hmark
    obtain ⟨hbracket, hdiv, hend⟩ := hhead mark hmark
    exact (hdiv.append (aside_of_bracket_notMem hbracket hid)).append hend
  -- the closing tag of the header and the tags of the code stand apart from what is around them
  have hheaderEnd : ("</p>\n" : Text) = headerClosing ++ "\n" := by decide
  have hcodeStart : ("<pre class=\"highlight\"><code>" : Text) =
      "<pre class=\"highlight\">" ++ codeOpening := by decide
  have hcodeEnd : ("</code></pre>\n" : Text) = codeClosing ++ "</pre>\n" := by decide
  constructor
  · have hblock : blockHtml id? header code =
        ("<div class=\"definition\"" ++ idAttribute id? ++ ">\n") ++ (headerOpening ++ (header ++
          (headerClosing ++ ("\n" ++ "<pre class=\"highlight\"><code>" ++ code ++
            "</code></pre>\n" ++ "</div>")))) := by
      show "<div class=\"definition\"" ++ idAttribute id? ++ ">\n" ++ headerOpening ++ header ++
        "</p>\n" ++ "<pre class=\"highlight\"><code>" ++ code ++ "</code></pre>\n" ++ "</div>" = _
      rw [hheaderEnd]
      simp only [List.append_assoc]
    rw [hblock]
    exact contents?_eq (by decide) (by decide) (hstart _ (by simp)) (hheader _ (by simp)) _
  · have hbefore : Aside codeOpening ("<div class=\"definition\"" ++ idAttribute id? ++ ">\n" ++
        headerOpening ++ header ++ "</p>\n" ++ "<pre class=\"highlight\">") :=
      ((((hstart _ (by simp)).append (by decide)).append (hheader _ (by simp))).append
        (by decide)).append (by decide)
    have hblock : blockHtml id? header code =
        ("<div class=\"definition\"" ++ idAttribute id? ++ ">\n" ++ headerOpening ++ header ++
          "</p>\n" ++ "<pre class=\"highlight\">") ++ (codeOpening ++ (code ++ (codeClosing ++
            ("</pre>\n" ++ "</div>")))) := by
      show "<div class=\"definition\"" ++ idAttribute id? ++ ">\n" ++ headerOpening ++ header ++
        "</p>\n" ++ "<pre class=\"highlight\"><code>" ++ code ++ "</code></pre>\n" ++ "</div>" = _
      rw [hcodeStart, hcodeEnd]
      simp only [List.append_assoc]
    rw [hblock]
    exact contents?_eq (by decide) (by decide) hbefore hcode _

/-- The page and the Markdown show the same header and the same code of a definition, where the
code is plain text without carriage returns and no run of literals begins with a byte order mark:
the contents of the code element, without tags and with their entities read, are the literals as
they are and a line for each reference, which is what stands in the fence. -/
theorem block_shows_fence (h : Highlighter) (filler extension language : Text)
    (hplain : h.PlainText extension) (anchors : Anchors) (first : Bool) (d : Definition)
    (hreturn : ∀ s, .literal s ∈ d.parts → '\r' ∉ s)
    (hmark : ∀ s, .code s ∈ fragments d.parts → s.head? ≠ some Text.byteOrderMark) :
    ∃ header code lineEnd,
      (contents? headerOpening headerClosing
        (definitionBlock h filler extension anchors first d)).map shownText = some header ∧
      (contents? codeOpening codeClosing
        (definitionBlock h filler extension anchors first d)).map shownText = some code ∧
      code = d.parts.flatMap markdownPart ∧ header ++ "\n" = markdownHeader first d ∧
      (lineEnd = [] ∨ lineEnd = ['\n']) ∧
      markdownDefinition language first d = fenceMark ++ language ++ "\n" ++ (header ++ "\n") ++
        (code ++ lineEnd) ++ fenceMark ++ "\n" := by
  have hoperator : Reads (operator first) (operator first) := by
    refine NoMarkup.reads ?_
    cases first with
    | false => decide
    | true => decide
  have hlabel : Reads (macroLabel d.name.text ++ operator first)
      ("<< " ++ d.key ++ " >>" ++ operator first) := (reads_macroLabel d.name).append hoperator
  have hbracket : '<' ∉ macroLabel d.name.text ++ operator first := by
    rw [List.mem_append, not_or]
    refine ⟨bracket_notMem_macroLabel _, ?_⟩
    cases first with
    | false => decide
    | true => decide
  have hmarks : ∀ mark ∈ [headerClosing, codeOpening], mark.head? = some '<' ∧
      Aside mark ("<a" ++ ([] : Text) ++ " href=\"#") ∧ Aside mark "</a>" := by decide
  -- neither mark of the block is found inside the link of its header or inside its code
  obtain ⟨hheader, hcode⟩ := contents?_blockHtml
    (if first then some (anchorOf filler anchors d.name.text) else none)
    (fun mark hmark => aside_linkOf (anchorOf filler anchors d.name.text) (hmarks mark hmark).1
      (hmarks mark hmark).2.1 (hmarks mark hmark).2.2 hbracket)
    (aside_partsHtml hplain d.parts)
  rw [← definitionBlock_eq] at hheader hcode
  have hend : ∀ last, missingLineEnd last = [] ∨ missingLineEnd last = ['\n'] := by
    intro last
    unfold missingLineEnd
    split
    · exact .inl rfl
    · exact .inr rfl
  refine ⟨"<< " ++ d.key ++ " >>" ++ operator first, d.parts.flatMap markdownPart,
    missingLineEnd ((d.parts.getLast?.map markdownPart).getD []), ?_, ?_, rfl, rfl, hend _, rfl⟩
  · rw [hheader, Option.map_some, (reads_linkOf _ (by decide) hlabel).shownText_eq]
  · rw [hcode, Option.map_some, (reads_partsHtml hplain hreturn hmark).shownText_eq]

def markedUp : Definition where
  name := ⟨" a & b ", by decide⟩
  position := ⟨⟨"n.lit", by decide⟩, 3, by decide⟩
  parts := [.literal [], .literal "if x < y && s == '&lt;':", .reference ⟨"<in>\t", by decide⟩ "\t",
    .reference ⟨"out", by decide⟩ [], .literal "\"\x7d\"\n", .literal "\ufeffend"]

theorem markedUp_shown :
    let block := definitionBlock .quoting defaultFiller ".txt" [] false markedUp
    Highlighter.quoting.PlainText ".txt" ∧
    (∀ s, .literal s ∈ markedUp.parts → '\r' ∉ s) ∧
    (∀ s, .code s ∈ fragments markedUp.parts → s.head? ≠ some Text.byteOrderMark) ∧
    (contents? headerOpening headerClosing block).map shownText =
      some ("<< a & b >>+=" : Text) ∧
    (contents? codeOpening codeClosing block).map shownText =
      some ("if x < y && s == '&lt;':\t<< <in> >>\n<< out >>\n\"\x7d\"\n\ufeffend" : Text) := by
  intro block
  have hplain := plainText_quoting ".txt"
  have hreturn : ∀ s, .literal s ∈ markedUp.parts → '\r' ∉ s := by
    have hparts : ∀ p ∈ markedUp.parts, '\r' ∉ markdownPart p := by decide
    exact fun s hs => hparts _ hs
  have hmark : ∀ s, .code s ∈ fragments markedUp.parts → s.head? ≠ some Text.byteOrderMark := by
    have hfragments : ∀ f ∈ fragments markedUp.parts,
        (fragmentText f).head? ≠ some Text.byteOrderMark := by decide
    exact fun s hs => hfragments _ hs
  obtain ⟨header, code, lineEnd, hheader, hcode, rfl, hline, -, -⟩ :=
    block_shows_fence .quoting defaultFiller ".txt" "txt" hplain [] false markedUp hreturn hmark
  refine ⟨hplain, hreturn, hmark, ?_, hcode.trans (by decide)⟩
  have hsame : header = ("<< a & b >>+=" : Text) :=
    List.append_cancel_right (hline.trans (by decide) : header ++ "\n" = "<< a & b >>+=" ++ "\n")
  rw [hheader, hsame]

end Literate.Weave
