import Literate.Markup.Block
import Literate.Proofs.Markup.Blocks
import Literate.Proofs.Markup.Steps

namespace Literate.Markup

open Text

variable {T T' : Text → Prop} {s t o e : Text} {a : Text} {as bs taken given : List Text}

/-- A text that begins like a tag or an entity begins with one. -/
structure Begins (T : Text → Prop) (s : Text) : Prop where
  tag : s.head? = some '<' → ∃ t, T t ∧ t <+: s
  entity : s.head? = some '&' → ∃ e ∈ entities, e <+: s

/-- Every bracket that could begin a tag begins one of `T`, every ampersand an entity. -/
def Tagged (T : Text → Prop) : Text → Prop
  | [] => True
  | c :: s => Begins T (c :: s) ∧ Tagged T s

def NoMarkup (s : Text) : Prop := ∀ c ∈ s, c ≠ '<' ∧ c ≠ '&'

instance : Decidable (NoMarkup s) := List.decidableBAll _ _

theorem Tagged.append (hs : Tagged T s) (ht : Tagged T t) : Tagged T (s ++ t) := by
  induction s with
  | nil => exact ht
  | cons c s ih =>
    obtain ⟨hbegins, hs⟩ := hs
    refine ⟨⟨fun hc => ?_, fun hc => ?_⟩, ih hs⟩
    · obtain ⟨tag, htag, hbegin⟩ := hbegins.tag hc
      exact ⟨tag, htag, hbegin.trans (List.prefix_append _ _)⟩
    · obtain ⟨entity, hentity, hbegin⟩ := hbegins.entity hc
      exact ⟨entity, hentity, hbegin.trans (List.prefix_append _ _)⟩

theorem Tagged.of_append (h : Tagged T (s ++ t)) : Tagged T t := by
  induction s with
  | nil => exact h
  | cons c s ih => exact ih h.2

theorem Tagged.flatten (h : ∀ a ∈ as, Tagged T a) : Tagged T as.flatten := by
  induction as with
  | nil => trivial
  | cons a as ih =>
    obtain ⟨ha, has⟩ := List.forall_mem_cons.1 h
    exact ha.append (ih has)

theorem NoMarkup.tagged (h : NoMarkup s) : Tagged T s := by
  induction s with
  | nil => trivial
  | cons c s ih =>
    obtain ⟨hc, hs⟩ := List.forall_mem_cons.1 h
    refine ⟨⟨fun h => ?_, fun h => ?_⟩, ih hs⟩
    · exact absurd (Option.some.inj h) hc.1
    · exact absurd (Option.some.inj h) hc.2

theorem Tagged.mono (hT : ∀ t, T t → T' t) (h : Tagged T s) : Tagged T' s := by
  induction s with
  | nil => trivial
  | cons c s ih =>
    refine ⟨⟨fun hc => ?_, h.1.entity⟩, ih h.2⟩
    obtain ⟨tag, htag, hbegin⟩ := h.1.tag hc
    exact ⟨tag, hT tag htag, hbegin⟩

theorem Tagged.joinLines (h : ∀ a ∈ as, Tagged T a) : Tagged T (joinLines as) := by
  have hline : Tagged T "\n" := NoMarkup.tagged (by decide)
  induction as with
  | nil => trivial
  | cons a as ih =>
    obtain ⟨ha, has⟩ := List.forall_mem_cons.1 h
    cases as with
    | nil => simpa [Text.joinLines, Text.join, List.intercalate] using ha
    | cons b bs =>
      have hcons : Text.joinLines (a :: b :: bs) = a ++ ("\n" ++ Text.joinLines (b :: bs)) := by
        simp [Text.joinLines, Text.join, List.intercalate]
      rw [hcons]
      exact ha.append (hline.append (ih has))

theorem Tagged.opened (hhead : o.head? = some '<') (hrest : NoMarkup o.tail)
    (htag : ∃ tag, T tag ∧ tag <+: o ++ s) (hs : Tagged T s) : Tagged T (o ++ s) := by
  obtain ⟨o, rfl⟩ := List.head?_eq_some_iff.1 hhead
  exact ⟨⟨fun _ => htag, by simp⟩, hrest.tagged.append hs⟩

theorem tagged_tag (htag : T t) (hhead : t.head? = some '<') (hrest : NoMarkup t.tail) :
    Tagged T t := by
  have hopened : Tagged T (t ++ []) := Tagged.opened hhead hrest ⟨t, htag, by simp⟩ trivial
  rwa [List.append_nil] at hopened

theorem tagged_entity (he : e ∈ entities) : Tagged T e := by
  have hrest : ∀ e ∈ entities, e.head? = some '&' ∧ NoMarkup e.tail := by decide
  obtain ⟨hhead, hplain⟩ := hrest e he
  obtain ⟨t, rfl⟩ := List.head?_eq_some_iff.1 hhead
  exact ⟨⟨by simp, fun _ => ⟨_, he, List.prefix_rfl⟩⟩, hplain.tagged⟩

theorem IsProse.tagged (h : IsProse a) : Tagged T a := by
  rcases h with ⟨c, hc, rfl⟩ | h
  · have hplain : NoMarkup [c] := by
      simp only [markupCharacters, List.mem_cons, not_or] at hc
      exact List.forall_mem_singleton.2 ⟨hc.1, hc.2.2.1⟩
    exact hplain.tagged
  · exact tagged_entity h

theorem tagged_escape (s : Text) : Tagged T (escape s) := by
  refine Tagged.flatten fun a ha => ?_
  obtain ⟨c, -, rfl⟩ := List.mem_map.1 ha
  exact (isProse_escapeChar c).tagged

theorem tagged_escapeContent (s : Text) : Tagged T (escapeContent s) := by
  refine Tagged.flatten fun a ha => ?_
  obtain ⟨c, -, rfl⟩ := List.mem_map.1 ha
  by_cases hquote : c = '"' ∨ c = '\''
  · have hplain : NoMarkup (escapeContentChar c) := by
      rcases hquote with rfl | rfl
      · decide
      · decide
    exact hplain.tagged
  · rw [not_or] at hquote
    exact (isProse_escapeContentChar c hquote.1 hquote.2).tagged

def openingNames : List Text :=
  ["p", "h1", "h2", "h3", "h4", "h5", "h6", "hr", "blockquote", "ul", "ol", "li", "pre", "code",
    "strong", "em"]

def closingNames : List Text :=
  ["p", "h1", "h2", "h3", "h4", "h5", "h6", "blockquote", "ul", "ol", "li", "pre", "code",
    "strong", "em", "a", "div"]

/-- The tags of prose as they are written. An attribute of a link or an image holds escaped text, in
which later rules may have put tags of their own, and ends where it is first closed. -/
inductive ProseTag : Text → Prop where
  | opening {name : Text} (mem : name ∈ openingNames) : ProseTag ("<" ++ name ++ ">")
  | closing {name : Text} (mem : name ∈ closingNames) : ProseTag ("</" ++ name ++ ">")
  | language (name : Text) : ProseTag ("<code class=\"language-" ++ escape name ++ "\">")
  | link {address : List Text} (pieces : ∀ a ∈ address, IsPiece a)
      (shut : attributeEnd ∉ address) :
      ProseTag (linkStart ++ address.flatten ++ attributeEnd)
  | image {source shown : List Text} (pieces : ∀ a ∈ source ++ shown, IsPiece a)
      (described : altStart ∉ source) (shut : attributeEnd ∉ shown) :
      ProseTag (imageStart ++ source.flatten ++ altStart ++ shown.flatten ++ attributeEnd)

/-- What has to follow a piece that begins an attribute. -/
def closers (a : Text) : List Text :=
  if a = linkStart then [attributeEnd]
  else if a = imageStart then [altStart, attributeEnd]
  else []

def closings (as : List Text) : List Text := as.filter (· ∈ [altStart, attributeEnd])

/-- Behind every piece that begins an attribute there is what has to follow it. -/
def Closed : List Text → Prop
  | [] => True
  | a :: as => (closers a).Sublist (closings as) ∧ Closed as

theorem closings_append (as bs : List Text) : closings (as ++ bs) = closings as ++ closings bs :=
  List.filter_append as bs

theorem closings_prose (h : ∀ a ∈ as, IsProse a) : closings as = [] := by
  have hne : ∀ a ∈ [altStart, attributeEnd], ¬ IsProse a := by
    intro a ha hprose
    have hlong : ∀ a ∈ [altStart, attributeEnd], a.length ≠ 1 ∧ a ∉ entities := by decide
    rcases hprose with ⟨c, -, rfl⟩ | hmem
    · exact (hlong _ ha).1 rfl
    · exact (hlong a ha).2 hmem
  refine List.filter_eq_nil_iff.2 fun a ha hmem => ?_
  exact hne a (of_decide_eq_true hmem) (h a ha)

theorem closers_prose (h : IsProse a) : closers a = [] := by
  have hne : ∀ a ∈ [linkStart, imageStart], a.length ≠ 1 ∧ a ∉ entities := by decide
  have hnot : a ∉ [linkStart, imageStart] := by
    intro ha
    rcases h with ⟨c, -, rfl⟩ | hmem
    · exact (hne _ ha).1 rfl
    · exact (hne a ha).2 hmem
  simp only [List.mem_cons, List.not_mem_nil, or_false, not_or] at hnot
  rw [closers, if_neg hnot.1, if_neg hnot.2]

theorem closed_append (h : ∀ a ∈ as, closers a = []) (hbs : Closed bs) : Closed (as ++ bs) := by
  induction as with
  | nil => exact hbs
  | cons a as ih =>
    obtain ⟨ha, has⟩ := List.forall_mem_cons.1 h
    exact ⟨by rw [ha]; exact List.nil_sublist _, ih has⟩

theorem Closed.of_append (h : Closed (as ++ bs)) : Closed bs := by
  induction as with
  | nil => exact h
  | cons a as ih => exact ih h.2

theorem Closed.mono (later : List Text) (h : Closed (as ++ later))
    (hclosings : (closings later).Sublist (closings bs)) (hbs : Closed bs) : Closed (as ++ bs) := by
  induction as with
  | nil => exact hbs
  | cons a as ih =>
    have hsame : (closings (as ++ later)).Sublist (closings (as ++ bs)) := by
      rw [closings_append, closings_append]
      exact hclosings.append_left _
    exact ⟨h.1.trans hsame, ih h.2⟩

theorem Illustrated.closed (h : Illustrated as) : Closed as := by
  induction h with
  | nil => trivial
  | prose ha _ ih => exact ⟨by rw [closers_prose ha]; exact List.nil_sublist _, ih⟩
  | @image target shown as htarget hshown later ih =>
    refine ⟨?_, closed_append (fun a ha => closers_prose (htarget a ha).1) ?_⟩
    · have hclosings : closings (target ++ altStart :: (shown ++ attributeEnd :: as)) =
          [altStart, attributeEnd] ++ closings as := by
        rw [closings_append, closings_prose fun a ha => (htarget a ha).1, ← List.singleton_append,
          closings_append, closings_append, closings_prose fun a ha => (hshown a ha).1]
        rfl
      rw [hclosings]
      exact List.sublist_append_left _ _
    · refine ⟨List.nil_sublist _, closed_append (fun a ha => closers_prose (hshown a ha).1) ?_⟩
      exact ⟨List.nil_sublist _, ih⟩

/-- A step leaves everything closed, whatever comes behind it. -/
def ClosesAgain (R : List Text → List Text → Prop) : Prop :=
  ∀ taken given, R taken given → (closings taken).Sublist (closings given) ∧
    ∀ as bs, Closed (taken ++ as) → (closings as).Sublist (closings bs) → Closed bs →
      Closed (given ++ bs)

theorem Rewrites.closed {R : List Text → List Text → Prop} (h : Rewrites R as bs)
    (hR : ClosesAgain R) (has : Closed as) : Closed bs ∧ (closings as).Sublist (closings bs) := by
  induction h with
  | nil => exact ⟨has, List.Sublist.refl _⟩
  | @keep as bs a later ih =>
    obtain ⟨hbs, hclosings⟩ := ih has.2
    refine ⟨⟨has.1.trans hclosings, hbs⟩, ?_⟩
    have hkept : (closings ([a] ++ as)).Sublist (closings ([a] ++ bs)) := by
      rw [closings_append, closings_append]
      exact hclosings.append_left _
    exact hkept
  | replace here later ih =>
    obtain ⟨hbs, hclosings⟩ := ih has.of_append
    obtain ⟨hstep, hclosed⟩ := hR _ _ here
    refine ⟨hclosed _ _ has hclosings hbs, ?_⟩
    rw [closings_append, closings_append]
    exact hstep.append hclosings

theorem closings_singletons (h : ∀ a ∈ as, ∃ c, a = [c]) : closings as = [] := by
  refine List.filter_eq_nil_iff.2 fun a ha hmem => ?_
  obtain ⟨c, rfl⟩ := h a ha
  have hlong : ∀ a ∈ [altStart, attributeEnd], a.length ≠ 1 := by decide
  exact hlong _ (of_decide_eq_true hmem) rfl

theorem closings_chars (s : Text) : closings (chars s) = [] := by
  apply closings_singletons
  intro a ha
  obtain ⟨c, -, rfl⟩ := List.mem_map.1 ha
  exact ⟨c, rfl⟩

theorem Trims.exists_closings {label shown : List Text} (h : Trims label shown) :
    ∃ front back, label = front ++ (shown ++ back) ∧ closings front = [] ∧ closings back = [] := by
  obtain ⟨front, back, rfl, hblank⟩ := h
  obtain ⟨hfront, hback⟩ := List.forall_mem_append.1 hblank
  refine ⟨front, back, rfl, ?_, ?_⟩
  · apply closings_singletons
    intro a ha
    obtain ⟨c, -, rfl⟩ := hfront a ha
    exact ⟨c, rfl⟩
  · apply closings_singletons
    intro a ha
    obtain ⟨c, -, rfl⟩ := hback a ha
    exact ⟨c, rfl⟩

theorem closed_link (has : ∀ a ∈ as, closers a = []) (hbs : Closed bs) :
    Closed (linkStart :: (as ++ attributeEnd :: bs)) := by
  refine ⟨List.singleton_sublist.2 ?_, closed_append has ⟨List.nil_sublist _, hbs⟩⟩
  exact List.mem_filter.2 ⟨by simp, by decide⟩

theorem link_closesAgain : ClosesAgain LinkStep := by
  intro taken given hstep
  cases hstep with
  | @intro label shown target labelled trims prose =>
    have htarget : closings target = [] := closings_prose prose
    obtain ⟨front, back, rfl, hfront, hback⟩ := trims.exists_closings
    constructor
    · simp only [closings_append, closings_chars, htarget, hfront, hback, List.nil_append,
        List.append_nil]
      exact (List.sublist_append_right _ _).trans (List.sublist_append_left _ _)
    · intro as bs has hclosings hbs
      have hwhole : Closed ((chars "[" ++ front) ++
          (shown ++ (back ++ chars "](" ++ target ++ chars ")" ++ as))) := by
        simpa using has
      have hshown : Closed (shown ++ linkEnd :: bs) := by
        refine hwhole.of_append.mono _ ?_ ⟨List.nil_sublist _, hbs⟩
        simp only [closings_append, closings_chars, htarget, hback, List.nil_append]
        exact hclosings
      simpa using closed_link (fun a ha => closers_prose (prose a ha)) hshown

theorem address_closesAgain : ClosesAgain AddressStep := by
  intro taken given hstep
  cases hstep with
  | @intro address scheme unbroken unclosed =>
    -- what begins an attribute has a blank, and an address has none
    have haddress : ∀ a ∈ address, closers a = [] := by
      intro a ha
      have hblank : ∀ a ∈ [linkStart, imageStart], ' ' ∈ a := by decide
      have hnot : a ∉ [linkStart, imageStart] := fun hmem =>
        absurd (unbroken a ha ' ' (hblank a hmem)) (by decide)
      simp only [List.mem_cons, List.not_mem_nil, or_false, not_or] at hnot
      rw [closers, if_neg hnot.1, if_neg hnot.2]
    constructor
    · have hopen : closings [escapedOpen] = [] := by decide
      have hclose : closings [escapedClose] = [] := by decide
      simp only [closings_append, hopen, hclose, List.nil_append, List.append_nil]
      exact (List.sublist_append_right _ _).trans (List.sublist_append_left _ _)
    · intro as bs has hclosings hbs
      have hbehind : Closed (address ++ linkEnd :: bs) :=
        closed_append haddress ⟨List.nil_sublist _, hbs⟩
      simpa using closed_link haddress hbehind

theorem mark_closesAgain {marks : List Text} {tag : Text}
    (htag : closers ("<" ++ tag ++ ">") = [] ∧ closings ["<" ++ tag ++ ">"] = [])
    (htag' : closers ("</" ++ tag ++ ">") = [] ∧ closings ["</" ++ tag ++ ">"] = []) :
    ClosesAgain (MarkStep marks tag) := by
  intro taken given hstep
  cases hstep with
  | @intro mark content isMark =>
    constructor
    · simp only [closings_append, closings_chars, htag.2, htag'.2]
      exact List.Sublist.refl _
    · intro as bs has hclosings hbs
      have hwhole : Closed (chars mark ++ (content ++ (chars mark ++ as))) := by
        simpa using has
      have hcontent : Closed (content ++ (["</" ++ tag ++ ">"] ++ bs)) := by
        refine hwhole.of_append.mono _ ?_ ⟨by rw [htag'.1]; exact List.nil_sublist _, hbs⟩
        rw [closings_append, closings_append, closings_chars, htag'.2]
        exact hclosings
      have hopen : Closed (["<" ++ tag ++ ">"] ++ (content ++ (["</" ++ tag ++ ">"] ++ bs))) :=
        ⟨by rw [htag.1]; exact List.nil_sublist _, hcontent⟩
      simpa using hopen

theorem Formats.closed {images links addresses strongs out : List Text}
    (h : Formats s images links addresses strongs out) : Closed out := by
  have hlinks := (h.link.closed link_closesAgain h.illustrated.closed).1
  have haddresses := (h.address.closed address_closesAgain hlinks).1
  have hstrongs := (h.strong.closed (mark_closesAgain (by decide) (by decide)) haddresses).1
  exact (h.emphasis.closed (mark_closesAgain (by decide) (by decide)) hstrongs).1

theorem tagged_opening (name : Text) (h : name ∈ openingNames) :
    Tagged ProseTag ("<" ++ name ++ ">") := by
  have hplain : ∀ name ∈ openingNames, NoMarkup ("<" ++ name ++ ">").tail := by decide
  exact tagged_tag (.opening h) rfl (hplain name h)

theorem tagged_closing (name : Text) (h : name ∈ closingNames) :
    Tagged ProseTag ("</" ++ name ++ ">") := by
  have hplain : ∀ name ∈ closingNames, NoMarkup ("</" ++ name ++ ">").tail := by decide
  exact tagged_tag (.closing h) rfl (hplain name h)

theorem tagged_link (has : ∀ a ∈ as, IsPiece a) (hclosed : attributeEnd ∈ as)
    (h : Tagged ProseTag as.flatten) : Tagged ProseTag (linkStart ++ as.flatten) := by
  obtain ⟨address, later, rfl, hshut⟩ := List.eq_append_cons_of_mem hclosed
  have htag := ProseTag.link (fun a ha => has a (List.mem_append_left _ ha)) hshut
  refine Tagged.opened rfl (by decide) ⟨_, htag, later.flatten, ?_⟩ h
  simp only [List.flatten_append, List.flatten_cons, List.append_assoc]

theorem mem_of_cons_sublist {b : Text} (h : a ∉ as) (hs : [a, b].Sublist (as ++ a :: bs)) :
    b ∈ bs := by
  induction as with
  | nil => exact List.singleton_sublist.1 (List.cons_sublist_cons.1 hs)
  | cons c as ih =>
    rw [List.mem_cons, not_or] at h
    exact ih h.2 (hs.of_cons_of_ne h.1)

/-- The first piece that begins the description of an image ends its address, and the first one
behind that which closes an attribute ends its tag. -/
theorem tagged_image (has : ∀ a ∈ as, IsPiece a) (hclosed : [altStart, attributeEnd].Sublist as)
    (h : Tagged ProseTag as.flatten) : Tagged ProseTag (imageStart ++ as.flatten) := by
  obtain ⟨source, rest, rfl, hdescribed⟩ :=
    List.eq_append_cons_of_mem (hclosed.subset List.mem_cons_self)
  have hrest : attributeEnd ∈ rest := mem_of_cons_sublist hdescribed hclosed
  obtain ⟨shown, later, rfl, hshut⟩ := List.eq_append_cons_of_mem hrest
  have hpieces : ∀ a ∈ source ++ shown, IsPiece a := fun a ha =>
    has a (by rcases List.mem_append.1 ha with ha | ha <;> simp [ha])
  have htag := ProseTag.image hpieces hdescribed hshut
  refine Tagged.opened rfl (by decide) ⟨_, htag, later.flatten, ?_⟩ h
  simp only [List.flatten_append, List.flatten_cons, List.append_assoc]

theorem tagged_pieces (has : ∀ a ∈ as, IsPiece a) (hclosed : Closed as) :
    Tagged ProseTag as.flatten := by
  induction as with
  | nil => trivial
  | cons a as ih =>
    obtain ⟨ha, hpieces⟩ := List.forall_mem_cons.1 has
    have hlater : Tagged ProseTag as.flatten := ih hpieces hclosed.2
    have hfollows : (closers a).Sublist as := hclosed.1.trans List.filter_sublist
    rcases ha with ha | ha
    · exact ha.tagged.append hlater
    · simp only [tagPieces, List.mem_cons, List.not_mem_nil, or_false] at ha
      rcases ha with rfl | rfl | rfl | rfl | rfl | rfl | rfl | rfl | rfl
      · exact tagged_link hpieces (List.singleton_sublist.1 hfollows) hlater
      · exact tagged_image hpieces hfollows hlater
      · exact (NoMarkup.tagged (by decide)).append hlater
      · exact (NoMarkup.tagged (by decide)).append hlater
      · exact (tagged_closing "a" (by decide)).append hlater
      · exact (tagged_opening "strong" (by decide)).append hlater
      · exact (tagged_closing "strong" (by decide)).append hlater
      · exact (tagged_opening "em" (by decide)).append hlater
      · exact (tagged_closing "em" (by decide)).append hlater

theorem tagged_formatProse (s : Text) : Tagged ProseTag (formatProse s) := by
  obtain ⟨images, links, addresses, strongs, out, hformats, hout⟩ := exists_formats s
  rw [hout]
  exact tagged_pieces hformats.isPiece hformats.closed

theorem tagged_element {name : Text} (hopening : name ∈ openingNames)
    (hclosing : name ∈ closingNames) (h : Tagged ProseTag s) :
    Tagged ProseTag (element name s) := by
  have hwhole := ((tagged_opening name hopening).append h).append (tagged_closing name hclosing)
  simpa [element] using hwhole

theorem tagged_inlineHtml (s : Text) : Tagged ProseTag (inlineHtml s) := by
  refine (tagged_formatProse _).append (Tagged.flatten fun a ha => ?_)
  obtain ⟨⟨code, after⟩, -, rfl⟩ := List.mem_map.1 ha
  have hcode : Tagged ProseTag (codeElement code) :=
    tagged_element (by decide) (by decide) (tagged_escapeContent _)
  exact hcode.append (tagged_formatProse after)

theorem tagged_lineEnd : Tagged T "\n" := NoMarkup.tagged (by decide)

theorem tagged_listElement (ordered : Bool) (items : List Text) :
    Tagged ProseTag (listElement ordered items) := by
  have hitems : Tagged ProseTag (items.flatMap listItem) := by
    refine Tagged.flatten fun a ha => ?_
    obtain ⟨item, -, rfl⟩ := List.mem_map.1 ha
    exact (tagged_element (by decide) (by decide) (tagged_inlineHtml item)).append tagged_lineEnd
  have hlist : ∀ name ∈ (["ul", "ol"] : List Text), Tagged ProseTag
      ("<" ++ name ++ ">" ++ ("\n" ++ (items.flatMap listItem ++ ("</" ++ name ++ ">")))) := by
    intro name hname
    have hnames :
        ∀ name ∈ (["ul", "ol"] : List Text), name ∈ openingNames ∧ name ∈ closingNames := by
      decide
    exact (tagged_opening name (hnames name hname).1).append
      (tagged_lineEnd.append (hitems.append (tagged_closing name (hnames name hname).2)))
  cases ordered with
  | false => simpa [listElement] using hlist "ul" (by decide)
  | true => simpa [listElement] using hlist "ol" (by decide)

theorem tagged_codeStart (language : Text) :
    Tagged ProseTag ("<code" ++ languageAttribute language ++ ">") := by
  unfold languageAttribute
  split
  · exact tagged_opening "code" (by decide)
  · have hend : Tagged ProseTag (escape language ++ attributeEnd) :=
      (tagged_escape language).append (NoMarkup.tagged (by decide))
    have hopened :
        Tagged ProseTag ("<code class=\"language-" ++ (escape language ++ attributeEnd)) := by
      refine Tagged.opened rfl (by decide) ⟨_, .language language, [], ?_⟩ hend
      rw [List.append_nil, List.append_assoc]
      rfl
    simp only [List.append_assoc]
    exact hopened

theorem tagged_codeBlock (language : Text) (lines : List Text) :
    Tagged ProseTag (codeBlock language lines) := by
  have hend : ("</code></pre>" : Text) = ("</" ++ "code" ++ ">") ++ ("</" ++ "pre" ++ ">") := by
    decide
  have hstart : ("<pre><code" : Text) = ("<" ++ "pre" ++ ">") ++ "<code" := by decide
  have hclosed : Tagged ProseTag (escapeContent (Text.joinLines lines) ++ "</code></pre>") := by
    rw [hend]
    exact (tagged_escapeContent _).append
      ((tagged_closing "code" (by decide)).append (tagged_closing "pre" (by decide)))
  have hwhole := (tagged_opening "pre" (by decide)).append
    ((tagged_codeStart language).append hclosed)
  show Tagged ProseTag ("<pre><code" ++ languageAttribute language ++ ">" ++
    escapeContent (Text.joinLines lines) ++ "</code></pre>")
  rw [hstart]
  simp only [List.append_assoc] at hwhole ⊢
  exact hwhole

theorem htmlEach_eq_map (bs : List Block) : htmlEach bs = bs.map Block.html := by
  induction bs with
  | nil => rfl
  | cons b bs ih => exact congrArg (b.html :: ·) ih

theorem tagged_html (text : Text) : ∀ b ∈ blocks text, Tagged ProseTag b.html := by
  refine forall_mem_blocks ?paragraph ?heading ?rule ?quote ?list ?code text
  case paragraph =>
    intro text
    show Tagged ProseTag (element "p" (inlineHtml text))
    exact tagged_element (by decide) (by decide) (tagged_inlineHtml text)
  case heading =>
    intro level text hlow hhigh
    have hnames : ∀ n < 7, 1 ≤ n →
        'h' :: Text.ofNat n ∈ openingNames ∧ 'h' :: Text.ofNat n ∈ closingNames := by decide
    have hname := hnames level (by omega) hlow
    show Tagged ProseTag (element ('h' :: Text.ofNat level) (inlineHtml text))
    exact tagged_element hname.1 hname.2 (tagged_inlineHtml text)
  case rule =>
    show Tagged ProseTag "<hr>"
    exact tagged_opening "hr" (by decide)
  case quote =>
    intro inner hinner
    have hlines : Tagged ProseTag (Text.joinLines (htmlEach inner)) := by
      rw [htmlEach_eq_map]
      refine Tagged.joinLines fun a ha => ?_
      obtain ⟨b, hb, rfl⟩ := List.mem_map.1 ha
      exact hinner b hb
    show Tagged ProseTag
      ("<blockquote>\n" ++ Text.joinLines (htmlEach inner) ++ "\n</blockquote>")
    have hstart : ("<blockquote>\n" : Text) = ("<" ++ "blockquote" ++ ">") ++ "\n" := by decide
    have hend : ("\n</blockquote>" : Text) = "\n" ++ ("</" ++ "blockquote" ++ ">") := by decide
    rw [hstart, hend]
    exact (((tagged_opening "blockquote" (by decide)).append tagged_lineEnd).append hlines).append
      (tagged_lineEnd.append (tagged_closing "blockquote" (by decide)))
  case list => exact tagged_listElement
  case code => exact tagged_codeBlock

theorem tagged_proseHtml (text : Text) : Tagged ProseTag (proseHtml text) := by
  rw [proseHtml, htmlEach_eq_map]
  refine Tagged.joinLines fun a ha => ?_
  obtain ⟨b, hb, rfl⟩ := List.mem_map.1 ha
  exact tagged_html text b hb

end Literate.Markup
