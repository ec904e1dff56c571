import Literate.Proofs.Markup.Pieces
import Literate.Proofs.Markup.Rules

namespace Literate.Markup

open Text

variable {as bs label shown target taken given : List Text} {a : Text}

/-- Between brackets there is no closing bracket, and between parentheses neither a closing
parenthesis nor a blank. -/
structure Labelled (label target : List Text) : Prop where
  label : [']'] ∉ label
  target : ∀ a ∈ target, ∀ c ∈ a, c ≠ ')' ∧ isBlankChar c = false

inductive ImageStep : List Text → List Text → Prop where
  | intro {label shown target : List Text} (labelled : Labelled label target)
      (trims : Trims label shown) :
      ImageStep (chars "![" ++ label ++ chars "](" ++ target ++ chars ")")
        ([imageStart] ++ target ++ [altStart] ++ shown ++ [attributeEnd])

/-- The target of a link stands in no image. -/
inductive LinkStep : List Text → List Text → Prop where
  | intro {label shown target : List Text} (labelled : Labelled label target)
      (trims : Trims label shown) (prose : ∀ a ∈ target, IsProse a) :
      LinkStep (chars "[" ++ label ++ chars "](" ++ target ++ chars ")")
        ([linkStart] ++ target ++ [attributeEnd] ++ shown ++ [linkEnd])

def escapedOpen : Text := "&lt;"

def escapedClose : Text := "&gt;"

inductive AddressStep : List Text → List Text → Prop where
  | intro {address : List Text} (scheme : chars "http" <+: address)
      (unbroken : ∀ a ∈ address, ∀ c ∈ a, isBlankChar c = false)
      (unclosed : escapedClose ∉ address) :
      AddressStep ([escapedOpen] ++ address ++ [escapedClose])
        ([linkStart] ++ address ++ [attributeEnd] ++ address ++ [linkEnd])

/-- Content between two marks becomes an element. -/
inductive MarkStep (marks : List Text) (tag : Text) : List Text → List Text → Prop where
  | intro {mark : Text} {content : List Text} (isMark : mark ∈ marks) :
      MarkStep marks tag (chars mark ++ content ++ chars mark)
        (["<" ++ tag ++ ">"] ++ content ++ ["</" ++ tag ++ ">"])

abbrev StrongStep := MarkStep ["**", "__"] "strong"

abbrev EmphasisStep := MarkStep ["*", "_"] "em"

theorem Rewrites.forall {R : List Text → List Text → Prop} {P : Text → Prop}
    (h : Rewrites R as bs)
    (hR : ∀ taken given, R taken given → (∀ a ∈ taken, P a) → ∀ a ∈ given, P a)
    (has : ∀ a ∈ as, P a) : ∀ b ∈ bs, P b := by
  induction h with
  | nil => exact has
  | keep a _ ih =>
    obtain ⟨ha, has⟩ := List.forall_mem_cons.1 has
    exact List.forall_mem_cons.2 ⟨ha, ih has⟩
  | replace here _ ih =>
    obtain ⟨htaken, has⟩ := List.forall_mem_append.1 has
    exact List.forall_mem_append.2 ⟨hR _ _ here htaken, ih has⟩

theorem quiet_of_heads {rule : Rule}
    (h : ∀ before c s given n, rule before (c :: s) = some (given, n) → c ∈ heads)
    (ha : IsPiece a) {c : Char} (hc : c ∈ a.tail) (before : Option Char) (s : Text) :
    rule before (c :: s) = none := by
  cases hrule : rule before (c :: s) with
  | none => rfl
  | some r => exact absurd hc (ha.notMem_tail (h before c s r.1 r.2 hrule))

theorem exists_labelled {label target rest : Text} (has : ∀ a ∈ as, IsPiece a)
    (h : as.flatten = '[' :: (label ++ ']' :: '(' :: (target ++ ')' :: rest))) :
    ∃ labels targets later,
      as = chars "[" ++ labels ++ chars "](" ++ targets ++ chars ")" ++ later ∧
        labels.flatten = label ∧ targets.flatten = target := by
  obtain ⟨as₁, rfl, h₁⟩ := exists_after_chars "[" has (by decide) h
  obtain ⟨labels, as₂, rfl, hlabels, h₂⟩ := exists_around_delimiters "]("
    (fun a ha => has a (by simp [ha])) (by decide) (by decide) h₁
  obtain ⟨targets, later, rfl, htargets, -⟩ := exists_around_delimiters ")"
    (fun a ha => has a (by simp [ha])) (by decide) (by decide) h₂
  exact ⟨labels, targets, later, by simp, hlabels, htargets⟩

theorem labelled_of_flatten {s t : Text} (hs : label.flatten = s) (ht : target.flatten = t)
    (hlabel : ']' ∉ s) (htarget : ∀ c ∈ t, c ≠ ')' ∧ isBlankChar c = false) :
    Labelled label target := by
  subst hs ht
  constructor
  · exact fun h => hlabel (List.mem_flatten.2 ⟨_, h, by simp⟩)
  · exact fun a ha c hc => htarget c (List.mem_flatten.2 ⟨a, ha, hc⟩)

theorem image_actsOnPieces : ActsOnPieces image (fun as => ∀ a ∈ as, IsPiece a) ImageStep where
  later as bs h a ha := h a (List.mem_append_right _ ha)
  quiet a as h c hc := by
    refine quiet_of_heads (fun before c s given n hrule => ?_) (h a List.mem_cons_self) hc
    obtain ⟨label, target, rest, hs, -⟩ := image_eq_some hrule
    rw [(List.cons.inj hs).1]
    decide
  takes before as given n has hrule := by
    obtain ⟨label, target, rest, hs, hlabel, htarget, rfl, rfl⟩ := image_eq_some hrule
    obtain ⟨as, rfl, h⟩ := exists_after_chars "!" has (by decide) hs
    obtain ⟨labels, targets, later, rfl, rfl, rfl⟩ :=
      exists_labelled (fun a ha => has a (by simp [ha])) h
    obtain ⟨shown, htrims, hshown⟩ : ∃ shown, Trims labels shown ∧
        trim labels.flatten = shown.flatten := exists_trims fun a ha => has a (by simp [ha])
    have hlabelled : Labelled labels targets := labelled_of_flatten rfl rfl hlabel htarget
    refine ⟨chars "![" ++ labels ++ chars "](" ++ targets ++ chars ")",
      [imageStart] ++ targets ++ [altStart] ++ shown ++ [attributeEnd], later, ?_, ?_, ?_, ?_,
      .intro hlabelled htrims⟩
    · simp [chars]
    · simp [chars]
    · simp [chars]
      omega
    · simp only [List.flatten_append, List.flatten_singleton, hshown]
      rfl

/-- Where an image has been put in, its target holds no closing parenthesis and its description no
closing bracket. -/
inductive Illustrated : List Text → Prop where
  | nil : Illustrated []
  | prose {a : Text} {as : List Text} (prose : IsProse a) (later : Illustrated as) :
      Illustrated (a :: as)
  | image {target shown as : List Text} (unclosed : ∀ a ∈ target, IsProse a ∧ a ≠ [')'])
      (labelled : ∀ a ∈ shown, IsProse a ∧ a ≠ [']']) (later : Illustrated as) :
      Illustrated (imageStart :: (target ++ altStart :: (shown ++ attributeEnd :: as)))

theorem Trims.subset (h : Trims as shown) (ha : a ∈ shown) : a ∈ as := by
  obtain ⟨front, back, rfl, -⟩ := h
  simp [ha]

theorem illustrated_of_rewrites (h : Rewrites ImageStep as bs) (has : ∀ a ∈ as, IsProse a) :
    Illustrated bs := by
  induction h with
  | nil => exact .nil
  | keep a _ ih =>
    obtain ⟨ha, has⟩ := List.forall_mem_cons.1 has
    exact .prose ha (ih has)
  | replace here _ ih =>
    obtain ⟨htaken, hlater⟩ := List.forall_mem_append.1 has
    cases here with
    | @intro label shown target labelled trims =>
      have htarget : ∀ a ∈ target, IsProse a ∧ a ≠ [')'] := fun a ha =>
        ⟨htaken a (by simp [ha]), fun he => (labelled.target a ha ')' (by simp [he])).1 rfl⟩
      have hshown : ∀ a ∈ shown, IsProse a ∧ a ≠ [']'] := fun a ha =>
        ⟨htaken a (by simp [trims.subset ha]), fun he => labelled.label (he ▸ trims.subset ha)⟩
      simpa using Illustrated.image htarget hshown (ih hlater)

theorem Illustrated.prose_of_append {ps rest : List Text} (h : Illustrated (ps ++ rest))
    (hps : imageStart ∉ ps) : ∀ a ∈ ps, IsProse a := by
  induction ps with
  | nil => simp
  | cons a ps ih =>
    rw [List.mem_cons, not_or] at hps
    generalize he : a :: ps ++ rest = as at h
    cases h with
    | nil => simp at he
    | prose ha later =>
      obtain ⟨rfl, rfl⟩ := List.cons.inj he
      exact List.forall_mem_cons.2 ⟨ha, ih later hps.2⟩
    | image _ _ _ => exact absurd (List.cons.inj he).1.symm hps.1

theorem exists_of_append_eq_append_cons (xs : List Text) {ys front rest : List Text} {m c : Text}
    (h : xs ++ m :: ys = front ++ c :: rest) (hne : m ≠ c) :
    (∃ more, front = xs ++ m :: more ∧ ys = more ++ c :: rest) ∨
      ∃ more, xs = front ++ c :: more ∧ rest = more ++ m :: ys := by
  rcases List.append_eq_append_iff.1 h with ⟨more, rfl, hm⟩ | ⟨more, rfl, hm⟩
  · cases more with
    | nil => exact absurd (List.cons.inj hm).1 hne
    | cons d more =>
      obtain ⟨rfl, rfl⟩ := List.cons.inj hm
      exact .inl ⟨more, rfl, rfl⟩
  · cases more with
    | nil => exact absurd (List.cons.inj hm).1.symm hne
    | cons d more =>
      obtain ⟨rfl, rfl⟩ := List.cons.inj hm
      exact .inr ⟨more, rfl, rfl⟩

/-- Behind a label, a target without blanks reaches into no image and out of none. -/
theorem Illustrated.prose_target {front target rest : List Text}
    (h : Illustrated (front ++ [']'] :: ['('] :: (target ++ [')'] :: rest)))
    (htarget : imageStart ∉ target ∧ altStart ∉ target) : ∀ a ∈ target, IsProse a := by
  generalize he : front ++ [']'] :: ['('] :: (target ++ [')'] :: rest) = as at h
  induction h generalizing front with
  | nil => simp at he
  | @prose a as ha later ih =>
    cases front with
    | nil =>
      obtain ⟨rfl, rfl⟩ := List.cons.inj he
      have hbehind : Illustrated ((['('] :: target) ++ [')'] :: rest) := later
      have hprose := hbehind.prose_of_append (by simpa using ⟨by decide, htarget.1⟩)
      exact fun a ha => hprose a (List.mem_cons_of_mem _ ha)
    | cons b front => exact ih (List.cons.inj he).2
  | @image src shown as hsrc hshown later ih =>
    rcases exists_of_append_eq_append_cons [] he.symm (by decide) with
      ⟨front₁, -, h₁⟩ | ⟨more, hnil, -⟩
    · rcases exists_of_append_eq_append_cons _ h₁ (by decide) with
        ⟨front₂, -, h₂⟩ | ⟨more, rfl, h₂⟩
      · rcases exists_of_append_eq_append_cons _ h₂ (by decide) with
          ⟨front₃, -, h₃⟩ | ⟨more, rfl, -⟩
        · exact ih h₃.symm
        · exact absurd rfl (hshown [']'] (by simp)).2
      · -- the label ends in the target of an image, which has no parenthesis to close the link
        rcases exists_of_append_eq_append_cons [] h₂ (by decide) with
          ⟨more, rfl, h₃⟩ | ⟨more, hnil, -⟩
        · rcases exists_of_append_eq_append_cons _ h₃ (by decide) with
            ⟨between, rfl, -⟩ | ⟨between, rfl, -⟩
          · exact absurd rfl (hsrc [')'] (by simp)).2
          · simp at htarget
        · simp at hnil
    · simp at hnil

theorem Illustrated.isPiece (h : Illustrated as) : ∀ a ∈ as, IsPiece a := by
  have htags : ∀ a ∈ [imageStart, altStart, attributeEnd], IsPiece a :=
    fun a ha => .inr ((by decide : ∀ a ∈ [imageStart, altStart, attributeEnd], a ∈ tagPieces) a ha)
  induction h with
  | nil => simp
  | prose ha _ ih => exact List.forall_mem_cons.2 ⟨ha.isPiece, ih⟩
  | image htarget hshown _ ih =>
    intro a ha
    simp only [List.mem_cons, List.mem_append] at ha
    rcases ha with rfl | ha | rfl | ha | rfl | ha
    · exact htags _ (by simp)
    · exact (htarget a ha).1.isPiece
    · exact htags _ (by simp)
    · exact (hshown a ha).1.isPiece
    · exact htags _ (by simp)
    · exact ih a ha

theorem link_actsOnPieces :
    ActsOnPieces link (fun as => ∃ front, Illustrated (front ++ as)) LinkStep where
  later as bs := by
    rintro ⟨front, h⟩
    exact ⟨front ++ as, by rwa [List.append_assoc]⟩
  quiet a as := by
    rintro ⟨front, h⟩ c hc
    refine quiet_of_heads (fun before c s given n hrule => ?_) (h.isPiece a (by simp)) hc
    obtain ⟨label, target, rest, hs, -⟩ := link_eq_some hrule
    rw [(List.cons.inj hs).1]
    decide
  takes before as given n := by
    rintro ⟨front, h⟩ hrule
    have has : ∀ a ∈ as, IsPiece a := fun a ha => h.isPiece a (List.mem_append_right _ ha)
    obtain ⟨label, target, rest, hs, hlabel, htarget, rfl, rfl⟩ := link_eq_some hrule
    obtain ⟨labels, targets, later, rfl, rfl, rfl⟩ := exists_labelled has hs
    obtain ⟨shown, htrims, hshown⟩ : ∃ shown, Trims labels shown ∧
        trim labels.flatten = shown.flatten := exists_trims fun a ha => has a (by simp [ha])
    have hlabelled : Labelled labels targets := labelled_of_flatten rfl rfl hlabel htarget
    -- a target has no blank, and the tags of an image have one
    have hunbroken : ∀ a ∈ [imageStart, altStart], a ∉ targets := by
      intro a ha hmem
      have hblank : ∀ a ∈ [imageStart, altStart], ' ' ∈ a := by decide
      exact absurd (hlabelled.target a hmem ' ' (hblank a ha)).2 (by decide)
    have hprose : ∀ a ∈ targets, IsProse a := by
      have hbehind : Illustrated (front ++ chars "[" ++ labels ++
          [']'] :: ['('] :: (targets ++ [')'] :: later)) := by
        simpa [chars] using h
      exact hbehind.prose_target ⟨hunbroken _ (by simp), hunbroken _ (by simp)⟩
    refine ⟨chars "[" ++ labels ++ chars "](" ++ targets ++ chars ")",
      [linkStart] ++ targets ++ [attributeEnd] ++ shown ++ [linkEnd], later, rfl, ?_, ?_, ?_,
      .intro hlabelled htrims hprose⟩
    · simp [chars]
    · simp [chars]
      omega
    · simp only [List.flatten_append, List.flatten_singleton, hshown]
      rfl

theorem exists_entity (e front : Text) {rest : Text} (has : ∀ a ∈ as, IsPiece a) (he : e ∈ entities)
    (h : as.flatten = front ++ (e ++ rest)) : ∃ earlier later,
      as = earlier ++ e :: later ∧ earlier.flatten = front ∧ later.flatten = rest := by
  have hheads : ∀ e ∈ entities, e.head? = some '&' := by decide
  have hfree : ∀ e ∈ entities, ∀ e' ∈ entities ++ tagPieces, e <+: e' ∨ e' <+: e → e = e' := by
    decide
  obtain ⟨e, rfl⟩ := List.head?_eq_some_iff.1 (hheads e he)
  obtain ⟨earlier, a, later, rfl, hfront, hrest⟩ :=
    flatten_eq_append_cons (fun a ha => (has a ha).notMem_tail (c := '&') (by decide)) h
  have ha : '&' :: a ∈ entities ++ tagPieces := by
    rcases (has ('&' :: a) (by simp)).singleton_or_mem with ⟨c, hc, hac⟩ | ha
    · obtain rfl := (List.cons.inj hac).1
      simp [markupCharacters] at hc
    · exact ha
  have hsame : e = a := by
    have hbegins : '&' :: e <+: '&' :: a ∨ '&' :: a <+: '&' :: e := by
      have hwhole : '&' :: e <+: '&' :: (e ++ rest) := ⟨rest, rfl⟩
      exact List.prefix_or_prefix_of_prefix hwhole ⟨later.flatten, congrArg ('&' :: ·) hrest⟩
    exact (List.cons.inj (hfree _ he _ ha hbegins)).2
  subst hsame
  exact ⟨earlier, later, rfl, hfront, List.append_cancel_left hrest⟩

theorem autolink_actsOnPieces :
    ActsOnPieces autolink (fun as => ∀ a ∈ as, IsPiece a) AddressStep where
  later as bs h a ha := h a (List.mem_append_right _ ha)
  quiet a as h c hc := by
    refine quiet_of_heads (fun before c s given n hrule => ?_) (h a List.mem_cons_self) hc
    obtain ⟨address, rest, hs, -⟩ := autolink_eq_some hrule
    rw [(List.cons.inj hs).1]
    decide
  takes before as given n has hrule := by
    obtain ⟨address, rest, hs, haddress, rfl, rfl⟩ := autolink_eq_some hrule
    obtain ⟨earlier, as, rfl, hearlier, h⟩ := exists_entity escapedOpen [] has (by decide) hs
    -- the rule is tried at the entity itself, so that nothing is before it
    obtain rfl : earlier = [] :=
      eq_nil_of_flatten_eq_nil (fun a ha => has a (List.mem_append_left _ ha)) hearlier
    obtain ⟨addresses, later, rfl, rfl, -⟩ :=
      exists_entity escapedClose _ (fun a ha => has a (by simp [ha])) (by decide) h
    have hscheme : chars "http" <+: addresses := by
      obtain ⟨more, hmore⟩ := haddress.scheme
      obtain ⟨behind, rfl, -⟩ := exists_after_chars "http" (fun a ha => has a (by simp [ha]))
        (by decide) hmore.symm
      exact List.prefix_append _ _
    have hunbroken : ∀ a ∈ addresses, ∀ c ∈ a, isBlankChar c = false :=
      fun a ha c hc => haddress.unbroken c (List.mem_flatten.2 ⟨a, ha, hc⟩)
    have hunclosed : escapedClose ∉ addresses := by
      intro hmem
      obtain ⟨front, back, rfl⟩ := List.append_of_mem hmem
      apply haddress.unclosed front.flatten back.flatten
      rw [List.flatten_append, List.flatten_cons]
      rfl
    refine ⟨[escapedOpen] ++ addresses ++ [escapedClose],
      [linkStart] ++ addresses ++ [attributeEnd] ++ addresses ++ [linkEnd], later, ?_, ?_, ?_, ?_,
      .intro hscheme hunbroken hunclosed⟩
    · simp
    · simp [escapedOpen]
    · simp [escapedOpen, escapedClose]
    · simp only [List.flatten_append, List.flatten_singleton]
      rfl

theorem mark_actsOnPieces {rule : Rule} {marks : List Text} {tag : Text}
    (hmarks : ∀ mark ∈ marks, mark ≠ [] ∧ ∀ c ∈ mark, c ∈ delimiters)
    (h : ∀ before s given n, rule before s = some (given, n) →
      ∃ mark ∈ marks, Enclosed mark tag s given n) :
    ActsOnPieces rule (fun as => ∀ a ∈ as, IsPiece a) (MarkStep marks tag) where
  later as bs h a ha := h a (List.mem_append_right _ ha)
  quiet a as has c hc := by
    refine quiet_of_heads (fun before c s given n hrule => ?_) (has a List.mem_cons_self) hc
    obtain ⟨mark, hmark, content, rest, hs, -⟩ := h _ _ _ _ hrule
    obtain ⟨d, mark, rfl⟩ := List.exists_cons_of_ne_nil (hmarks mark hmark).1
    rw [(List.cons.inj hs).1]
    exact List.mem_cons_of_mem _ (List.mem_cons_of_mem _ ((hmarks _ hmark).2 d (by simp)))
  takes before as given n has hrule := by
    obtain ⟨mark, hmark, content, rest, hs, rfl, rfl⟩ := h _ _ _ _ hrule
    obtain ⟨hne, hdelimiters⟩ := hmarks mark hmark
    obtain ⟨as, rfl, hinner⟩ := exists_after_chars mark has
      (fun c hc => notMem_longHeads (hdelimiters c hc)) hs
    obtain ⟨contents, later, rfl, rfl, -⟩ :=
      exists_around_delimiters mark (fun a ha => has a (by simp [ha])) hdelimiters hne hinner
    refine ⟨chars mark ++ contents ++ chars mark,
      ["<" ++ tag ++ ">"] ++ contents ++ ["</" ++ tag ++ ">"], later, ?_, ?_, ?_, ?_,
      .intro hmark⟩
    · simp
    · simp [hne]
    · simp
      omega
    · simp [element]

theorem strong_actsOnPieces :
    ActsOnPieces strong (fun as => ∀ a ∈ as, IsPiece a) StrongStep :=
  mark_actsOnPieces (by decide) fun _ _ _ _ => strong_eq_some

theorem emphasis_actsOnPieces :
    ActsOnPieces emphasis (fun as => ∀ a ∈ as, IsPiece a) EmphasisStep :=
  mark_actsOnPieces (by decide) fun _ _ _ _ => emphasis_eq_some

theorem isPiece_of_mem_tagPieces (h : a ∈ tagPieces) : IsPiece a := .inr h

theorem LinkStep.isPiece (h : LinkStep taken given) (htaken : ∀ a ∈ taken, IsPiece a) :
    ∀ a ∈ given, IsPiece a := by
  cases h with
  | @intro label shown target labelled trims prose =>
    intro a ha
    simp only [List.mem_append, List.mem_singleton] at ha
    rcases ha with (((rfl | ha) | rfl) | ha) | rfl
    · exact isPiece_of_mem_tagPieces (by decide)
    · exact (prose a ha).isPiece
    · exact isPiece_of_mem_tagPieces (by decide)
    · exact htaken a (by simp [trims.subset ha])
    · exact isPiece_of_mem_tagPieces (by decide)

theorem AddressStep.isPiece (h : AddressStep taken given) (htaken : ∀ a ∈ taken, IsPiece a) :
    ∀ a ∈ given, IsPiece a := by
  cases h with
  | @intro address scheme unbroken unclosed =>
    intro a ha
    simp only [List.mem_append, List.mem_singleton] at ha
    rcases ha with (((rfl | ha) | rfl) | ha) | rfl
    · exact isPiece_of_mem_tagPieces (by decide)
    · exact htaken a (by simp [ha])
    · exact isPiece_of_mem_tagPieces (by decide)
    · exact htaken a (by simp [ha])
    · exact isPiece_of_mem_tagPieces (by decide)

theorem MarkStep.isPiece {marks : List Text} {tag : Text} (h : MarkStep marks tag taken given)
    (htag : "<" ++ tag ++ ">" ∈ tagPieces ∧ "</" ++ tag ++ ">" ∈ tagPieces)
    (htaken : ∀ a ∈ taken, IsPiece a) : ∀ a ∈ given, IsPiece a := by
  cases h with
  | @intro mark content isMark =>
    intro a ha
    simp only [List.mem_append, List.mem_singleton] at ha
    rcases ha with (rfl | ha) | rfl
    · exact isPiece_of_mem_tagPieces htag.1
    · exact htaken a (by simp [ha])
    · exact isPiece_of_mem_tagPieces htag.2

/-- The five rewritings of a line of prose without code spans: images, links, addresses, strong text
and emphasis. -/
structure Formats (s : Text) (images links addresses strongs out : List Text) : Prop where
  image : Rewrites ImageStep (s.map escapeChar) images
  link : Rewrites LinkStep images links
  address : Rewrites AddressStep links addresses
  strong : Rewrites StrongStep addresses strongs
  emphasis : Rewrites EmphasisStep strongs out
  illustrated : Illustrated images
  isPiece : ∀ a ∈ out, IsPiece a

theorem exists_formats (s : Text) : ∃ images links addresses strongs out,
    Formats s images links addresses strongs out ∧ formatProse s = out.flatten := by
  have hprose : ∀ a ∈ s.map escapeChar, IsProse a := by
    intro a ha
    obtain ⟨c, -, rfl⟩ := List.mem_map.1 ha
    exact isProse_escapeChar c
  -- the rules in the order of the program, each on what the one before has left
  obtain ⟨images, himages, image⟩ :=
    image_actsOnPieces.exists_substituteFrom none fun a ha => (hprose a ha).isPiece
  have illustrated := illustrated_of_rewrites image hprose
  obtain ⟨links, hlinks, link⟩ :=
    link_actsOnPieces.exists_substituteFrom none ⟨[], illustrated⟩
  have linkPieces := link.forall (fun _ _ h => h.isPiece) illustrated.isPiece
  obtain ⟨addresses, haddresses, address⟩ :=
    autolink_actsOnPieces.exists_substituteFrom none linkPieces
  have addressPieces := address.forall (fun _ _ h => h.isPiece) linkPieces
  obtain ⟨strongs, hstrongs, strong⟩ :=
    strong_actsOnPieces.exists_substituteFrom none addressPieces
  have strongPieces := strong.forall (fun _ _ h => h.isPiece (by decide)) addressPieces
  obtain ⟨out, hout, emphasis⟩ :=
    emphasis_actsOnPieces.exists_substituteFrom none strongPieces
  refine ⟨images, links, addresses, strongs, out, ⟨image, link, address, strong, emphasis,
    illustrated, emphasis.forall (fun _ _ h => h.isPiece (by decide)) strongPieces⟩, ?_⟩
  have hescape : escape s = (s.map escapeChar).flatten := rfl
  simp only [formatProse, List.foldl_cons, List.foldl_nil, substitute, hescape, himages, hlinks,
    haddresses, hstrongs, hout]

end Literate.Markup
