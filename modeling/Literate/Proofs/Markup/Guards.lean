import Literate.Proofs.Markup.Steps
import Mathlib.Data.List.Infix

namespace Literate.Markup

open Text

variable {R : List Text → List Text → Prop} {as bs taken given w : List Text} {s : Text}
  {inside : Text → Bool} {a : Text}

def hazards : List Char := ['*', '_', '[', ']', '<']

/-- Wherever `opening` stands, there is no hazard behind it as far as `within` goes. -/
def Guarded (opening : Text) (within : Char → Bool) (s : Text) : Prop :=
  ∀ t ∈ s.tails, ∀ rest ∈ afterPrefix? opening t, ∀ c ∈ rest.takeWhile within, c ∉ hazards

instance (opening : Text) (within : Char → Bool) (s : Text) :
    Decidable (Guarded opening within s) := List.decidableBAll _ _

/-- No target of a link or an image, no description of an image and no address holds a hazard. -/
structure Calm (s : Text) : Prop where
  target : Guarded "](" (fun c => c != ')' && !isBlankChar c) s
  description : Guarded "![" (· != ']') s
  address : Guarded "<http" (· != '>') s

def hazardPieces : List Text := hazards.map escapeChar

def IsCalm (a : Text) : Prop := IsProse a ∧ a ∉ hazardPieces

/-- Wherever `w` stands, the pieces behind it are calm as far as `inside` goes. -/
def CalmBehind (w : List Text) (inside : Text → Bool) (as : List Text) : Prop :=
  ∀ front rest, as = front ++ (w ++ rest) → ∀ a ∈ rest.takeWhile inside, IsCalm a

theorem CalmBehind.of_append (h : CalmBehind w inside (as ++ bs)) : CalmBehind w inside bs := by
  rintro front rest rfl
  exact h (as ++ front) rest (List.append_assoc ..).symm

theorem escapeChar_injective : Function.Injective escapeChar := by
  intro c d h
  have happend : escapeChar c ++ [] = escapeChar d ++ [] := by rw [h]
  exact (escapeChar_append_inj happend).1

theorem mem_hazardPieces {c : Char} : escapeChar c ∈ hazardPieces ↔ c ∈ hazards :=
  List.mem_map_of_injective escapeChar_injective

theorem calmBehind_of_guarded {opening : Text} {within : Char → Bool}
    (hinside : ∀ c, inside (escapeChar c) = within c) (h : Guarded opening within s) :
    CalmBehind (opening.map escapeChar) inside (s.map escapeChar) := by
  intro front rest hsplit a ha
  obtain ⟨t, behind, rfl, rfl, hbehind⟩ := List.map_eq_append_iff.1 hsplit
  obtain ⟨o, r, rfl, ho, rfl⟩ := List.map_eq_append_iff.1 hbehind
  obtain rfl : o = opening := List.map_injective_iff.2 escapeChar_injective ho
  rw [List.takeWhile_map] at ha
  obtain ⟨c, hc, rfl⟩ := List.mem_map.1 ha
  have hwithin : r.takeWhile (inside ∘ escapeChar) = r.takeWhile within := by
    rw [show inside ∘ escapeChar = within from funext hinside]
  have hcalm : c ∉ hazards :=
    h (o ++ r) ((List.mem_tails _ _).2 (List.suffix_append _ _)) r (afterPrefix?_append o r) c
      (hwithin ▸ hc)
  exact ⟨isProse_escapeChar c, fun hmem => hcalm (mem_hazardPieces.1 hmem)⟩

def insideTarget (a : Text) : Bool := decide (∀ c ∈ a, c ≠ ')' ∧ isBlankChar c = false)

def insideDescription (a : Text) : Bool := a != [']']

def insideAddress (a : Text) : Bool := a != escapedClose

def addressStart : List Text := escapedOpen :: chars "http"

structure CalmPieces (as : List Text) : Prop where
  target : CalmBehind (chars "](") insideTarget as
  description : CalmBehind (chars "![") insideDescription as
  address : CalmBehind addressStart insideAddress as

theorem CalmPieces.of_append (h : CalmPieces (as ++ bs)) : CalmPieces bs :=
  ⟨h.target.of_append, h.description.of_append, h.address.of_append⟩

theorem Calm.pieces (h : Calm s) : CalmPieces (s.map escapeChar) where
  target := by
    refine calmBehind_of_guarded (fun c => ?_) h.target
    have hescapes : ∀ p ∈ escapes, insideTarget p.2 = (p.1 != ')' && !isBlankChar p.1) := by decide
    rcases escapeChar_cases c with hc | ⟨-, hc⟩
    · exact hescapes _ hc
    · rw [hc, Bool.eq_iff_iff]
      simp [insideTarget]
  description := by
    refine calmBehind_of_guarded (fun c => ?_) h.description
    have hescapes : ∀ p ∈ escapes, insideDescription p.2 = (p.1 != ']') := by decide
    rcases escapeChar_cases c with hc | ⟨-, hc⟩
    · exact hescapes _ hc
    · rw [hc, Bool.eq_iff_iff]
      simp [insideDescription]
  address := by
    refine calmBehind_of_guarded (fun c => ?_) h.address
    have hclose : escapedClose = escapeChar '>' := by decide
    rw [Bool.eq_iff_iff, insideAddress, hclose]
    simp [escapeChar_injective.eq_iff]

theorem Rewrites.takeWhile_eq (h : Rewrites R as bs)
    (hR : ∀ taken given, R taken given → ∀ later,
      ∃ a ∈ (taken ++ later).takeWhile inside, ¬ IsCalm a)
    (hcalm : ∀ a ∈ as.takeWhile inside, IsCalm a) : bs.takeWhile inside = as.takeWhile inside := by
  induction h with
  | nil => rfl
  | @keep as bs a later ih =>
    rw [List.takeWhile_cons] at hcalm ⊢
    rw [List.takeWhile_cons]
    split at hcalm
    · next hinside =>
      rw [if_pos hinside, if_pos hinside, ih (List.forall_mem_cons.1 hcalm).2]
    · next hinside => rw [if_neg hinside, if_neg hinside]
  | replace here later ih =>
    obtain ⟨a, ha, hnot⟩ := hR _ _ here _
    exact absurd (hcalm a ha) hnot

/-- If the steps do not hurt a guard where they give something, it holds of the result. What the
steps may rely on, `G`, holds of what is behind, too. -/
theorem CalmBehind.rewrites {G : List Text → Prop} (hG : ∀ as bs, G (as ++ bs) → G bs)
    (hcalm : ∀ as, G as → CalmBehind w inside as) (h : Rewrites R as bs) (has : G as)
    (hstart : ∀ taken given, R taken given → ∃ c rest, given = c :: rest ∧ c ∉ w)
    (hrun : ∀ taken given, R taken given → ∀ later,
      ∃ a ∈ (taken ++ later).takeWhile inside, ¬ IsCalm a)
    (hgiven : ∀ taken given as bs, R taken given → G (taken ++ as) →
      ∀ x c y rest, given = x ++ c :: y → c :: y ++ bs = w ++ rest →
        ∀ a ∈ rest.takeWhile inside, IsCalm a) :
    CalmBehind w inside bs := by
  induction h with
  | nil => exact hcalm [] has
  | @keep as bs a later ih =>
    intro front rest hsplit
    cases front with
    | nil =>
      have hwhole : Rewrites R (a :: as) (w ++ rest) := by
        rw [← List.nil_append (w ++ rest), ← hsplit]
        exact .keep a later
      -- a `w` that the rule has left was there before, as nothing that is given begins inside it
      obtain ⟨behind, hbehind, hrest⟩ := hwhole.append_right hstart
      have hbehindCalm := hcalm _ has [] behind hbehind
      rw [hrest.takeWhile_eq hrun hbehindCalm]
      exact hbehindCalm
    | cons b front => exact ih (hG [a] as has) front rest (List.cons.inj hsplit).2
  | @replace as bs taken given here later ih =>
    intro front rest hsplit
    -- `w` begins behind what is given or within it
    rcases List.append_eq_append_iff.1 hsplit with ⟨more, rfl, hmore⟩ | ⟨more, rfl, hmore⟩
    · exact ih (hG _ _ has) more rest hmore
    · cases more with
      | nil => exact ih (hG _ _ has) [] rest hmore.symm
      | cons c more => exact hgiven _ _ _ _ here has front c more rest rfl hmore.symm

theorem exists_hazard {front : List Text} (hinside : ∀ a ∈ front, inside a = true)
    (ha : a ∈ front) (hhazard : a ∈ hazardPieces) (later : List Text) :
    ∃ a ∈ (front ++ later).takeWhile inside, ¬ IsCalm a := by
  refine ⟨a, ?_, fun h => h.2 hhazard⟩
  rw [List.takeWhile_append_of_pos hinside]
  exact List.mem_append_left _ ha

theorem calm_of_inside {run later : List Text} (hinside : ∀ a ∈ run, inside a = true)
    (h : ∀ a ∈ (run ++ later).takeWhile inside, IsCalm a) : ∀ a ∈ run, IsCalm a := by
  rw [List.takeWhile_append_of_pos hinside] at h
  exact fun a ha => h a (List.mem_append_left _ ha)

theorem Labelled.insideTarget {label target : List Text} (h : Labelled label target) :
    ∀ a ∈ target, insideTarget a = true :=
  fun a ha => decide_eq_true (h.target a ha)

theorem ImageStep.calm {later : List Text} (h : ImageStep taken given)
    (hcalm : CalmPieces (taken ++ later)) : ∃ source shown,
      given = imageStart :: (source ++ altStart :: (shown ++ [attributeEnd])) ∧
        (∀ a ∈ source, IsCalm a) ∧ ∀ a ∈ shown, IsCalm a := by
  cases h with
  | @intro label shown target labelled trims =>
    have hinside : ∀ a ∈ label, insideDescription a = true :=
      fun a ha => bne_iff_ne.2 fun he => labelled.label (he ▸ ha)
    have hstart : chars "![" ++ label ++ chars "](" ++ target ++ chars ")" ++ later =
        [] ++ (chars "![" ++ (label ++ (chars "](" ++ target ++ chars ")" ++ later))) := by
      simp only [List.append_assoc, List.nil_append]
    have hlabel : ∀ a ∈ label, IsCalm a :=
      calm_of_inside hinside (hcalm.description _ _ hstart)
    have hbehind : chars "![" ++ label ++ chars "](" ++ target ++ chars ")" ++ later =
        (chars "![" ++ label) ++ (chars "](" ++ (target ++ (chars ")" ++ later))) := by
      simp only [List.append_assoc]
    have htarget : ∀ a ∈ target, IsCalm a :=
      calm_of_inside labelled.insideTarget (hcalm.target _ _ hbehind)
    refine ⟨target, shown, by simp, htarget, fun a ha => hlabel a (trims.subset ha)⟩

theorem ImageStep.exists_start (h : ImageStep taken given) :
    (∃ rest, taken = chars "![" ++ rest) ∧ ∃ rest, given = imageStart :: rest := by
  cases h with
  | @intro label shown target labelled trims =>
    constructor
    · exact ⟨label ++ chars "](" ++ target ++ chars ")", by simp only [List.append_assoc]⟩
    · exact ⟨target ++ [altStart] ++ shown ++ [attributeEnd], by simp⟩

theorem hazardPieces_prose (h : a ∈ hazardPieces) : IsProse a := by
  obtain ⟨c, -, rfl⟩ := List.mem_map.1 h
  exact isProse_escapeChar c

theorem tagPieces_notMem_hazardPieces (h : a ∈ tagPieces) : a ∉ hazardPieces :=
  (by decide : ∀ a ∈ tagPieces, a ∉ hazardPieces) a h

theorem image_calmBehind (h : Rewrites ImageStep as bs) (has : CalmPieces as)
    (hcalm : ∀ as, CalmPieces as → CalmBehind w inside as) (hinside : ∀ a ∈ chars "![", inside a)
    (hw : ∃ c rest, w = c :: rest ∧ c ∈ hazardPieces) (himage : imageStart ∉ w) :
    CalmBehind w inside bs := by
  apply CalmBehind.rewrites (fun _ _ => CalmPieces.of_append) hcalm h has
  · intro taken given hstep
    obtain ⟨-, rest, rfl⟩ := hstep.exists_start
    exact ⟨imageStart, rest, rfl, himage⟩
  · intro taken given hstep later
    obtain ⟨⟨rest, rfl⟩, -⟩ := hstep.exists_start
    rw [List.append_assoc]
    exact exists_hazard (a := ['[']) hinside (by decide) (by decide) _
  · intro taken given as bs hstep hpieces x c y rest hgiven hbegin
    obtain ⟨d, w, rfl, hd⟩ := hw
    obtain rfl : c = d := (List.cons.inj hbegin).1
    -- nothing that an image gives is a hazard
    obtain ⟨source, shown, rfl, hsource, hshown⟩ := hstep.calm hpieces
    have hmem : c ∈ imageStart :: (source ++ altStart :: (shown ++ [attributeEnd])) := by
      rw [hgiven]
      simp
    simp only [List.mem_cons, List.mem_append, List.not_mem_nil, or_false] at hmem
    rcases hmem with rfl | hmem | rfl | hmem | rfl
    · exact absurd hd (by decide)
    · exact absurd hd (hsource c hmem).2
    · exact absurd hd (by decide)
    · exact absurd hd (hshown c hmem).2
    · exact absurd hd (by decide)

theorem LinkStep.exists_start (h : LinkStep taken given) :
    (∃ rest, taken = chars "[" ++ rest) ∧ ∃ rest, given = linkStart :: rest := by
  cases h with
  | @intro label shown target labelled trims prose =>
    constructor
    · exact ⟨label ++ chars "](" ++ target ++ chars ")", by simp only [List.append_assoc]⟩
    · exact ⟨target ++ [attributeEnd] ++ shown ++ [linkEnd], by simp⟩

theorem takeWhile_append_of_exists (h : ∃ a ∈ as, inside a = false) (bs : List Text) :
    (as ++ bs).takeWhile inside = as.takeWhile inside := by
  induction as with
  | nil => simp at h
  | cons a as ih =>
    rw [List.cons_append, List.takeWhile_cons, List.takeWhile_cons]
    split
    · next hinside =>
      obtain ⟨b, hb, hnot⟩ := h
      have hne : b ≠ a := by
        rintro rfl
        simp [hinside] at hnot
      rw [ih ⟨b, List.mem_of_ne_of_mem hne hb, hnot⟩]
    · rfl

theorem exists_of_append_cons_eq_append {m : Text} {xs ys w rest : List Text}
    (h : xs ++ m :: ys = w ++ rest) (hm : m ∉ w) :
    ∃ more, xs = w ++ more ∧ rest = more ++ m :: ys := by
  rcases List.append_eq_append_iff.1 h with ⟨more, rfl, hmore⟩ | ⟨more, rfl, hmore⟩
  · cases more with
    | nil => exact ⟨[], by simp, hmore.symm⟩
    | cons c more =>
      obtain rfl : m = c := (List.cons.inj hmore).1
      simp at hm
  · exact ⟨more, rfl, hmore⟩

theorem address_calm_in_label {front shown back rest : List Text}
    (h : CalmBehind addressStart insideAddress
      (front ++ (addressStart ++ (shown ++ (back ++ [']'] :: rest)))))
    (hback : ∀ a ∈ back, insideAddress a = true) (later : List Text) :
    ∀ a ∈ (shown ++ later).takeWhile insideAddress, IsCalm a := by
  have hcalm := h front _ rfl
  have hends : ∃ a ∈ shown, insideAddress a = false := by
    by_contra hnone
    push Not at hnone
    have hinside : ∀ a ∈ shown ++ back ++ [[']']], insideAddress a = true := by
      intro a ha
      simp only [List.mem_append, List.mem_singleton] at ha
      rcases ha with (ha | ha) | rfl
      · exact Bool.of_not_eq_false (hnone a ha)
      · exact hback a ha
      · decide
    have hwhole : shown ++ (back ++ [']'] :: rest) = (shown ++ back ++ [[']']]) ++ rest := by simp
    obtain ⟨a, ha, hnot⟩ := exists_hazard (a := [']']) hinside (by simp) (by decide) rest
    exact hnot (hcalm a (hwhole ▸ ha))
  rw [takeWhile_append_of_exists hends] at hcalm ⊢
  exact hcalm

/-- The guards that the rewriting of links needs. -/
structure CalmLinks (as : List Text) : Prop where
  target : CalmBehind (chars "](") insideTarget as
  address : CalmBehind addressStart insideAddress as

theorem CalmLinks.of_append (h : CalmLinks (as ++ bs)) : CalmLinks bs :=
  ⟨h.target.of_append, h.address.of_append⟩

theorem image_calmLinks (h : Rewrites ImageStep as bs) (has : CalmPieces as) : CalmLinks bs where
  target := image_calmBehind h has (fun _ => CalmPieces.target) (by decide)
    ⟨[']'], [['(']], rfl, by decide⟩ (by decide)
  address := image_calmBehind h has (fun _ => CalmPieces.address) (by decide)
    ⟨escapedOpen, chars "http", rfl, by decide⟩ (by decide)

theorem LinkStep.calm {later : List Text} (h : LinkStep taken given)
    (hcalm : CalmLinks (taken ++ later)) : ∃ label target front shown back,
      taken = chars "[" ++ label ++ chars "](" ++ target ++ chars ")" ∧
      given = linkStart :: (target ++ attributeEnd :: (shown ++ [linkEnd])) ∧
      label = front ++ (shown ++ back) ∧
      (∀ a ∈ front ++ back, ∃ c, isBlankChar c = true ∧ a = [c]) ∧
      ∀ a ∈ target, IsCalm a := by
  cases h with
  | @intro label shown target labelled trims prose =>
    obtain ⟨front, back, hlabel, hblank⟩ := trims
    have hbehind : chars "[" ++ label ++ chars "](" ++ target ++ chars ")" ++ later =
        (chars "[" ++ label) ++ (chars "](" ++ (target ++ (chars ")" ++ later))) := by
      simp only [List.append_assoc]
    have htarget : ∀ a ∈ target, IsCalm a :=
      calm_of_inside labelled.insideTarget (hcalm.target _ _ hbehind)
    exact ⟨label, target, front, shown, back, rfl, by simp, hlabel, hblank, htarget⟩

theorem link_calmAddress (h : Rewrites LinkStep as bs) (has : CalmLinks as) :
    CalmBehind addressStart insideAddress bs := by
  apply CalmBehind.rewrites (fun _ _ => CalmLinks.of_append) (fun _ => CalmLinks.address) h has
  · intro taken given hstep
    obtain ⟨-, rest, rfl⟩ := hstep.exists_start
    exact ⟨linkStart, rest, rfl, by decide⟩
  · intro taken given hstep later
    obtain ⟨⟨rest, rfl⟩, -⟩ := hstep.exists_start
    rw [List.append_assoc]
    exact exists_hazard (a := ['[']) (by decide) (by decide) (by decide) _
  · intro taken given as bs hstep hcalm x c y rest hgiven hbegin
    obtain rfl : c = escapedOpen := (List.cons.inj hbegin).1
    obtain ⟨label, target, front, shown, back, rfl, rfl, rfl, hblank, htarget⟩ := hstep.calm hcalm
    -- the address begins in the label, as no other part of a link can begin one
    obtain ⟨before, more, rfl, rfl⟩ : ∃ before more, shown = before ++ escapedOpen :: more ∧
        y = more ++ [linkEnd] := by
      rcases exists_of_append_eq_append_cons [] hgiven (by decide) with
        ⟨x₁, -, h₁⟩ | ⟨more, hnil, -⟩
      · rcases exists_of_append_eq_append_cons _ h₁ (by decide) with
          ⟨x₂, -, h₂⟩ | ⟨more, rfl, -⟩
        · rcases exists_of_append_eq_append_cons _ h₂ (by decide) with
            ⟨x₃, -, h₃⟩ | ⟨more, hshown, hy⟩
          · simp at h₃
          · exact ⟨x₂, more, hshown, hy⟩
        · exact absurd (by decide) (htarget escapedOpen (by simp)).2
      · simp at hnil
    have hhttp : more ++ linkEnd :: bs = chars "http" ++ rest := by
      simpa using (List.cons.inj hbegin).2
    obtain ⟨shown, rfl, rfl⟩ := exists_of_append_cons_eq_append hhttp (by decide)
    have hsplit :
        chars "[" ++ (front ++ ((before ++ escapedOpen :: (chars "http" ++ shown)) ++ back)) ++
          chars "](" ++ target ++ chars ")" ++ as =
        (chars "[" ++ front ++ before) ++ (addressStart ++
          (shown ++ (back ++ [']'] :: ([['(']] ++ target ++ chars ")" ++ as)))) := by
      simp [addressStart, chars]
    refine address_calm_in_label (hsplit ▸ hcalm.address) (fun a ha => ?_) _
    obtain ⟨c, -, rfl⟩ := hblank a (List.mem_append_right _ ha)
    have hlength : [c].length ≠ escapedClose.length := by
      rw [List.length_singleton]
      decide
    exact bne_iff_ne.2 fun he => hlength (congrArg List.length he)

end Literate.Markup
