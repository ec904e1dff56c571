import Literate.Markup.Inline
import Mathlib.Data.List.Basic

namespace Literate.Markup

variable {rule : Rule} {as bs : List Text}

theorem flatten_eq_append_cons {front rest : Text} {c : Char} (hc : ∀ a ∈ as, c ∉ a.tail)
    (h : as.flatten = front ++ c :: rest) : ∃ earlier a later,
      as = earlier ++ (c :: a) :: later ∧ earlier.flatten = front ∧ a ++ later.flatten = rest := by
  induction as generalizing front with
  | nil => simp at h
  | cons a as ih =>
    have has : ∀ b ∈ as, c ∉ b.tail := fun b hb => hc b (List.mem_cons_of_mem _ hb)
    have hskip : ∀ f, as.flatten = f ++ c :: rest → ∃ earlier b later,
        a :: as = earlier ++ (c :: b) :: later ∧ earlier.flatten = a ++ f ∧
          b ++ later.flatten = rest := by
      intro f hf
      obtain ⟨earlier, b, later, rfl, rfl, hrest⟩ := ih has hf
      exact ⟨a :: earlier, b, later, rfl, rfl, hrest⟩
    rw [List.flatten_cons, List.append_eq_append_iff] at h
    rcases h with ⟨f, rfl, hf⟩ | ⟨a', rfl, hf⟩
    · exact hskip f hf
    · cases a' with
      | nil =>
        have hself := hskip [] (by simpa using hf.symm)
        simpa using hself
      | cons d a' =>
        obtain ⟨rfl, rfl⟩ := List.cons.inj hf
        cases front with
        | nil => exact ⟨[], a', as, rfl, rfl, rfl⟩
        | cons e front =>
          -- the character would stand behind the head of this piece
          exact absurd (hc (e :: front ++ c :: a') List.mem_cons_self) (by simp)

theorem exists_substituteFrom_skip (rule : Rule) (before : Option Char) (taken s : Text) : ∃ now,
    substituteFrom rule before taken.length (taken ++ s) = substituteFrom rule now 0 s := by
  induction taken generalizing before with
  | nil => exact ⟨before, rfl⟩
  | cons c taken ih => simpa [substituteFrom] using ih (some c)

theorem exists_substituteFrom_quiet {piece : Text}
    (h : ∀ c ∈ piece, ∀ before s, rule before (c :: s) = none) (before : Option Char) (s : Text) :
    ∃ now, substituteFrom rule before 0 (piece ++ s) = piece ++ substituteFrom rule now 0 s := by
  induction piece generalizing before with
  | nil => exact ⟨before, rfl⟩
  | cons c piece ih =>
    obtain ⟨now, hnow⟩ := ih (fun d hd => h d (List.mem_cons_of_mem _ hd)) (some c)
    refine ⟨now, ?_⟩
    rw [List.cons_append, substituteFrom, if_neg (Nat.lt_irrefl 0), h c List.mem_cons_self]
    simpa using hnow

theorem exists_substituteFrom_fired {before : Option Char} {taken given s : Text}
    (htaken : taken ≠ []) (h : rule before (taken ++ s) = some (given, taken.length)) : ∃ now,
      substituteFrom rule before 0 (taken ++ s) = given ++ substituteFrom rule now 0 s := by
  obtain ⟨c, rest, rfl⟩ := List.exists_cons_of_ne_nil htaken
  obtain ⟨now, hnow⟩ := exists_substituteFrom_skip rule (some c) rest s
  refine ⟨now, ?_⟩
  rw [List.cons_append] at h ⊢
  rw [substituteFrom, if_neg (Nat.lt_irrefl 0), h]
  simpa using hnow

/-- From left to right, a piece is kept or some pieces give way to others by `R`. -/
inductive Rewrites (R : List Text → List Text → Prop) : List Text → List Text → Prop where
  | nil : Rewrites R [] []
  | keep {as bs : List Text} (a : Text) (later : Rewrites R as bs) : Rewrites R (a :: as) (a :: bs)
  | replace {as bs taken given : List Text} (here : R taken given) (later : Rewrites R as bs) :
      Rewrites R (taken ++ as) (given ++ bs)

/-- On the lists that `S` admits, the rule fires at the head of a piece only, and what it takes and
gives are pieces in the relation `R`. -/
structure ActsOnPieces (rule : Rule) (S : List Text → Prop) (R : List Text → List Text → Prop) :
    Prop where
  later : ∀ as bs, S (as ++ bs) → S bs
  quiet : ∀ a as, S (a :: as) → ∀ c ∈ a.tail, ∀ before s, rule before (c :: s) = none
  takes : ∀ before as given n, S as → rule before as.flatten = some (given, n) →
    ∃ taken gives rest, as = taken ++ rest ∧ taken.flatten ≠ [] ∧ taken.flatten.length = n ∧
      gives.flatten = given ∧ R taken gives

theorem ActsOnPieces.exists_substituteFrom {S : List Text → Prop}
    {R : List Text → List Text → Prop} (h : ActsOnPieces rule S R) (before : Option Char)
    (has : S as) : ∃ bs, substituteFrom rule before 0 as.flatten = bs.flatten ∧
      Rewrites R as bs := by
  -- what the rule takes may be any number of pieces
  induction hn : as.length using Nat.strongRecOn generalizing as before with
  | ind n ih =>
  cases as with
  | nil => exact ⟨[], rfl, .nil⟩
  | cons a as =>
    have hlater : S as := h.later [a] as has
    cases a with
    | nil =>
      obtain ⟨bs, hbs, hrewrites⟩ := ih as.length (by simp at hn; omega) before hlater rfl
      exact ⟨[] :: bs, hbs, .keep [] hrewrites⟩
    | cons c a =>
      cases hfire : rule before (((c :: a) :: as).flatten) with
      | none =>
        obtain ⟨now, hnow⟩ := exists_substituteFrom_quiet (h.quiet _ _ has) (some c) as.flatten
        obtain ⟨bs, hbs, hrewrites⟩ := ih as.length (by simp at hn; omega) now hlater rfl
        refine ⟨(c :: a) :: bs, ?_, .keep _ hrewrites⟩
        rw [List.flatten_cons, List.cons_append] at hfire ⊢
        rw [substituteFrom, if_neg (Nat.lt_irrefl 0), hfire, List.flatten_cons, ← hbs]
        exact congrArg (c :: ·) hnow
      | some r =>
        obtain ⟨taken, gives, rest, hsplit, hne, hlength, hgives, hR⟩ :=
          h.takes before _ r.1 r.2 has hfire
        have hrest : S rest := h.later taken rest (hsplit ▸ has)
        have hshorter : rest.length < n := by
          have htaken : taken ≠ [] := fun ht => hne (by rw [ht]; rfl)
          have hpos := List.length_pos_of_ne_nil htaken
          rw [← hn, hsplit, List.length_append]
          omega
        have hstep : rule before (taken.flatten ++ rest.flatten) =
            some (gives.flatten, taken.flatten.length) := by
          rw [← List.flatten_append, ← hsplit, hfire, hgives, hlength]
        obtain ⟨now, hnow⟩ := exists_substituteFrom_fired hne hstep
        obtain ⟨bs, hbs, hrewrites⟩ := ih rest.length hshorter now hrest rfl
        refine ⟨gives ++ bs, ?_, hsplit ▸ .replace hR hrewrites⟩
        rw [hsplit, List.flatten_append, hnow, hbs, List.flatten_append]

section Rewrites

variable {R : List Text → List Text → Prop} {a b : Text}

theorem Rewrites.cons_left (h : Rewrites R (a :: as) bs) :
    (∃ bs', bs = a :: bs' ∧ Rewrites R as bs') ∨ ∃ taken given as' bs', R taken given ∧
      a :: as = taken ++ as' ∧ bs = given ++ bs' ∧ Rewrites R as' bs' := by
  generalize hfrom : a :: as = from' at h
  cases h with
  | nil => cases hfrom
  | keep a' later =>
    obtain ⟨rfl, rfl⟩ := List.cons.inj hfrom
    exact .inl ⟨_, rfl, later⟩
  | replace here later => exact .inr ⟨_, _, _, _, here, rfl, rfl, later⟩

theorem Rewrites.cons_right (h : Rewrites R as (b :: bs))
    (hR : ∀ taken given, R taken given → ∃ c rest, given = c :: rest ∧ c ≠ b) :
    ∃ as', as = b :: as' ∧ Rewrites R as' bs := by
  generalize hto : b :: bs = to' at h
  cases h with
  | nil => cases hto
  | keep a later =>
    obtain ⟨rfl, rfl⟩ := List.cons.inj hto
    exact ⟨_, rfl, later⟩
  | replace here later =>
    obtain ⟨c, rest, rfl, hne⟩ := hR _ _ here
    exact absurd (List.cons.inj hto).1.symm hne

theorem Rewrites.append_left {quiet : List Text} (h : Rewrites R (quiet ++ as) bs)
    (hR : ∀ taken given, R taken given → ∃ c rest, taken = c :: rest ∧ c ∉ quiet) :
    ∃ bs', bs = quiet ++ bs' ∧ Rewrites R as bs' := by
  induction quiet generalizing bs with
  | nil => exact ⟨bs, rfl, h⟩
  | cons a quiet ih =>
    rcases h.cons_left with ⟨bs', rfl, hlater⟩ | ⟨taken, given, as', bs', hstep, hsplit, -⟩
    · have hR' : ∀ taken given, R taken given → ∃ c rest, taken = c :: rest ∧ c ∉ quiet := by
        intro taken given hstep
        obtain ⟨c, rest, rfl, hc⟩ := hR _ _ hstep
        exact ⟨c, rest, rfl, fun hmem => hc (List.mem_cons_of_mem _ hmem)⟩
      obtain ⟨bs'', rfl, hrest⟩ := ih hlater hR'
      exact ⟨bs'', rfl, hrest⟩
    · obtain ⟨c, rest, rfl, hc⟩ := hR _ _ hstep
      exact absurd (List.cons.inj hsplit).1.symm fun he => hc (he ▸ List.mem_cons_self)

theorem Rewrites.append_right {w : List Text} (h : Rewrites R as (w ++ bs))
    (hR : ∀ taken given, R taken given → ∃ c rest, given = c :: rest ∧ c ∉ w) :
    ∃ as', as = w ++ as' ∧ Rewrites R as' bs := by
  induction w generalizing as with
  | nil => exact ⟨as, rfl, h⟩
  | cons b w ih =>
    have hb : ∀ taken given, R taken given → ∃ c rest, given = c :: rest ∧ c ≠ b := by
      intro taken given hstep
      obtain ⟨c, rest, rfl, hc⟩ := hR _ _ hstep
      exact ⟨c, rest, rfl, fun he => hc (he ▸ List.mem_cons_self)⟩
    have hw : ∀ taken given, R taken given → ∃ c rest, given = c :: rest ∧ c ∉ w := by
      intro taken given hstep
      obtain ⟨c, rest, rfl, hc⟩ := hR _ _ hstep
      exact ⟨c, rest, rfl, fun hmem => hc (List.mem_cons_of_mem _ hmem)⟩
    obtain ⟨as', rfl, hlater⟩ := h.cons_right hb
    obtain ⟨as'', rfl, hrest⟩ := ih hlater hw
    exact ⟨as'', rfl, hrest⟩

end Rewrites

end Literate.Markup
