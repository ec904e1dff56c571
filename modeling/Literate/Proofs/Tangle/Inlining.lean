import Literate.Proofs.Tangle.References

namespace Literate.Tangle

variable {υ : Type} {t t' : Table υ} {ps : List (Part υ)}

namespace Unfolding

/-- Two unfoldings that end alike and say the same text. -/
structure Agree (u v : Unfolding υ) : Prop where
  stop : u.stop = v.stop
  text : u.text = v.text

variable {u v w : Unfolding υ} {next next' : Unit → Unfolding υ}

theorem Agree.refl (u : Unfolding υ) : Agree u u := ⟨rfl, rfl⟩

theorem Agree.trans (h : Agree u v) (h' : Agree v w) : Agree u w :=
  ⟨h.stop.trans h'.stop, h.text.trans h'.text⟩

theorem Agree.after {s s' : Step} (hs : s.text = s'.text) (h : Agree u v) :
    Agree (u.after s) (v.after s') :=
  ⟨h.stop, by rw [text_after, text_after, hs, h.text]⟩

theorem Agree.andThen (h : Agree u v) (hnext : Agree (next ()) (next' ())) :
    Agree (u.andThen next) (v.andThen next') := by
  cases hv : v.stop with
  | some o =>
    have hu : u.stop = some o := h.stop.trans hv
    have hu' : u.andThen next = u := by simp [Unfolding.andThen, hu]
    have hv' : v.andThen next' = v := by simp [Unfolding.andThen, hv]
    rw [hu', hv']
    exact h
  | none =>
    have hu : u.stop = none := h.stop.trans hv
    constructor
    · simp [Unfolding.andThen, hu, hv, hnext.stop]
    · rw [text_andThen hu, text_andThen hv, h.text, hnext.text]

end Unfolding

open Unfolding (Agree)

def Part.indented (i : Text) : Part υ → Part υ
  | .literal s => .literal (i ++ s)
  | .reference target j => .reference target (i ++ j)
  | .foreign x => .foreign x

/-- An indentation may be written into the body or be given to the unfolding. -/
theorem unfold_indented (stack : List Text) (indent i : Text) (ps : List (Part υ)) :
    Agree (unfold t stack indent (ps.map (Part.indented i)))
      (unfold t stack (indent ++ i) ps) := by
  induction ps with
  | nil => simpa using Agree.refl _
  | cons p ps ih =>
    rw [List.map_cons]
    cases p with
    | literal s =>
      rw [Part.indented, unfold_literal, unfold_literal]
      exact ih.after (List.append_assoc indent i s).symm
    | foreign x =>
      rw [Part.indented, unfold_foreign, unfold_foreign]
      exact .refl _
    -- both sides put one key on the stack, so that they stop together
    | reference target j =>
      rw [Part.indented]
      by_cases hs : target.key ∈ stack
      · rw [unfold_of_mem hs, unfold_of_mem hs]
        exact .refl _
      · cases hl : t.lookup target.key with
        | none =>
          rw [unfold_of_undefined hs hl, unfold_of_undefined hs hl]
          exact ih.after rfl
        | some body =>
          rw [unfold_of_defined hs hl, unfold_of_defined hs hl, List.append_assoc]
          exact (Agree.refl _).andThen ih

/-- What may stand for a reference: the indented body, or nothing where there is none. -/
def inlined (t : Table υ) (target : Name) (i : Text) : List (Part υ) :=
  ((t.lookup target.key).getD []).map (Part.indented i)

/-- The tables differ in the body of `k`, where the second one has no reference but what the
reference stands for. -/
structure InlinedAt (t t' : Table υ) (k : Text) (front : List (Part υ)) (target : Name) (i : Text)
    (rest : List (Part υ)) : Prop where
  before : t.lookup k = some (front ++ .reference target i :: rest)
  after : t'.lookup k = some (front ++ inlined t target i ++ rest)
  elsewhere : ∀ k', k' ≠ k → t'.lookup k' = t.lookup k'

/-- Under a stack of the first table, or one with fewer keys, the second table says the same. -/
def Follows (t t' : Table υ) (stack : List Text) : Prop :=
  ∀ stack' indent ps, stack' ⊆ stack → (unfold t stack indent ps).stop = none →
    Agree (unfold t' stack' indent ps) (unfold t stack indent ps)

section Inlined

variable {k : Text} {front rest : List (Part υ)} {target : Name} {i : Text}

theorem Follows.body {stack stack' : List Text} {indent : Text} (hstack : Follows t t' stack)
    (hpush : ∀ k', k' ∉ stack → (t.lookup k').isSome → Follows t t' (stack ++ [k']))
    (hsub : stack' ⊆ stack)
    (hclear : (unfold t stack indent (front ++ .reference target i :: rest)).stop = none) :
    Agree (unfold t' stack' indent (front ++ inlined t target i ++ rest))
      (unfold t stack indent (front ++ .reference target i :: rest)) := by
  have hsplit : front ++ .reference target i :: rest = front ++ [.reference target i] ++ rest := by
    simp
  rw [hsplit, unfold_append, unfold_append, Unfolding.stop_andThen_eq_none,
    Unfolding.stop_andThen_eq_none] at hclear
  obtain ⟨⟨hfront, hhere⟩, hrest⟩ := hclear
  rw [hsplit, unfold_append, unfold_append, unfold_append, unfold_append]
  -- only the part that is put in place differs; what is around it is followed by assumption
  have hinlined : Agree (unfold t' stack' indent (inlined t target i))
      (unfold t stack indent [.reference target i]) := by
    have hs : target.key ∉ stack := by
      intro hs
      simp [unfold_of_mem hs] at hhere
    cases hl : t.lookup target.key with
    | none =>
      rw [inlined, hl, unfold_of_undefined hs hl]
      exact ⟨by simp, by simp [Step.text]⟩
    | some body =>
      rw [unfold_of_defined hs hl, Unfolding.stop_andThen_eq_none] at hhere
      have hbody : Agree (unfold t' stack' (indent ++ i) body)
          (unfold t (stack ++ [target.key]) (indent ++ i) body) :=
        hpush _ hs (by simp [hl]) _ _ _ (List.subset_append_of_subset_left _ hsub) hhere.1
      have hend : Agree (unfold t (stack ++ [target.key]) (indent ++ i) body)
          (unfold t stack indent [.reference target i]) := by
        rw [unfold_of_defined hs hl]
        exact ⟨by simp [Unfolding.andThen, hhere.1], by simp [Unfolding.text_andThen hhere.1]⟩
      rw [inlined, hl]
      exact ((unfold_indented stack' indent i body).trans hbody).trans hend
  exact ((hstack _ _ _ hsub hfront).andThen hinlined).andThen (hstack _ _ _ hsub hrest)

theorem InlinedAt.follows (h : InlinedAt t t' k front target i rest) (stack : List Text) :
    Follows t t' stack := by
  -- a body is unfolded with one key less to put on the stack
  induction hn : (available t stack).length using Nat.strong_induction_on generalizing stack with
  | _ n ih =>
    have hpush {stack' : List Text} (hle : (available t stack').length ≤ n) (k' : Text)
        (hk : k' ∉ stack') (hl : (t.lookup k').isSome) : Follows t t' (stack' ++ [k']) := by
      obtain ⟨b, hb⟩ := Option.isSome_iff_exists.1 hl
      exact ih _ ((available_push_lt hk hb).trans_le hle) _ rfl
    intro stack' indent ps hsub hclear
    induction ps with
    | nil => simpa using Agree.refl _
    | cons p ps ihps =>
      cases p with
      | foreign x => simp at hclear
      | literal s =>
        rw [unfold_literal, unfold_literal]
        exact (ihps (by simpa using hclear)).after rfl
      | reference target' j =>
        have hs : target'.key ∉ stack := by
          intro hs
          simp [unfold_of_mem hs] at hclear
        have hs' : target'.key ∉ stack' := fun hmem => hs (hsub hmem)
        have hsub' : stack' ++ [target'.key] ⊆ stack ++ [target'.key] :=
          List.append_subset.2 ⟨List.subset_append_of_subset_left _ hsub,
            List.subset_append_right _ _⟩
        cases hl : t.lookup target'.key with
        | none =>
          have hne : target'.key ≠ k := by
            rintro rfl
            simp [h.before] at hl
          rw [unfold_of_undefined hs hl] at hclear ⊢
          rw [unfold_of_undefined hs' ((h.elsewhere _ hne).trans hl)]
          exact (ihps hclear).after rfl
        | some body =>
          rw [unfold_of_defined hs hl, Unfolding.stop_andThen_eq_none] at hclear
          obtain ⟨hbody, hps⟩ := hclear
          have hnext : Follows t t' (stack ++ [target'.key]) :=
            hpush hn.le _ hs (by simp [hl])
          rw [unfold_of_defined hs hl]
          by_cases hk : target'.key = k
          · have hbefore : body = front ++ .reference target i :: rest := by
              rw [hk, h.before, Option.some.injEq] at hl
              exact hl.symm
            have hafter : t'.lookup target'.key = some (front ++ inlined t target i ++ rest) := by
              rw [hk, h.after]
            have hle : (available t (stack ++ [target'.key])).length ≤ n :=
              (available_push_lt hs hl).le.trans hn.le
            rw [unfold_of_defined hs' hafter]
            rw [hbefore] at hbody ⊢
            exact (hnext.body (hpush hle) hsub' hbody).andThen (ihps hps)
          · rw [unfold_of_defined hs' ((h.elsewhere _ hk).trans hl)]
            exact (hnext _ _ _ hsub' hbody).andThen (ihps hps)

end Inlined

section Definitions

variable {ds above below : List (Definition υ)} {d : Definition υ} {k : Text}
  {front rest : List (Part υ)} {target : Name} {i : Text}

theorem lookup_of_ne (hk : d.key ≠ k) :
    (table (above ++ d :: below)).lookup k = (table (above ++ below)).lookup k := by
  have hgroup : group k (d :: below) = group k below :=
    List.filter_cons_of_neg (by simpa using hk)
  rw [lookup_table, lookup_table, body?, body?, group_append, group_append, hgroup]

theorem lookup_of_last (hk : d.key = k) (hbelow : k ∉ below.map Definition.key) :
    (table (above ++ d :: below)).lookup k = some d.parts := by
  have hnone : group k below = [] := by
    rw [group_eq_nil_iff, mem_keys]
    rintro ⟨e, he, hkey⟩
    exact hbelow (hkey ▸ List.mem_map_of_mem he)
  have hgroup : group k (d :: below) = [d] := by
    rw [← hnone]
    exact List.filter_cons_of_pos (by simpa using hk)
  rw [lookup_table, body?, group_append, hgroup, List.getLast?_concat]
  rfl

theorem inlinedAt_of_unique (hds : ds = above ++ d :: below)
    (hunique : (ds.map Definition.key).Nodup)
    (hparts : d.parts = front ++ .reference target i :: rest) :
    InlinedAt (table ds)
      (table (above ++ d.withParts (front ++ inlined (table ds) target i ++ rest) :: below))
      d.key front target i rest := by
  have hbelow : d.key ∉ below.map Definition.key := by
    rw [hds, List.map_append, List.map_cons] at hunique
    exact (List.nodup_cons.1 hunique.of_append_right).1
  refine ⟨?_, lookup_of_last rfl hbelow, fun k' hk' => ?_⟩
  · rw [hds, lookup_of_last rfl hbelow, hparts]
  · have hedited : (d.withParts (front ++ inlined (table ds) target i ++ rest)).key ≠ k' :=
      hk'.symm
    rw [lookup_of_ne hedited, hds, lookup_of_ne hk'.symm]

theorem InlinedAt.agree_root {ds' : List (Definition υ)} {asked : Text}
    (hat : InlinedAt (table ds) (table ds') k front target i rest)
    (hkeys : ds.map Definition.key = ds'.map Definition.key)
    (hclear : (unfoldRoot ds asked).stop = none) :
    Agree (unfoldRoot ds' asked) (unfoldRoot ds asked) := by
  obtain ⟨hr, hr'⟩ | ⟨root, ps, ps', hr, hr'⟩ := roots_of_same_keys asked hkeys
  · rw [unfoldRoot_of_noRoot hr, unfoldRoot_of_noRoot hr']
    exact .refl _
  · rw [unfoldRoot_of_root? hr] at hclear ⊢
    rw [unfoldRoot_of_root? hr']
    have hl : (table ds).lookup root = some ps := lookup_root hr
    have hl' : (table ds').lookup root = some ps' := lookup_root hr'
    by_cases hk : root = k
    · -- the root itself is edited
      rw [hk, hat.before, Option.some.injEq] at hl
      rw [hk, hat.after, Option.some.injEq] at hl'
      subst hl hl'
      exact (hat.follows _).body (fun _ _ _ => hat.follows _) (List.Subset.refl _) hclear
    · rw [hat.elsewhere _ hk, hl, Option.some.injEq] at hl'
      subst hl'
      exact hat.follows _ _ _ _ (List.Subset.refl _) hclear

end Definitions

/-- What a reference stands for may be written in its place, in any body of a list of definitions
with different names: a root that has code keeps it. -/
theorem unfoldedText_inline (ds above below : List Definition) (d : Definition)
    (front rest : List Part) (target : Name) (i asked text : Text)
    (hunique : (ds.map Definition.key).Nodup) (hds : ds = above ++ d :: below)
    (hparts : d.parts = front ++ .reference target i :: rest)
    (hok : unfoldedText ds asked = .ok text) :
    unfoldedText
      (above ++ d.withParts (front ++ inlined (table ds) target i ++ rest) :: below) asked =
        .ok text := by
  obtain ⟨hclear, htext⟩ := unfoldedText_eq_ok_iff.1 hok
  have hkeys : ds.map Definition.key =
      (above ++ d.withParts (front ++ inlined (table ds) target i ++ rest) :: below).map
        Definition.key := by
    simp [hds]
  have hagree := (inlinedAt_of_unique hds hunique hparts).agree_root hkeys hclear
  exact unfoldedText_eq_ok_iff.2 ⟨hagree.stop.trans hclear, hagree.text.trans htext⟩

def leaves : List Definition :=
  [.after 0 "a" [.literal "1\n", .to "b" "  ", .to "none" []], .after 1 "b" [.literal "2\n"]]

def top (parts : List Part) : Definition := .after 2 " * " parts

def twice : List Definition := leaves ++ [top [.literal "m\n", .to " a " "\t", .to "a" " "]]

def once : List Definition :=
  leaves ++ [top [.literal "m\n", .literal "\t1\n", .to "b" "\t  ", .to "none" "\t", .to "a" " "]]

theorem twice_inline : (twice.map Definition.key).Nodup ∧
    unfoldedText twice rootName = .ok "m\n\t1\n\t  2\n 1\n   2\n" ∧
    unfoldedText once rootName = .ok "m\n\t1\n\t  2\n 1\n   2\n" := by
  have hunique : (twice.map Definition.key).Nodup := by decide
  have hds : twice = leaves ++ top [.literal "m\n", .to " a " "\t", .to "a" " "] :: [] := rfl
  have hok : unfoldedText twice rootName = .ok "m\n\t1\n\t  2\n 1\n   2\n" := by cbv
  have hbody : inlined (table twice) (.orRoot " a ") "\t" =
      [.literal "\t1\n", .to "b" "\t  ", .to "none" "\t"] := by decide
  have honce := unfoldedText_inline twice leaves [] _ [.literal "m\n"] [.to "a" " "]
    (.orRoot " a ") "\t" rootName _ hunique hds rfl hok
  rw [hbody] at honce
  exact ⟨hunique, hok, honce⟩

end Literate.Tangle
