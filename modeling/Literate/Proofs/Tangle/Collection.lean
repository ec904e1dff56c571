import Literate.Proofs.Tangle.Conservation
import Literate.Tangle.Reporting

namespace Literate.Tangle

open scoped List
open Document (definitions)

variable {ks ls : List Text} {k : Text} {ds ds' out : List Definition} {d : Definition}
  {chunks xs ys : List Chunk}

theorem firsts_of_nodup (h : ks.Nodup) : firsts ks = ks := by
  induction ks with
  | nil => rfl
  | cons k ks ih =>
    obtain ⟨hk, hks⟩ := List.nodup_cons.1 h
    rw [firsts, ih hks, List.filter_eq_self.2]
    intro k' hk'
    exact decide_eq_true fun h => hk (h ▸ hk')

theorem firsts_firsts (ks : List Text) : firsts (firsts ks) = firsts ks :=
  firsts_of_nodup (nodup_firsts ks)

theorem firsts_append (ks ls : List Text) :
    firsts (ks ++ ls) = firsts ks ++ (firsts ls).filter (· ∉ ks) := by
  induction ks with
  | nil => simp [firsts]
  | cons k ks ih =>
    rw [List.cons_append, firsts, ih, List.filter_append, List.filter_filter, firsts,
      List.cons_append]
    congr 2
    refine List.filter_congr fun k' _ => ?_
    simp [List.mem_cons, not_or]

theorem firsts_firsts_append (ks ls : List Text) :
    firsts (firsts ks ++ ls) = firsts (ks ++ ls) := by
  rw [firsts_append, firsts_append, firsts_firsts]
  simp

theorem firsts_append_firsts (ks ls : List Text) :
    firsts (ks ++ firsts ls) = firsts (ks ++ ls) := by
  rw [firsts_append, firsts_append, firsts_firsts]

theorem pairwise_idxOf_firsts (ks : List Text) :
    (firsts ks).Pairwise fun k k' => ks.idxOf k < ks.idxOf k' := by
  induction ks with
  | nil => exact .nil
  | cons k ks ih =>
    have hlater : ∀ k' ∈ (firsts ks).filter (· ≠ k),
        (k :: ks).idxOf k' = ks.idxOf k' + 1 := by
      intro k' hk'
      have hne : k' ≠ k := by simpa using (List.mem_filter.1 hk').2
      exact List.idxOf_cons_ne ks hne.symm
    refine List.pairwise_cons.2 ⟨fun k' hk' => ?_, ?_⟩
    · rw [hlater k' hk', List.idxOf_cons_self]
      exact Nat.succ_pos _
    · refine (ih.filter _).imp_of_mem fun {a b} ha hb hab => ?_
      rw [hlater a ha, hlater b hb]
      exact Nat.succ_lt_succ hab

theorem combine_toList_append (g g' : List Definition) :
    combine ((combine g).toList ++ g') = combine (g ++ g') := by
  cases g with
  | nil => rfl
  | cons d more => simp [combine, bodies, Definition.withParts]

theorem combine_append_toList (g g' : List Definition) :
    combine (g ++ (combine g').toList) = combine (g ++ g') := by
  cases g' with
  | nil => rfl
  | cons d more =>
    cases g with
    | nil => simp [combine, bodies, Definition.withParts]
    | cons e es => simp [combine, bodies, Definition.withParts]

/-- Definitions with the same keys and the same groups, put together, are collected alike. -/
theorem collect_congr (hkeys : keys ds = keys ds')
    (hgroups : ∀ k, combine (group k ds) = combine (group k ds')) : collect ds = collect ds' := by
  rw [collect, collect, hkeys]
  exact List.filterMap_congr fun k _ => hgroups k

theorem collect_collect_append (ds ds' : List Definition) :
    collect (collect ds ++ ds') = collect (ds ++ ds') := by
  refine collect_congr ?_ fun k => ?_
  · rw [keys, List.map_append, map_key_collect, keys, firsts_firsts_append, keys, List.map_append]
  · rw [group_append, group_append, group_collect, combine_toList_append]

theorem collect_append_collect (ds ds' : List Definition) :
    collect (ds ++ collect ds') = collect (ds ++ ds') := by
  refine collect_congr ?_ fun k => ?_
  · rw [keys, List.map_append, map_key_collect, keys, firsts_append_firsts, keys, List.map_append]
  · rw [group_append, group_append, group_collect, combine_append_toList]

theorem collect_collect (ds : List Definition) : collect (collect ds) = collect ds := by
  have h := collect_collect_append ds []
  rwa [List.append_nil, List.append_nil] at h

/-- One definition for every key of a document, where the keys are in the order in which they occur
for the first time. It has the name and the position of the first definition of its key, and the
parts of all of them in order. -/
structure CollectedFrom (chunks : List Chunk) (out : List Definition) : Prop where
  distinct : (out.map Definition.key).Nodup
  covers : ∀ k, k ∈ out.map Definition.key ↔ k ∈ (definitions chunks).map Definition.key
  ordered : (out.map Definition.key).Pairwise fun k k' =>
    ((definitions chunks).map Definition.key).idxOf k <
      ((definitions chunks).map Definition.key).idxOf k'
  first : ∀ d ∈ out, ∃ front first back, definitions chunks = front ++ first :: back ∧
    (∀ e ∈ front, e.key ≠ d.key) ∧ first.key = d.key ∧ d.name = first.name ∧
    d.position = first.position
  parts : ∀ d ∈ out, d.parts =
    ((definitions chunks).filter fun e => e.key = d.key).flatMap Definition.parts

theorem exists_of_combine (h : combine (group k ds) = some d) :
    ∃ front first back, ds = front ++ first :: back ∧ (∀ e ∈ front, e.key ≠ k) ∧
      first.key = k ∧ d = first.withParts (bodies (group k ds)) := by
  induction ds with
  | nil => cases h
  | cons e ds ih =>
    by_cases he : e.key = k
    · have hgroup : group k (e :: ds) = e :: group k ds := by simp [group, he]
      rw [hgroup, combine, Option.some.injEq] at h
      exact ⟨[], e, ds, rfl, by simp, he, by rw [hgroup, h]⟩
    · have hgroup : group k (e :: ds) = group k ds := by simp [group, he]
      rw [hgroup] at h ⊢
      obtain ⟨front, first, back, rfl, hfront, hfirst, hd⟩ := ih h
      exact ⟨e :: front, first, back, rfl, List.forall_mem_cons.2 ⟨he, hfront⟩, hfirst, hd⟩

theorem combine_of_mem_collect (h : d ∈ collect ds) : combine (group d.key ds) = some d := by
  obtain ⟨k, -, hk⟩ := List.mem_filterMap.1 h
  rw [key_of_combine hk, hk]

theorem collectedFrom_collect (chunks : List Chunk) :
    CollectedFrom chunks (collect (definitions chunks)) where
  distinct := by
    rw [map_key_collect]
    exact nodup_firsts _
  covers k := by rw [map_key_collect, keys, mem_firsts]
  ordered := by
    rw [map_key_collect]
    exact pairwise_idxOf_firsts _
  first d hd := by
    obtain ⟨front, first, back, hsplit, hfront, hfirst, hd⟩ :=
      exists_of_combine (combine_of_mem_collect hd)
    exact ⟨front, first, back, hsplit, hfront, hfirst, by rw [hd]; rfl, by rw [hd]; rfl⟩
  parts d hd := by
    obtain ⟨_, _, _, -, -, -, hd⟩ := exists_of_combine (combine_of_mem_collect hd)
    exact congrArg Definition.parts hd

theorem CollectedFrom.combine_eq (h : CollectedFrom chunks out) (hd : d ∈ out) :
    combine (group d.key (definitions chunks)) = some d := by
  obtain ⟨front, first, back, hsplit, hfront, hfirst, hname, hposition⟩ := h.first d hd
  have hgroup : group d.key (definitions chunks) = first :: group d.key back := by
    have hnone : group d.key front = [] := by
      rw [group_eq_nil_iff, mem_keys]
      rintro ⟨e, he, hkey⟩
      exact hfront e he hkey
    rw [hsplit, group_append, hnone]
    simp [group, hfirst]
  have hparts : d.parts = bodies (group d.key (definitions chunks)) := h.parts d hd
  rw [hgroup] at hparts
  rw [hgroup, combine, ← hparts]
  cases d
  simp only at hname hposition
  rw [hname, hposition]
  rfl

theorem CollectedFrom.map_key_eq (h : CollectedFrom chunks out) :
    out.map Definition.key = keys (definitions chunks) := by
  have hnodup : (keys (definitions chunks)).Nodup := nodup_firsts _
  have hperm : (out.map Definition.key).Perm (keys (definitions chunks)) := by
    rw [List.perm_ext_iff_of_nodup h.distinct hnodup]
    intro k
    rw [h.covers, keys, mem_firsts]
  refine hperm.eq_of_pairwise ?_ h.ordered (pairwise_idxOf_firsts _)
  exact fun a b _ _ hab hba => absurd hab hba.asymm

theorem CollectedFrom.eq_collect (h : CollectedFrom chunks out) :
    out = collect (definitions chunks) := by
  calc out = out.filterMap fun d => combine (group d.key (definitions chunks)) := by
        rw [List.filterMap_congr fun d hd => h.combine_eq hd, List.filterMap_some]
    _ = collect (definitions chunks) := by
        rw [collect, ← h.map_key_eq, List.filterMap_map]
        rfl

theorem CollectedFrom.parts_perm (h : CollectedFrom chunks out) :
    (out.flatMap Definition.parts).Perm ((definitions chunks).flatMap Definition.parts) := by
  have hparts : out.flatMap Definition.parts =
      (keys (definitions chunks)).flatMap (wholeBody chunks) := by
    rw [← h.map_key_eq, List.flatMap_map]
    exact List.flatMap_congr h.parts
  rw [hparts]
  exact flatMap_wholeBody_perm chunks

/-- A document of nothing but the definitions that another one is collected to. -/
def collectedChunks (chunks : List Chunk) : List Chunk :=
  (collect (definitions chunks)).map .definition

theorem definitions_append {υ : Type} (xs ys : List (Chunk υ)) :
    definitions (xs ++ ys) = definitions xs ++ definitions ys :=
  List.filterMap_append

theorem definitions_collectedChunks (chunks : List Chunk) :
    definitions (collectedChunks chunks) = collect (definitions chunks) := by
  rw [definitions, collectedChunks, List.filterMap_map]
  exact List.filterMap_some

/-- Every document is collected to one definition for each key, and to nothing else; no part is lost
and none comes twice. Where the front or the back of a document has been collected before, the same
comes out, and what has been collected is not changed by collecting it again. -/
theorem collect_in_steps (xs ys : List Chunk) :
    (definitionsOf xs >>= collectTraced).result = .ok (collect (definitions xs)) ∧
    (∀ out, CollectedFrom xs out ↔ out = collect (definitions xs)) ∧
    ((collect (definitions xs)).flatMap Definition.parts).Perm
      ((definitions xs).flatMap Definition.parts) ∧
    collect (definitions (collectedChunks xs ++ ys)) = collect (definitions (xs ++ ys)) ∧
    collect (definitions (xs ++ collectedChunks ys)) = collect (definitions (xs ++ ys)) ∧
    collect (definitions (collectedChunks xs)) = collect (definitions xs) := by
  have hcollected := collectedFrom_collect xs
  refine ⟨?_, fun out => ⟨fun h => h.eq_collect, fun h => h ▸ hcollected⟩,
    hcollected.parts_perm, ?_, ?_, ?_⟩
  · rw [Traced.result_bind, result_definitionsOf]
    exact result_collectTraced _
  · rw [definitions_append, definitions_append, definitions_collectedChunks,
      collect_collect_append]
  · rw [definitions_append, definitions_append, definitions_collectedChunks,
      collect_append_collect]
  · rw [definitions_collectedChunks, collect_collect]

/-- Names are told apart by their keys, and an empty body counts as a definition. -/
example : collect [.after 0 " A " [.to "B" ""], .after 3 "B" [], .after 4 "A" [.literal "1\n"]] =
    [.after 0 " A " [.to "B" "", .literal "1\n"], .after 3 "B" []] := by
  decide

end Literate.Tangle
