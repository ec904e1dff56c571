import Literate.Document.Basic
import Literate.Tangle.Collection
import Mathlib

namespace Literate.Tangle

variable {υ : Type} {ds : List (Definition υ)} {k : Text}

@[simp] theorem key_withParts (d : Definition υ) (ps : List (Part υ)) :
    (d.withParts ps).key = d.key := rfl

@[simp] theorem parts_withParts (d : Definition υ) (ps : List (Part υ)) :
    (d.withParts ps).parts = ps := rfl

@[simp] theorem mem_firsts (ks : List Text) : k ∈ firsts ks ↔ k ∈ ks := by
  induction ks with
  | nil => simp [firsts]
  | cons k' ks ih =>
    by_cases h : k = k' <;> simp [firsts, ih, h]

theorem nodup_firsts (ks : List Text) : (firsts ks).Nodup := by
  induction ks with
  | nil => exact List.nodup_nil
  | cons k' ks ih => exact List.nodup_cons.2 ⟨by simp, ih.filter _⟩

theorem mem_keys : k ∈ keys ds ↔ ∃ d ∈ ds, d.key = k := by
  simp [keys]

@[simp] theorem mem_group {d : Definition υ} : d ∈ group k ds ↔ d ∈ ds ∧ d.key = k := by
  simp [group]

theorem group_eq_nil_iff : group k ds = [] ↔ k ∉ keys ds := by
  simp [group, mem_keys]

theorem group_append (ds ds' : List (Definition υ)) :
    group k (ds ++ ds') = group k ds ++ group k ds' := by
  simp [group]

theorem bodies_append (ds ds' : List (Definition υ)) :
    bodies (ds ++ ds') = bodies ds ++ bodies ds' := by
  simp [bodies]

theorem group_map_withParts (f : Definition υ → List (Part υ)) (ds : List (Definition υ)) :
    group k (ds.map fun d => d.withParts (f d)) =
      (group k ds).map fun d => d.withParts (f d) := by
  rw [group, List.filter_map]
  rfl

theorem key_of_combine {d : Definition υ} (h : combine (group k ds) = some d) : d.key = k := by
  cases hg : group k ds with
  | nil => simp [hg, combine] at h
  | cons e es =>
    have he : e ∈ group k ds := by simp [hg]
    rw [hg, combine, Option.some.injEq] at h
    rw [← h]
    exact (mem_group.1 he).2

theorem group_filterMap {f : Text → Option (Definition υ)} (hf : ∀ k d, f k = some d → d.key = k)
    {ks : List Text} (hks : ks.Nodup) :
    group k (ks.filterMap f) = if k ∈ ks then (f k).toList else [] := by
  induction ks with
  | nil => simp [group]
  | cons k' ks ih =>
    obtain ⟨hk', hks⟩ := List.nodup_cons.1 hks
    have hsplit : group k ((k' :: ks).filterMap f) =
        group k (f k').toList ++ group k (ks.filterMap f) := by
      rw [← group_append]
      cases hfk : f k' <;> simp [hfk]
    have hhead : group k (f k').toList = if k = k' then (f k').toList else [] := by
      cases hfk : f k' with
      | none => simp [group]
      | some d => by_cases h : k' = k <;> simp [group, hf k' d hfk, h, Ne.symm]
    rw [hsplit, hhead, ih hks]
    by_cases h : k = k'
    · subst h
      simp [hk']
    · simp [h]

theorem group_collect : group k (collect ds) = (combine (group k ds)).toList := by
  have hnd : (keys ds).Nodup := nodup_firsts _
  rw [collect, group_filterMap (fun k d h => key_of_combine h) hnd]
  split
  case isTrue => rfl
  case isFalse h => rw [group_eq_nil_iff.2 h]; rfl

theorem combine_of_mem (h : k ∈ keys ds) :
    ∃ d, combine (group k ds) = some d ∧ d.parts = bodies (group k ds) := by
  cases hg : group k ds with
  | nil => exact absurd h (group_eq_nil_iff.1 hg)
  | cons e es => exact ⟨_, rfl, rfl⟩

theorem map_key_collect (ds : List (Definition υ)) :
    (collect ds).map Definition.key = keys ds := by
  have hkey : ∀ k ∈ keys ds, (combine (group k ds)).map Definition.key = some k := by
    intro k hk
    obtain ⟨d, hd, -⟩ := combine_of_mem hk
    rw [hd, Option.map_some, key_of_combine hd]
  rw [collect, List.map_filterMap, List.filterMap_congr hkey, List.filterMap_some]

theorem lookup_filterMap {β : Type} (f : Text → Option β) (ks : List Text) :
    (ks.filterMap fun k => (f k).map (k, ·)).lookup k = if k ∈ ks then f k else none := by
  induction ks with
  | nil => rfl
  | cons k' ks ih =>
    by_cases h : k = k'
    · subst h
      cases hf : f k <;> simp [hf, ih]
    · have hb : (k == k') = false := by simpa using h
      cases hf : f k' <;> simp [hf, ih, h, hb, List.lookup_cons]

theorem lookup_table (ds : List (Definition υ)) (k : Text) :
    (table ds).lookup k = body? ds k := by
  rw [table, lookup_filterMap]
  split
  case isTrue => rfl
  case isFalse h => rw [body?, group_eq_nil_iff.2 h]; rfl

theorem isSome_lookup_table : ((table ds).lookup k).isSome ↔ k ∈ keys ds := by
  rw [lookup_table, body?, Option.isSome_map, Option.isSome_iff_ne_none, ne_eq,
    List.getLast?_eq_none_iff, group_eq_nil_iff, not_not]

theorem body?_collect_of_mem (h : k ∈ keys ds) :
    body? (collect ds) k = some (bodies (group k ds)) := by
  obtain ⟨d, hd, hp⟩ := combine_of_mem h
  rw [body?, group_collect, hd]
  simp [hp]

theorem body?_collect_of_notMem (h : k ∉ keys ds) : body? (collect ds) k = none := by
  rw [body?, group_collect, group_eq_nil_iff.2 h]
  rfl

theorem lookup_root {asked : Text} {r : Root υ} (h : root? ds asked = some r) :
    (table ds).lookup r.key = some r.parts := by
  unfold root? at h
  split at h
  case h_1 parts hl =>
    cases h
    exact hl
  case h_2 hl =>
    obtain ⟨d, hd, rfl⟩ := Option.map_eq_some_iff.1 h
    -- the last definition of all is also the last one of its key
    obtain ⟨front, rfl⟩ := List.getLast?_eq_some_iff.1 hd
    rw [lookup_table, body?, group_append]
    simp [group]

theorem roots_of_same_keys {ds' : List (Definition υ)} (asked : Text)
    (h : ds.map Definition.key = ds'.map Definition.key) :
    root? ds asked = none ∧ root? ds' asked = none ∨
      ∃ k ps ps', root? ds asked = some ⟨k, ps⟩ ∧ root? ds' asked = some ⟨k, ps'⟩ := by
  have hkeys : keys ds = keys ds' := by rw [keys, keys, h]
  have hfind : ((table ds).lookup (Text.trim asked)).isSome =
      ((table ds').lookup (Text.trim asked)).isSome := by
    rw [Bool.eq_iff_iff, isSome_lookup_table, isSome_lookup_table, hkeys]
  have hlast : ds.getLast?.map Definition.key = ds'.getLast?.map Definition.key := by
    rw [← List.getLast?_map, ← List.getLast?_map, h]
  unfold root?
  -- the asked key is found in both tables or in neither, and then the last keys agree
  cases hl : (table ds).lookup (Text.trim asked) with
  | some ps =>
    rw [hl, Option.isSome_some, eq_comm, Option.isSome_iff_exists] at hfind
    obtain ⟨ps', hl'⟩ := hfind
    exact .inr ⟨_, ps, ps', rfl, by rw [hl']⟩
  | none =>
    have hl' : (table ds').lookup (Text.trim asked) = none := by simpa [hl] using hfind
    rw [hl']
    cases hd : ds.getLast? with
    | none => exact .inl ⟨rfl, by simpa [hd] using hlast⟩
    | some d =>
      rw [hd, Option.map_some, eq_comm, Option.map_eq_some_iff] at hlast
      obtain ⟨d', hd', hkey⟩ := hlast
      exact .inr ⟨d.key, d.parts, d'.parts, rfl, by rw [hd', ← hkey]; rfl⟩

theorem root?_of_lookup {asked : Text} {parts : List (Part υ)}
    (h : (table ds).lookup (Text.trim asked) = some parts) :
    root? ds asked = some ⟨Text.trim asked, parts⟩ := by
  simp [root?, h]

end Literate.Tangle
