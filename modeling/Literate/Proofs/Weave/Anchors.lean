import Literate.Proofs.Tangle.Locality
import Literate.Proofs.Text.Trim
import Literate.Weave.Page
import Mathlib.Data.List.Perm.Subperm

namespace Literate.Weave

open Tangle Document

variable {base name k a : Text} {anchors : Anchors} {taken ks : List Text}
  {filler : Text} {chunks : List Chunk}

theorem ofNat_injective : Function.Injective Text.ofNat := by
  intro m n h
  have hread := congrArg (Nat.ofDigitChars 10 · 0) h
  simpa only [Text.ofNat, Nat.ofDigitChars_ten_toDigits] using hread

theorem numbered_injective (base : Text) : Function.Injective (numbered base) := by
  intro m n h
  apply ofNat_injective
  exact (List.cons.inj (List.append_cancel_left h)).2

/-- Among more candidates than there are taken anchors, one is free. -/
theorem exists_free_candidate (taken : List Text) (base : Text) :
    ∃ i < taken.length + 1, numbered base (i + 2) ∉ taken := by
  by_contra hnone
  push Not at hnone
  have hnodup : ((List.range (taken.length + 1)).map fun i => numbered base (i + 2)).Nodup := by
    apply List.nodup_range.map
    intro i j hij
    have hsum := numbered_injective base hij
    omega
  have hsubset : ((List.range (taken.length + 1)).map fun i => numbered base (i + 2)) ⊆ taken := by
    intro b hb
    obtain ⟨i, hi, rfl⟩ := List.mem_map.1 hb
    exact hnone i (List.mem_range.1 hi)
  have hlength := (List.subperm_of_subset hnodup hsubset).length_le
  simp at hlength

theorem freeAnchor_of_free (h : base ∉ taken) : freeAnchor taken base = base := if_neg h

theorem freeAnchor_of_taken (h : base ∈ taken) : ∃ k, 2 ≤ k ∧
    freeAnchor taken base = numbered base k ∧ numbered base k ∉ taken ∧
      ∀ j, 2 ≤ j → j < k → numbered base j ∈ taken := by
  obtain ⟨i, hi, hfree⟩ := exists_free_candidate taken base
  have hfound : ((List.range (taken.length + 1)).find?
      fun i => decide (numbered base (i + 2) ∉ taken)).isSome :=
    List.find?_isSome.2 ⟨i, List.mem_range.2 hi, decide_eq_true hfree⟩
  obtain ⟨k, hk⟩ := Option.isSome_iff_exists.1 hfound
  obtain ⟨hkfree, -, hleast⟩ := List.find?_range_eq_some.1 hk
  refine ⟨k + 2, by omega, ?_, of_decide_eq_true hkfree, fun j hj hjk => ?_⟩
  · rw [freeAnchor, if_pos h]
    dsimp only
    rw [List.find?_map]
    exact congrArg (fun o => (Option.map _ o).getD base) hk
  · have hbefore := hleast (j - 2) (by omega)
    rw [Nat.sub_add_cancel hj] at hbefore
    simpa using hbefore

theorem freeAnchor_notMem (taken : List Text) (base : Text) : freeAnchor taken base ∉ taken := by
  by_cases h : base ∈ taken
  · obtain ⟨k, -, hk, hfree, -⟩ := freeAnchor_of_taken h
    exact hk ▸ hfree
  · rwa [freeAnchor_of_free h]

theorem freeAnchor_ne_nil (taken : List Text) (h : base ≠ []) : freeAnchor taken base ≠ [] := by
  by_cases htaken : base ∈ taken
  · obtain ⟨k, -, hk, -⟩ := freeAnchor_of_taken htaken
    rw [hk, numbered]
    simp
  · rwa [freeAnchor_of_free htaken]

theorem plainAnchor_ne_nil (filler : Text) (h : Text.isBlank name = false) :
    plainAnchor filler name ≠ [] := by
  rw [← Text.isBlank_trim, Text.isBlank, List.all_eq_false] at h
  obtain ⟨c, hc, hblank⟩ := h
  have hspace : c ≠ ' ' := by
    rintro rfl
    exact hblank (by decide)
  apply List.ne_nil_of_mem (a := c)
  exact List.mem_flatMap.2 ⟨c, hc, by simp [hspace]⟩

/-- Every name once, every anchor once, and no anchor empty. -/
structure Anchors.Distinct (anchors : Anchors) : Prop where
  names : anchors.names.Nodup
  taken : anchors.taken.Nodup
  nonempty : [] ∉ anchors.taken

theorem Anchors.Distinct.assign (h : anchors.Distinct) (hk : k ∉ anchors.names)
    (ha : a ∉ anchors.taken) (hne : a ≠ []) : Anchors.Distinct (anchors ++ [(k, a)]) where
  names := by
    rw [Anchors.names, List.map_append]
    exact h.names.append (List.nodup_singleton _) (by simpa using hk)
  taken := by
    rw [Anchors.taken, List.map_append]
    exact h.taken.append (List.nodup_singleton _) (by simpa using ha)
  nonempty := by
    rw [Anchors.taken, List.map_append, List.mem_append, not_or]
    exact ⟨h.nonempty, by simpa using hne.symm⟩

theorem anchorsFrom_distinct (h : anchors.Distinct) (hks : ∀ k ∈ ks, Text.isBlank k = false) :
    (anchorsFrom filler anchors ks).Distinct := by
  induction ks generalizing anchors with
  | nil => exact h
  | cons k ks ih =>
    obtain ⟨hk, hks⟩ := List.forall_mem_cons.1 hks
    rw [anchorsFrom]
    split
    · exact ih h hks
    · next hnew =>
      refine ih (h.assign hnew (freeAnchor_notMem _ _) ?_) hks
      exact freeAnchor_ne_nil _ (plainAnchor_ne_nil filler hk)

theorem mem_names_anchorsFrom : k ∈ (anchorsFrom filler anchors ks).names ↔
    k ∈ anchors.names ∨ k ∈ ks := by
  induction ks generalizing anchors with
  | nil => simp [anchorsFrom]
  | cons k' ks ih =>
    rw [anchorsFrom]
    split
    · next hold =>
      rw [ih, List.mem_cons]
      constructor
      · exact Or.imp_right .inr
      · rintro (h | rfl | h)
        · exact .inl h
        · exact .inl hold
        · exact .inr h
    · rw [ih, Anchors.names, List.map_append, List.mem_append, List.mem_cons]
      simp only [List.map_cons, List.map_nil, List.mem_singleton]
      exact or_assoc

theorem key_nonblank (n : Name) : Text.isBlank n.key = false := by
  rw [Name.key, Text.isBlank_trim]
  exact n.nonblank

theorem distinct_documentAnchors (filler : Text) (chunks : List Chunk) :
    (documentAnchors filler chunks).Distinct := by
  apply anchorsFrom_distinct
  · exact ⟨List.nodup_nil, List.nodup_nil, List.not_mem_nil⟩
  · intro k hk
    obtain ⟨d, -, rfl⟩ := List.mem_map.1 hk
    exact key_nonblank d.name

theorem mem_names_documentAnchors :
    k ∈ (documentAnchors filler chunks).names ↔ Defined chunks k := by
  rw [documentAnchors, mem_names_anchorsFrom, Defined, mem_keys, List.mem_map]
  simp [Anchors.names]

theorem anchorOf_key (n : Name) :
    anchorOf filler anchors n.key = anchorOf filler anchors n.text := by
  rw [anchorOf, anchorOf, Name.key, Text.trim_trim]

theorem anchorOf_mem {n : Name} (h : Defined chunks n.key) :
    (n.key, anchorOf filler (documentAnchors filler chunks) n.text) ∈
      documentAnchors filler chunks := by
  have hname : n.key ∈ (documentAnchors filler chunks).names := mem_names_documentAnchors.2 h
  obtain ⟨⟨k, a⟩, hmem, rfl⟩ := List.mem_map.1 hname
  cases hlookup : (documentAnchors filler chunks).lookup n.key with
  | none =>
    have hnone := List.lookup_eq_none_iff.1 hlookup _ hmem
    simp at hnone
  | some a' =>
    obtain ⟨front, back, hsplit, -⟩ := List.lookup_eq_some_iff.1 hlookup
    have hmem' : (n.key, a') ∈ documentAnchors filler chunks := by
      rw [hsplit]
      simp
    have hne : a' ≠ [] := by
      rintro rfl
      exact (distinct_documentAnchors filler chunks).nonempty (List.mem_map.2 ⟨_, hmem', rfl⟩)
    obtain ⟨c, s, rfl⟩ := List.exists_cons_of_ne_nil hne
    have hanchor : anchorOf filler (documentAnchors filler chunks) n.text = c :: s := by
      rw [anchorOf, ← Name.key, hlookup]
    rwa [hanchor]

theorem anchorOf_ne_nil {n : Name} (h : Defined chunks n.key) :
    anchorOf filler (documentAnchors filler chunks) n.text ≠ [] := by
  intro hnil
  have hmem : (n.key, anchorOf filler (documentAnchors filler chunks) n.text) ∈
      documentAnchors filler chunks := anchorOf_mem h
  rw [hnil] at hmem
  exact (distinct_documentAnchors filler chunks).nonempty (List.mem_map.2 ⟨_, hmem, rfl⟩)

theorem key_eq_of_anchorOf_eq {m n : Name} (hm : Defined chunks m.key) (hn : Defined chunks n.key)
    (h : anchorOf filler (documentAnchors filler chunks) m.text =
      anchorOf filler (documentAnchors filler chunks) n.text) : m.key = n.key := by
  have hsame := List.inj_on_of_nodup_map (distinct_documentAnchors filler chunks).taken
    (anchorOf_mem hm) (anchorOf_mem hn) h
  exact (Prod.mk.inj hsame).1

end Literate.Weave
