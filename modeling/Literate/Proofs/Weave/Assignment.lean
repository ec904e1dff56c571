import Literate.Proofs.Tangle.Collection
import Literate.Proofs.Weave.Anchors

namespace Literate.Weave

open Tangle Document

variable {υ : Type} {base a k filler : Text} {taken ks : List Text} {anchors anchors' : Anchors}
  {chunks : List (Chunk υ)}

/-- The base itself where it is free, and otherwise the base with the least number from two on with
which it is free. -/
def IsFreeAnchor (taken : List Text) (base a : Text) : Prop :=
  base ∉ taken ∧ a = base ∨
    base ∈ taken ∧ ∃ j, 2 ≤ j ∧ a = numbered base j ∧ numbered base j ∉ taken ∧
      ∀ i, 2 ≤ i → i < j → numbered base i ∈ taken

theorem isFreeAnchor_freeAnchor (taken : List Text) (base : Text) :
    IsFreeAnchor taken base (freeAnchor taken base) := by
  by_cases h : base ∈ taken
  · exact .inr ⟨h, freeAnchor_of_taken h⟩
  · exact .inl ⟨h, freeAnchor_of_free h⟩

theorem IsFreeAnchor.unique {b : Text} (ha : IsFreeAnchor taken base a)
    (hb : IsFreeAnchor taken base b) : a = b := by
  obtain ⟨hfree, rfl⟩ | ⟨htaken, j, hj, rfl, hjfree, hjleast⟩ := ha
  · obtain ⟨-, rfl⟩ | ⟨htaken, -⟩ := hb
    · rfl
    · exact absurd htaken hfree
  · obtain ⟨hfree, -⟩ | ⟨-, i, hi, rfl, hifree, hileast⟩ := hb
    · exact absurd htaken hfree
    · obtain hlt | rfl | hlt := Nat.lt_trichotomy i j
      · exact absurd (hjleast i hi hlt) hifree
      · rfl
      · exact absurd (hileast j hj hlt) hjfree

/-- Each name has the anchor that is free for it among those of the names before it. -/
def Anchors.Assigned (filler : Text) (anchors : Anchors) : Prop :=
  ∀ front k a back, anchors = front ++ (k, a) :: back →
    IsFreeAnchor (Anchors.taken front) (plainAnchor filler k) a

theorem Anchors.Assigned.concat (h : Anchors.Assigned filler anchors)
    (ha : IsFreeAnchor anchors.taken (plainAnchor filler k) a) :
    Anchors.Assigned filler (anchors ++ [(k, a)]) := by
  intro front k' a' back hsplit
  obtain rfl | ⟨back, p, rfl⟩ := List.eq_nil_or_concat back
  · obtain ⟨rfl, hlast⟩ := List.append_inj' hsplit rfl
    obtain ⟨rfl, rfl⟩ := Prod.mk.inj (List.cons.inj hlast).1
    exact ha
  · rw [List.concat_eq_append, ← List.cons_append, ← List.append_assoc] at hsplit
    exact h front k' a' back (List.append_inj' hsplit rfl).1

theorem Anchors.Assigned.of_append {more : Anchors}
    (h : Anchors.Assigned filler (anchors ++ more)) : Anchors.Assigned filler anchors := by
  intro front k a back hsplit
  exact h front k a (back ++ more) (by simp [hsplit])

theorem Anchors.Assigned.unique (h : Anchors.Assigned filler anchors)
    (h' : Anchors.Assigned filler anchors') (hnames : anchors.names = anchors'.names) :
    anchors = anchors' := by
  induction anchors using List.reverseRecOn generalizing anchors' with
  | nil => exact (List.map_eq_nil_iff.1 hnames.symm).symm
  | append_singleton front p ih =>
    obtain rfl | ⟨front', p', rfl⟩ := List.eq_nil_or_concat anchors'
    · simp [names] at hnames
    rw [List.concat_eq_append] at h' hnames ⊢
    rw [names, names, List.map_append, List.map_append] at hnames
    obtain ⟨hfront, hlast⟩ := List.append_inj' hnames rfl
    obtain rfl := ih h.of_append h'.of_append hfront
    have hkey : p.1 = p'.1 := (List.cons.inj hlast).1
    have hanchor : p.2 = p'.2 := by
      have hp := h front p.1 p.2 [] rfl
      rw [hkey] at hp
      exact hp.unique (h' front p'.1 p'.2 [] rfl)
    rw [Prod.ext hkey hanchor]

theorem assigned_anchorsFrom (h : Anchors.Assigned filler anchors) (ks : List Text) :
    Anchors.Assigned filler (anchorsFrom filler anchors ks) := by
  induction ks generalizing anchors with
  | nil => exact h
  | cons k ks ih =>
    rw [anchorsFrom]
    split
    · exact ih h
    · exact ih (h.concat (isFreeAnchor_freeAnchor _ _))

theorem Anchors.names_concat (anchors : Anchors) (k a : Text) :
    Anchors.names (anchors ++ [(k, a)]) = anchors.names ++ [k] :=
  List.map_append

theorem names_anchorsFrom (filler : Text) (anchors : Anchors) (ks : List Text) :
    (anchorsFrom filler anchors ks).names =
      anchors.names ++ (firsts ks).filter (· ∉ anchors.names) := by
  induction ks generalizing anchors with
  | nil => simp [anchorsFrom, firsts]
  | cons k ks ih =>
    rw [anchorsFrom]
    split
    · next hold =>
      rw [ih, firsts, List.filter_cons_of_neg (by simpa using hold), List.filter_filter]
      congr 1
      refine List.filter_congr fun k' _ => ?_
      by_cases h : k' = k <;> simp [h, hold]
    · next hnew =>
      rw [ih, Anchors.names_concat, firsts, List.filter_cons_of_pos (by simpa using hnew),
        List.filter_filter, List.append_assoc, List.singleton_append]
      congr 2
      exact List.filter_congr fun k' _ => by simp [not_or]

theorem names_documentAnchors (filler : Text) (chunks : List (Chunk υ)) :
    (documentAnchors filler chunks).names = keys (definitions chunks) := by
  rw [documentAnchors, names_anchorsFrom]
  simp [Anchors.names, keys]

theorem prefix_anchorsFrom (filler : Text) (anchors : Anchors) (ks : List Text) :
    anchors <+: anchorsFrom filler anchors ks := by
  induction ks generalizing anchors with
  | nil => exact List.prefix_rfl
  | cons k ks ih =>
    rw [anchorsFrom]
    split
    · exact ih anchors
    · exact (List.prefix_append _ _).trans (ih _)

theorem anchorsFrom_append (filler : Text) (anchors : Anchors) (ks ls : List Text) :
    anchorsFrom filler anchors (ks ++ ls) =
      anchorsFrom filler (anchorsFrom filler anchors ks) ls := by
  induction ks generalizing anchors with
  | nil => rfl
  | cons k ks ih =>
    rw [List.cons_append, anchorsFrom, anchorsFrom]
    split
    · exact ih anchors
    · exact ih _

/-- One anchor for every name that a document defines, in the order of the first definitions. No
anchor is empty or comes twice, and each is what the names before it leave free for its name. -/
structure AnchorsOf (filler : Text) (chunks : List (Chunk υ)) (anchors : Anchors) : Prop where
  names : anchors.names = keys (definitions chunks)
  distinct : anchors.taken.Nodup
  nonempty : [] ∉ anchors.taken
  assigned : anchors.Assigned filler

theorem anchorsOf_documentAnchors (filler : Text) (chunks : List (Chunk υ)) :
    AnchorsOf filler chunks (documentAnchors filler chunks) := by
  have hnone : Anchors.Distinct [] := ⟨List.nodup_nil, List.nodup_nil, List.not_mem_nil⟩
  have hdistinct : (documentAnchors filler chunks).Distinct := by
    refine anchorsFrom_distinct hnone fun k hk => ?_
    obtain ⟨d, -, rfl⟩ := List.mem_map.1 hk
    exact key_nonblank d.name
  have hassigned : Anchors.Assigned filler [] := by
    intro front k a back hsplit
    simp at hsplit
  exact ⟨names_documentAnchors filler chunks, hdistinct.taken, hdistinct.nonempty,
    assigned_anchorsFrom hassigned _⟩

theorem prefix_documentAnchors (filler : Text) (chunks more : List (Chunk υ)) :
    documentAnchors filler chunks <+: documentAnchors filler (chunks ++ more) := by
  rw [documentAnchors, documentAnchors, definitions_append, List.map_append, anchorsFrom_append]
  exact prefix_anchorsFrom _ _ _

/-- Restricted to the names of its front, a document has the anchors that its front has. -/
theorem filter_documentAnchors (filler : Text) (chunks more : List (Chunk υ)) :
    (documentAnchors filler (chunks ++ more)).filter (·.1 ∈ keys (definitions chunks)) =
      documentAnchors filler chunks := by
  obtain ⟨later, hlater⟩ := prefix_documentAnchors filler chunks more
  have hfront : ∀ p ∈ documentAnchors filler chunks, p.1 ∈ keys (definitions chunks) := by
    intro p hp
    rw [← names_documentAnchors filler chunks]
    exact List.mem_map_of_mem hp
  have hback : ∀ p ∈ later, p.1 ∉ keys (definitions chunks) := by
    have hnames : (documentAnchors filler (chunks ++ more)).names.Nodup := by
      rw [names_documentAnchors]
      exact nodup_firsts _
    rw [← hlater, Anchors.names, List.map_append, List.nodup_append] at hnames
    intro p hp hmem
    rw [← names_documentAnchors filler chunks] at hmem
    exact hnames.2.2 p.1 hmem p.1 (List.mem_map_of_mem hp) rfl
  rw [← hlater, List.filter_append, List.filter_eq_self.2 (by simpa using hfront),
    List.filter_eq_nil_iff.2 (by simpa using hback), List.append_nil]

/-- The anchors of a document are the only ones that its names in their order admit, and they stay
as they are when the document goes on. -/
theorem documentAnchors_in_order (filler : Text) (chunks more : List (Chunk υ)) :
    (∀ anchors, AnchorsOf filler chunks anchors ↔ anchors = documentAnchors filler chunks) ∧
    documentAnchors filler chunks <+: documentAnchors filler (chunks ++ more) ∧
    (documentAnchors filler (chunks ++ more)).filter (·.1 ∈ keys (definitions chunks)) =
      documentAnchors filler chunks := by
  have hanchors := anchorsOf_documentAnchors filler chunks
  refine ⟨fun anchors => ⟨fun h => ?_, fun h => h ▸ hanchors⟩,
    prefix_documentAnchors filler chunks more, filter_documentAnchors filler chunks more⟩
  exact h.assigned.unique hanchors.assigned (h.names.trans hanchors.names.symm)

/-- A name that looks like a numbered anchor can be taken before its turn. -/
example : (anchorsFrom "_" [] ["a b", "a_b", "a b-2", "a_b-2"]).taken =
    ["a_b", "a_b-2", "a_b-2-2", "a_b-2-3"] := by
  decide

end Literate.Weave
