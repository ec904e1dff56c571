import Literate.Proofs.Weave.CrossLinks

namespace Literate.Weave

open Tangle Document Markup

variable {h : Highlighter} {base k a filler extension : Text} {ks : List Text}
  {anchors : Anchors} {chunks : List Chunk} {items : List Item}

theorem numbered_ne (base : Text) (j : Nat) : numbered base j ≠ base := by
  intro h
  have hlength := congrArg List.length h
  simp [numbered] at hlength

/-- Every name has its plain anchor or a number behind that one, which is then taken already. -/
structure Anchors.Based (filler : Text) (anchors : Anchors) : Prop where
  taken : ∀ p ∈ anchors, plainAnchor filler p.1 ∈ anchors.taken
  formed : ∀ p ∈ anchors, p.2 = plainAnchor filler p.1 ∨
    ∃ j, 2 ≤ j ∧ p.2 = numbered (plainAnchor filler p.1) j

theorem Anchors.Based.assign (h : Anchors.Based filler anchors) (k : Text) :
    Anchors.Based filler
      (anchors ++ [(k, freeAnchor anchors.taken (plainAnchor filler k))]) := by
  have htaken : Anchors.taken (anchors ++ [(k, freeAnchor anchors.taken (plainAnchor filler k))]) =
      anchors.taken ++ [freeAnchor anchors.taken (plainAnchor filler k)] := by
    simp [Anchors.taken]
  constructor
  · intro p hp
    rw [htaken, List.mem_append]
    obtain hp | hp := List.mem_append.1 hp
    · exact .inl (h.taken p hp)
    · obtain rfl := List.mem_singleton.1 hp
      by_cases hbase : plainAnchor filler k ∈ anchors.taken
      · exact .inl hbase
      · exact .inr (by simp [freeAnchor_of_free hbase])
  · intro p hp
    obtain hp | hp := List.mem_append.1 hp
    · exact h.formed p hp
    · obtain rfl := List.mem_singleton.1 hp
      by_cases hbase : plainAnchor filler k ∈ anchors.taken
      · obtain ⟨j, hj, hfree, -⟩ := freeAnchor_of_taken hbase
        exact .inr ⟨j, hj, hfree⟩
      · exact .inl (freeAnchor_of_free hbase)

theorem based_anchorsFrom (h : Anchors.Based filler anchors) (ks : List Text) :
    Anchors.Based filler (anchorsFrom filler anchors ks) := by
  induction ks generalizing anchors with
  | nil => exact h
  | cons k ks ih =>
    rw [anchorsFrom]
    split
    · exact ih h
    · exact ih (h.assign k)

theorem based_documentAnchors (filler : Text) (chunks : List Chunk) :
    Anchors.Based filler (documentAnchors filler chunks) :=
  based_anchorsFrom ⟨by simp, by simp⟩ _

theorem defined_of_mem (h : (k, a) ∈ documentAnchors filler chunks) : Defined chunks k :=
  mem_names_documentAnchors.1 (List.mem_map.2 ⟨_, h, rfl⟩)

/-- The anchors of a document are the plain ones of its macros, and numbered ones of macros whose
plain anchors went to others. -/
theorem mem_taken_documentAnchors : a ∈ (documentAnchors filler chunks).taken ↔
    (∃ k, Defined chunks k ∧ plainAnchor filler k = a) ∨
      ∃ k other j, (k, a) ∈ documentAnchors filler chunks ∧
        (other, plainAnchor filler k) ∈ documentAnchors filler chunks ∧ other ≠ k ∧
        2 ≤ j ∧ a = numbered (plainAnchor filler k) j := by
  obtain ⟨htaken, hformed⟩ := based_documentAnchors filler chunks
  constructor
  · intro h
    obtain ⟨⟨k, a⟩, hmem, rfl⟩ := List.mem_map.1 h
    obtain hplain | ⟨j, hj, hnumbered⟩ := hformed _ hmem
    · exact .inl ⟨k, defined_of_mem hmem, hplain.symm⟩
    · obtain ⟨⟨other, base⟩, hother, hbase⟩ := List.mem_map.1 (htaken _ hmem)
      obtain rfl : base = plainAnchor filler k := hbase
      refine .inr ⟨k, other, j, hmem, hother, ?_, hj, hnumbered⟩
      -- a name that had its plain anchor would have no other
      rintro rfl
      have hsame := List.inj_on_of_nodup_map (distinct_documentAnchors filler chunks).names
        hmem hother rfl
      exact numbered_ne _ j (hnumbered.symm.trans (Prod.mk.inj hsame).2)
  · rintro (⟨k, hk, rfl⟩ | ⟨k, -, -, hmem, -⟩)
    · obtain ⟨p, hp, rfl⟩ := List.mem_map.1 (mem_names_documentAnchors.2 hk)
      exact htaken p hp
    · exact List.mem_map.2 ⟨_, hmem, rfl⟩

theorem anchorOf_of_undefined {n : Name} (h : ¬Defined chunks n.key) :
    anchorOf filler (documentAnchors filler chunks) n.text = plainAnchor filler n.key := by
  have hlookup : (documentAnchors filler chunks).lookup n.key = none := by
    rw [List.lookup_eq_none_iff]
    intro p hp
    have hne : n.key ≠ p.1 := by
      rintro hkey
      exact h (hkey ▸ defined_of_mem (k := p.1) (a := p.2) hp)
    simpa using hne
  rw [anchorOf, ← Name.key, hlookup]

theorem exists_block_iff (hblocks : blocksOf items = shownBlocks h filler extension chunks) :
    (∃ b ∈ blocksOf items, b.key = k ∧ b.id = some a) ↔
      (k, a) ∈ documentAnchors filler chunks := by
  constructor
  · rintro ⟨b, hb, rfl, hid⟩
    rw [hblocks] at hb
    obtain ⟨⟨d, first⟩, hm, rfl⟩ := List.mem_map.1 hb
    cases first with
    | false => cases hid
    | true =>
      obtain rfl := Option.some.inj hid
      exact anchorOf_mem (defined_of_marked hm)
  · intro hmem
    obtain ⟨d, -, rfl⟩ := exists_firstMarked (defined_of_mem hmem)
    obtain ⟨b, hb, hkey, hid⟩ := exists_block_with_id hblocks (n := d.name) (defined_of_mem hmem)
    have hsame := List.inj_on_of_nodup_map (distinct_documentAnchors filler chunks).names
      hmem (anchorOf_mem (n := d.name) (defined_of_mem hmem)) rfl
    exact ⟨b, hb, hkey, hid.trans (congrArg some (Prod.mk.inj hsame).2.symm)⟩

theorem mem_ids_iff (hblocks : blocksOf items = shownBlocks h filler extension chunks) :
    a ∈ ids items ↔ a ∈ (documentAnchors filler chunks).taken := by
  constructor
  · intro hmem
    obtain ⟨b, hb, hid⟩ := List.mem_filterMap.1 hmem
    exact List.mem_map.2 ⟨_, (exists_block_iff hblocks).1 ⟨b, hb, rfl, hid⟩, rfl⟩
  · intro hmem
    obtain ⟨⟨k, a⟩, hp, rfl⟩ := List.mem_map.1 hmem
    obtain ⟨b, hb, -, hid⟩ := (exists_block_iff hblocks).2 hp
    exact List.mem_filterMap.2 ⟨b, hb, hid⟩

/-- The link of a name that is defined nowhere has the plain anchor of that name. It leads to the
block of another macro exactly if a defined macro has the same plain anchor, or if one whose plain
anchor went to yet another macro got it with a number behind its own. -/
theorem undefined_link_leads (h : Highlighter) (filler extension : Text) (chunks : List Chunk) :
    ∃ items,
    (bodyTraced h filler extension chunks).result = .ok (Text.joinLines (items.map Item.html)) ∧
    CrossLinked h extension chunks items ∧
    ∀ b ∈ blocksOf items, ∀ u ∈ b.uses, ¬Defined chunks u.2 →
      u.1 = plainAnchor filler u.2 ∧
      (escape u.1 ∈ (ids items).map escape ↔
        (∃ k, Defined chunks k ∧ plainAnchor filler k = u.1) ∨
        ∃ block ∈ blocksOf items, ∃ other ∈ blocksOf items, ∃ j,
          block.id = some u.1 ∧ other.id = some (plainAnchor filler block.key) ∧
          other.key ≠ block.key ∧ 2 ≤ j ∧ u.1 = numbered (plainAnchor filler block.key) j) := by
  obtain ⟨items, hitems, hprose, hblocks⟩ := exists_pageItems h filler extension chunks
  refine ⟨items, hitems, crossLinked_of_shown hprose hblocks, fun b hb u hu hundefined => ?_⟩
  obtain ⟨m, -, rfl⟩ := List.mem_map.1 (hblocks ▸ hb)
  obtain ⟨n, rfl⟩ := of_mem_uses hu
  refine ⟨anchorOf_of_undefined hundefined, ?_⟩
  rw [List.mem_map_of_injective escape_injective, mem_ids_iff hblocks, mem_taken_documentAnchors]
  -- the assigned anchors are those of the blocks with ids
  refine or_congr_right ⟨?_, ?_⟩
  · rintro ⟨k, other, j, hk, hother, hne, hj, hnumbered⟩
    obtain ⟨block, hblock, rfl, hid⟩ := (exists_block_iff hblocks).2 hk
    obtain ⟨otherBlock, hotherBlock, rfl, hotherId⟩ := (exists_block_iff hblocks).2 hother
    exact ⟨block, hblock, otherBlock, hotherBlock, j, hid, hotherId, hne, hj, hnumbered⟩
  · rintro ⟨block, hblock, otherBlock, hotherBlock, j, hid, hotherId, hne, hj, hnumbered⟩
    exact ⟨block.key, otherBlock.key, j, (exists_block_iff hblocks).1 ⟨block, hblock, rfl, hid⟩,
      (exists_block_iff hblocks).1 ⟨otherBlock, hotherBlock, rfl, hotherId⟩, hne, hj, hnumbered⟩

def misled : List Chunk := [.definition (.after 0 "a b" [.to "a_b" []])]

theorem undefined_link_leads_misled : ∃ items,
    (bodyTraced .passing defaultFiller ".py" misled).result =
      .ok (Text.joinLines (items.map Item.html)) ∧
    ∃ b ∈ blocksOf items, ∃ u ∈ b.uses,
      u = (("a_b" : Text), ("a_b" : Text)) ∧ ¬Defined misled u.2 ∧
      escape u.1 ∈ (ids items).map escape := by
  obtain ⟨items, hitems, hlinked, hleads⟩ :=
    undefined_link_leads .passing defaultFiller ".py" misled
  have hmarked : marked (definitions misled) = [(.after 0 "a b" [.to "a_b" []], true)] := by rfl
  have hshows := hlinked.shows
  rw [hmarked, List.forall₂_cons_left_iff] at hshows
  obtain ⟨b, rest, hshown, -, hblocks⟩ := hshows
  have hb : b ∈ blocksOf items := hblocks ▸ List.mem_cons_self
  -- the one block of the page uses `a_b`, which has no definition
  obtain ⟨⟨anchor, key⟩, hu, hkey⟩ : ∃ u ∈ b.uses, u.2 = "a_b" := by
    have hmem : ("a_b" : Text) ∈ b.uses.map (·.2) := by
      rw [hshown.uses]
      decide
    exact List.mem_map.1 hmem
  obtain rfl : key = "a_b" := hkey
  have hundefined : ¬Defined misled "a_b" := by decide
  obtain ⟨hplain, htaken⟩ := hleads b hb _ hu hundefined
  have hanchor : plainAnchor defaultFiller "a_b" = "a_b" := by decide
  obtain rfl : anchor = "a_b" := hplain.trans hanchor
  exact ⟨items, hitems, b, hb, _, hu, rfl, hundefined,
    htaken.2 (.inl ⟨"a b", by decide, by decide⟩)⟩

/-- The link of `a_b` leads to the block of `a b`. -/
theorem misled_link : ¬Defined misled "a_b" ∧
    (bodyTraced .bare defaultFiller ".txt" misled).result =
      .ok ("<div class=\"definition\" id=\"a_b\">\n" ++
        "<p class=\"macro-header\"><a href=\"#a_b\">&lt;&lt; a b &gt;&gt;=</a></p>\n" ++
        "<pre class=\"highlight\"><code>" ++
        "<a class=\"macro-ref\" href=\"#a_b\">&lt;&lt; a_b &gt;&gt;</a>\n" ++
        "</code></pre>\n</div>") := by
  refine ⟨by decide, (result_bodyTraced _ _ _ _).trans (congrArg Except.ok ?_)⟩
  decide +kernel

end Literate.Weave
