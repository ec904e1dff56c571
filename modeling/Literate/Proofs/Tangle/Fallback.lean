import Literate.Proofs.Tangle.Collection
import Literate.Proofs.Tangle.Provenance

namespace Literate.Tangle

open Document (definitions)

variable {υ : Type} {ds ds' : List (Definition υ)} {ks ls : List Text} {asked name k k' : Text}

theorem idxOf_le_of_getLast?_firsts (h : (firsts ks).getLast? = some k) (hk' : k' ∈ ks) :
    ks.idxOf k' ≤ ks.idxOf k := by
  obtain ⟨front, hfront⟩ := List.getLast?_eq_some_iff.1 h
  have hbefore : ∀ j ∈ front, ks.idxOf j < ks.idxOf k := by
    have hpairs := pairwise_idxOf_firsts ks
    rw [hfront] at hpairs
    exact fun j hj => (List.pairwise_append.1 hpairs).2.2 j hj k List.mem_cons_self
  have hmem : k' ∈ front ++ [k] := by rwa [← hfront, mem_firsts]
  obtain hj | hj := List.mem_append.1 hmem
  · exact (hbefore k' hj).le
  · rw [List.mem_singleton.1 hj]

theorem getLast?_firsts_eq_some_iff :
    (firsts ks).getLast? = some k ↔ k ∈ ks ∧ ∀ k' ∈ ks, ks.idxOf k' ≤ ks.idxOf k := by
  constructor
  · intro h
    have hk : k ∈ ks := (mem_firsts ks).1 (List.mem_of_getLast? h)
    exact ⟨hk, fun k' hk' => idxOf_le_of_getLast?_firsts h hk'⟩
  · rintro ⟨hk, hlatest⟩
    have hne : firsts ks ≠ [] := List.ne_nil_of_mem ((mem_firsts ks).2 hk)
    have hlast := List.getLast?_eq_some_getLast hne
    -- both are opened last, and no two keys are opened at one place
    have hmem : (firsts ks).getLast hne ∈ ks := (mem_firsts ks).1 (List.getLast_mem hne)
    have hsame : ks.idxOf k = ks.idxOf ((firsts ks).getLast hne) :=
      le_antisymm (idxOf_le_of_getLast?_firsts hlast hk) (hlatest _ hmem)
    rw [hlast, (List.idxOf_inj hk).1 hsame]

/-- The key whose first definition comes behind the first definitions of all others. -/
structure OpenedLast (ds : List (Definition υ)) (k : Text) : Prop where
  defined : k ∈ ds.map Definition.key
  latest : ∀ k' ∈ ds.map Definition.key,
    (ds.map Definition.key).idxOf k' ≤ (ds.map Definition.key).idxOf k

theorem openedLast_iff : OpenedLast ds k ↔ (keys ds).getLast? = some k := by
  rw [keys, getLast?_firsts_eq_some_iff]
  exact ⟨fun h => ⟨h.defined, h.latest⟩, fun h => ⟨h.1, h.2⟩⟩

theorem existsUnique_openedLast (h : ds ≠ []) : ∃! k, OpenedLast ds k := by
  have hkeys : keys ds ≠ [] := by
    obtain ⟨d, hd⟩ := List.exists_mem_of_ne_nil ds h
    exact List.ne_nil_of_mem (mem_keys.2 ⟨d, hd, rfl⟩)
  have hlast := List.getLast?_eq_some_getLast hkeys
  refine ⟨(keys ds).getLast hkeys, openedLast_iff.2 hlast, fun k hk => ?_⟩
  exact Option.some.inj ((openedLast_iff.1 hk).symm.trans hlast)

theorem openedLast_congr (h : keys ds = keys ds') : OpenedLast ds k ↔ OpenedLast ds' k := by
  rw [openedLast_iff, openedLast_iff, h]

theorem OpenedLast.trim (h : OpenedLast ds k) : Text.trim k = k := by
  obtain ⟨d, -, rfl⟩ := List.mem_map.1 h.defined
  exact Text.trim_trim d.name.text

def rootKey? (ds : List (Definition υ)) (asked : Text) : Option Text :=
  (root? ds asked).map Root.key

theorem rootKey?_eq (ds : List (Definition υ)) (asked : Text) :
    rootKey? ds asked =
      if Text.trim asked ∈ keys ds then some (Text.trim asked)
      else ds.getLast?.map Definition.key := by
  split
  case isTrue h =>
    obtain ⟨parts, hparts⟩ := Option.isSome_iff_exists.1 (isSome_lookup_table.2 h)
    rw [rootKey?, root?_of_lookup hparts, Option.map_some]
  case isFalse h =>
    have hnone : (table ds).lookup (Text.trim asked) = none := by
      rwa [← Option.not_isSome_iff_eq_none, isSome_lookup_table]
    rw [rootKey?, root?, hnone, Option.map_map]
    rfl

theorem rootKey?_collect (ds : List (Definition υ)) (asked : Text) :
    rootKey? (collect ds) asked =
      if Text.trim asked ∈ keys ds then some (Text.trim asked) else (keys ds).getLast? := by
  have hmem : Text.trim asked ∈ keys (collect ds) ↔ Text.trim asked ∈ keys ds := by
    rw [keys, mem_firsts, map_key_collect]
  rw [rootKey?_eq, ← List.getLast?_map, map_key_collect]
  simp only [hmem]

theorem rootKey?_collect_congr (h : keys ds = keys ds') (asked : Text) :
    rootKey? (collect ds) asked = rootKey? (collect ds') asked := by
  rw [rootKey?_collect, rootKey?_collect, h]

/-- The body of the root is the one that its key stands for, so the key is enough. -/
theorem root?_congr (h : rootKey? ds asked = rootKey? ds name) :
    root? ds asked = root? ds name := by
  unfold rootKey? at h
  cases hr : root? ds asked with
  | none =>
    rw [hr, Option.map_none, eq_comm, Option.map_eq_none_iff] at h
    exact h.symm
  | some r =>
    rw [hr, Option.map_some, eq_comm, Option.map_eq_some_iff] at h
    obtain ⟨r', hr', hkey⟩ := h
    have hparts : some r'.parts = some r.parts := by
      rw [← lookup_root hr', ← lookup_root hr, hkey]
    rw [hr']
    cases r
    cases r'
    cases hkey
    cases hparts
    rfl

theorem unfoldedText_congr (h : rootKey? ds asked = rootKey? ds name) :
    unfoldedText ds asked = unfoldedText ds name := by
  rw [unfoldedText, unfoldedText, unfoldRoot, unfoldRoot, root?_congr h]

theorem unfoldedText_of_openedLast (h : OpenedLast ds k) (hasked : Text.trim asked ∉ keys ds) :
    unfoldedText (collect ds) asked = unfoldedText (collect ds) k := by
  have hk : Text.trim k ∈ keys ds := by
    rw [h.trim, keys, mem_firsts]
    exact h.defined
  refine unfoldedText_congr ?_
  rw [rootKey?_collect, rootKey?_collect, if_neg hasked, if_pos hk, h.trim, openedLast_iff.1 h]

theorem exists_root (h : ds ≠ []) (asked : Text) :
    ∃ r, root? ds asked = some r ∧ (table ds).lookup r.key = some r.parts := by
  have hkey : (rootKey? ds asked).isSome := by
    rw [rootKey?_eq]
    split
    · rfl
    · rwa [Option.isSome_map, List.getLast?_isSome]
  rw [rootKey?, Option.isSome_map] at hkey
  obtain ⟨r, hr⟩ := Option.isSome_iff_exists.1 hkey
  exact ⟨r, hr, lookup_root hr⟩

theorem firsts_append_of_subset (h : ∀ k ∈ ls, k ∈ ks) : firsts (ks ++ ls) = firsts ks := by
  have hnone : (firsts ls).filter (· ∉ ks) = [] := by
    refine List.filter_eq_nil_iff.2 fun k hk => ?_
    simpa using h k ((mem_firsts ls).1 hk)
  rw [firsts_append, hnone, List.append_nil]

theorem keys_append_of_subset (h : ∀ d ∈ ds', d.key ∈ keys ds) : keys (ds ++ ds') = keys ds := by
  rw [keys, List.map_append, firsts_append_of_subset, keys]
  intro k hk
  obtain ⟨d, hd, rfl⟩ := List.mem_map.1 hk
  exact (mem_firsts _).1 (h d hd)

section

variable {chunks more : List Chunk}

/-- Nothing but prose and more definitions of macros that a document defines. -/
def Continues (chunks more : List Chunk) : Prop :=
  ∀ d ∈ definitions more, Defined chunks d.key

theorem Continues.keys_append (h : Continues chunks more) :
    keys (definitions (chunks ++ more)) = keys (definitions chunks) := by
  rw [definitions_append, keys_append_of_subset h]

theorem code_of_openedLast (h : OpenedLast (definitions chunks) k)
    (hasked : ¬Defined chunks (Text.trim asked)) : code chunks asked = code chunks k :=
  unfoldedText_of_openedLast h hasked

theorem locatedCode_of_openedLast (h : OpenedLast (definitions chunks) k)
    (hasked : ¬Defined chunks (Text.trim asked)) (extension token : Text) :
    locatedCode extension chunks asked token = locatedCode extension chunks k token := by
  have hkeys := keys_withLocations (lineComment extension token) (definitions chunks)
  refine unfoldedText_of_openedLast ((openedLast_congr hkeys).2 h) ?_
  rwa [hkeys]

/-- Where the macro asked for has no definition, the code is that of the macro whose first
definition comes last, with location lines or without. Continuations behind a document leave the
choice of the root as it was. Of any definitions, collected or not, the body of the root is the one
that its key stands for in the table. -/
theorem fallback_is_opened_last (chunks : List Chunk) :
    (definitions chunks ≠ [] → ∃! k, OpenedLast (definitions chunks) k) ∧
    (∀ asked k, ¬Defined chunks (Text.trim asked) → OpenedLast (definitions chunks) k →
      code chunks asked = code chunks k ∧ ∀ extension token,
        locatedCode extension chunks asked token = locatedCode extension chunks k token) ∧
    (∀ more, Continues chunks more → ∀ asked,
      rootKey? (collect (definitions (chunks ++ more))) asked =
        rootKey? (collect (definitions chunks)) asked ∧
      ∀ token, rootKey? (collect (withLocations token (definitions (chunks ++ more)))) asked =
        rootKey? (collect (withLocations token (definitions chunks))) asked) ∧
    ∀ (ds : List Definition) (asked : Text), ds ≠ [] →
      ∃ r, root? ds asked = some r ∧ (table ds).lookup r.key = some r.parts := by
  refine ⟨existsUnique_openedLast, fun asked k hasked hk => ?_, fun more hmore asked => ?_,
    fun ds asked hds => exists_root hds asked⟩
  · exact ⟨code_of_openedLast hk hasked, locatedCode_of_openedLast hk hasked⟩
  · refine ⟨rootKey?_collect_congr hmore.keys_append asked, fun token => ?_⟩
    refine rootKey?_collect_congr ?_ asked
    rw [keys_withLocations, keys_withLocations, hmore.keys_append]

def continuation : List Chunk :=
  [.narrative "more", .definition (.after 12 " a" [.to "main" ""])]

/-- The last definition of all is one of `a`, but `main` is opened last, also before one more of
`a`. Definitions that are not collected have the last one as their root. -/
theorem continued_fallback :
    (∃! k, OpenedLast (definitions continued) k) ∧
    OpenedLast (definitions continued) "main" ∧ ¬Defined continued (Text.trim rootName) ∧
    code continued rootName = .ok "  1\n  2\nm\n1\n2\n" ∧
    code continued "main" = .ok "  1\n  2\nm\n1\n2\n" ∧
    locatedCode " HS" continued rootName "//" = locatedCode " HS" continued "main" "//" ∧
    Continues continued continuation ∧
    rootKey? (collect (definitions (continued ++ continuation))) rootName = some "main" ∧
    root? (definitions continued) rootName = some ⟨"a", [.literal "2\n"]⟩ ∧
    (table (definitions continued)).lookup ("a" : Text) = some [.literal "2\n"] := by
  have hlast : OpenedLast (definitions continued) "main" := ⟨by decide, by decide⟩
  have hasked : ¬Defined continued (Text.trim rootName) := by decide
  have hcontinues : Continues continued continuation := by unfold Continues; decide
  obtain ⟨hunique, hsame, hkeys, hroots⟩ := fallback_is_opened_last continued
  obtain ⟨hcode, hlocated⟩ := hsame rootName "main" hasked hlast
  have hmain : code continued "main" = .ok "  1\n  2\nm\n1\n2\n" := by cbv
  have hkey : rootKey? (collect (definitions continued)) rootName = some "main" := by cbv
  have hroot : root? (definitions continued) rootName = some ⟨"a", [.literal "2\n"]⟩ := by cbv
  refine ⟨hunique (by decide), hlast, hasked, hcode.trans hmain, hmain, hlocated " HS" "//",
    hcontinues, (hkeys continuation hcontinues rootName).1.trans hkey, hroot, ?_⟩
  obtain ⟨r, hr, hparts⟩ := hroots (definitions continued) rootName (by decide)
  rw [hroot, Option.some.injEq] at hr
  rw [← hr] at hparts
  exact hparts

end

end Literate.Tangle
