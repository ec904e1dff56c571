import Literate.Proofs.Tangle.References
import Literate.Tangle.Unfolding

namespace Literate.Tangle

open Document (definitions)

/-- It is enough that two tables agree on a set of keys that no body of the set leads out of. -/
theorem unfold_congr {υ : Type} {t t' : Table υ} (reached : Text → Prop)
    (hclosed : ∀ k body k', reached k → t.lookup k = some body → Mentions body k' → reached k')
    (hagree : ∀ k, reached k → t.lookup k = t'.lookup k) {stack : List Text} {indent : Text}
    {ps : List (Part υ)} (hps : ∀ k, Mentions ps k → reached k) :
    unfold t stack indent ps = unfold t' stack indent ps := by
  -- the keys of later parts and of the body that is entered are reached too
  have rest {p : Part υ} {ps : List (Part υ)} (h : ∀ k, Mentions (p :: ps) k → reached k) :
      ∀ k, Mentions ps k → reached k := by
    rintro k ⟨target, i, hmem, hk⟩
    exact h k ⟨target, i, List.mem_cons_of_mem _ hmem, hk⟩
  have first {target : Name} {i : Text} {ps : List (Part υ)}
      (h : ∀ k, Mentions (.reference target i :: ps) k → reached k) : reached target.key :=
    h _ ⟨target, i, List.mem_cons_self, rfl⟩
  fun_induction unfold t stack indent ps with
  | case1 => simp
  | case2 stack indent s ps ih => rw [unfold_literal, ih (rest hps)]
  | case3 stack indent x ps => simp
  | case4 stack indent target i ps hs => rw [unfold_of_mem hs]
  | case5 stack indent target i ps hs hl ih =>
    have hl' : t'.lookup target.key = none := by rw [← hagree _ (first hps), hl]
    rw [unfold_of_undefined hs hl', ih (rest hps)]
  | case6 stack indent target i ps hs body hl ihbody ih =>
    have hl' : t'.lookup target.key = some body := by rw [← hagree _ (first hps), hl]
    rw [unfold_of_defined hs hl', ihbody fun k hk => hclosed _ _ k (first hps) hl hk,
      ih (rest hps)]

def Defined (chunks : List Chunk) (k : Text) : Prop := k ∈ keys (definitions chunks)

instance (chunks : List Chunk) (k : Text) : Decidable (Defined chunks k) :=
  inferInstanceAs (Decidable (k ∈ keys (definitions chunks)))

/-- The parts of all definitions of a key, in document order. -/
def wholeBody (chunks : List Chunk) (k : Text) : List Part :=
  bodies (group k (definitions chunks))

def Leads (chunks : List Chunk) (k k' : Text) : Prop := Mentions (wholeBody chunks k) k'

/-- The root leads to the key by references, whether or not the key is defined. -/
def Reached (asked : Text) (chunks : List Chunk) (k : Text) : Prop :=
  Relation.ReflTransGen (Leads chunks) (Text.trim asked) k

structure SameBody (A B : List Chunk) (k : Text) : Prop where
  defined : Defined A k ↔ Defined B k
  body : wholeBody A k = wholeBody B k

variable {A B : List Chunk} {asked k : Text}

theorem lookup_of_defined (h : Defined A k) :
    (table (collect (definitions A))).lookup k = some (wholeBody A k) := by
  rw [lookup_table]
  exact body?_collect_of_mem h

theorem lookup_of_notDefined (h : ¬Defined A k) :
    (table (collect (definitions A))).lookup k = none := by
  rw [lookup_table]
  exact body?_collect_of_notMem h

theorem wholeBody_of_lookup {body : List Part}
    (h : (table (collect (definitions A))).lookup k = some body) : wholeBody A k = body := by
  by_cases hk : Defined A k
  · rw [lookup_of_defined hk, Option.some.injEq] at h
    exact h
  · simp [lookup_of_notDefined hk] at h

theorem SameBody.lookup (h : SameBody A B k) :
    (table (collect (definitions A))).lookup k = (table (collect (definitions B))).lookup k := by
  by_cases hA : Defined A k
  · rw [lookup_of_defined hA, lookup_of_defined (h.defined.1 hA), h.body]
  · rw [lookup_of_notDefined hA, lookup_of_notDefined fun hB => hA (h.defined.2 hB)]

theorem unfoldRoot_of_defined (h : Defined A (Text.trim asked)) :
    unfoldRoot (collect (definitions A)) asked =
      unfold (table (collect (definitions A))) [Text.trim asked] []
        (wholeBody A (Text.trim asked)) := by
  rw [unfoldRoot, root?_of_lookup (lookup_of_defined h)]

theorem code_congr (hroot : Defined A (Text.trim asked))
    (h : ∀ k, Reached asked A k → SameBody A B k) : code A asked = code B asked := by
  have hself : SameBody A B (Text.trim asked) := h _ .refl
  have hunfold : unfoldRoot (collect (definitions A)) asked =
      unfoldRoot (collect (definitions B)) asked := by
    rw [unfoldRoot_of_defined hroot, unfoldRoot_of_defined (hself.defined.1 hroot), ← hself.body]
    refine unfold_congr (Reached asked A) ?_ (fun k hk => (h k hk).lookup)
      fun k hk => .single hk
    -- no body of a reached key leads out of the reached keys
    intro k body k' hk hl hm
    rw [← wholeBody_of_lookup hl] at hm
    exact hk.tail hm
  simp only [code, unfoldedText, hunfold]

/-- Changes of a document that leave alone what the root leads to: two neighbours change places
unless they define the same macro, a definition is continued by another one, a line of prose
comes in, or a definition that the root does not lead to. -/
inductive Edit (asked : Text) : List Chunk → List Chunk → Prop where
  | swap (front back : List Chunk) (c c' : Chunk)
      (distinct : ∀ d d', c = .definition d → c' = .definition d' → d.key ≠ d'.key) :
      Edit asked (front ++ c :: c' :: back) (front ++ c' :: c :: back)
  | split (front back : List Chunk) (d more : Definition) (ps : List Part)
      (same : more.key = d.key) :
      Edit asked (front ++ .definition (d.withParts (ps ++ more.parts)) :: back)
        (front ++ .definition (d.withParts ps) :: .definition more :: back)
  | prose (front back : List Chunk) (s : Text) :
      Edit asked (front ++ back) (front ++ .narrative s :: back)
  | aside (front back : List Chunk) (d : Definition)
      (unreached : ¬Reached asked (front ++ back) d.key) :
      Edit asked (front ++ back) (front ++ .definition d :: back)

theorem wholeBody_append : wholeBody (A ++ B) k = wholeBody A k ++ wholeBody B k := by
  simp [wholeBody, definitions, group_append, bodies_append]

theorem defined_append : Defined (A ++ B) k ↔ Defined A k ∨ Defined B k := by
  simp only [Defined, mem_keys, definitions, List.filterMap_append, List.mem_append, or_and_right,
    exists_or]

theorem SameBody.append {A' B' : List Chunk} (h : SameBody A B k) (h' : SameBody A' B' k) :
    SameBody (A ++ A') (B ++ B') k := by
  constructor
  · rw [defined_append, defined_append, h.defined, h'.defined]
  · rw [wholeBody_append, wholeBody_append, h.body, h'.body]

theorem SameBody.refl (A : List Chunk) (k : Text) : SameBody A A k := ⟨Iff.rfl, rfl⟩

theorem SameBody.between {A B : List Chunk} (h : SameBody A B k) (front back : List Chunk) :
    SameBody (front ++ (A ++ back)) (front ++ (B ++ back)) k :=
  (SameBody.refl front k).append (h.append (SameBody.refl back k))

theorem sameBody_swap {c c' : Chunk}
    (distinct : ∀ d d', c = .definition d → c' = .definition d' → d.key ≠ d'.key) :
    SameBody [c, c'] [c', c] k := by
  cases c with
  | foreign x => exact x.elim
  | narrative s => cases c' <;> exact ⟨Iff.rfl, rfl⟩
  | definition d =>
    cases c' with
    | foreign x => exact x.elim
    | narrative s => exact ⟨Iff.rfl, rfl⟩
    | definition d' =>
      have hne := distinct d d' rfl rfl
      constructor
      · simp only [Defined, mem_keys, definitions, List.filterMap_cons, Chunk.definition?,
          List.filterMap_nil, List.mem_cons, List.not_mem_nil, or_false]
        grind
      · by_cases hd : d.key = k
        · have hd' : d'.key ≠ k := fun h => hne (hd.trans h.symm)
          simp [wholeBody, definitions, Chunk.definition?, group, hd, hd']
        · by_cases hd' : d'.key = k <;>
            simp [wholeBody, definitions, Chunk.definition?, group, hd, hd']

theorem sameBody_split {d more : Definition} (ps : List Part) (same : more.key = d.key) :
    SameBody [.definition (d.withParts (ps ++ more.parts))]
      [.definition (d.withParts ps), .definition more] k := by
  constructor
  · simp [Defined, mem_keys, definitions, Chunk.definition?, same]
  · by_cases hd : d.key = k <;>
      simp [wholeBody, definitions, Chunk.definition?, group, bodies, same, hd]

theorem sameBody_aside {d : Definition} (h : d.key ≠ k) : SameBody [] [.definition d] k := by
  constructor
  · simp [Defined, mem_keys, definitions, Chunk.definition?, h]
  · simp [wholeBody, definitions, Chunk.definition?, group, h]

theorem Edit.sameBody (h : Edit asked A B) (hk : Reached asked A k) : SameBody A B k := by
  cases h with
  | swap front back c c' distinct => exact (sameBody_swap distinct).between front back
  | split front back d more ps same => exact (sameBody_split ps same).between front back
  | prose front back s =>
    have hprose : SameBody [] [.narrative s] k := ⟨Iff.rfl, rfl⟩
    exact hprose.between front back
  | aside front back d unreached =>
    have hne : d.key ≠ k := fun he => unreached (he ▸ hk)
    exact (sameBody_aside hne).between front back

theorem code_of_edits (h : Relation.EqvGen (Edit asked) A B) :
    (Defined A (Text.trim asked) ↔ Defined B (Text.trim asked)) ∧
      (Defined A (Text.trim asked) → code A asked = code B asked) := by
  induction h with
  | rel A B h =>
    exact ⟨(h.sameBody .refl).defined, fun hroot => code_congr hroot fun k hk => h.sameBody hk⟩
  | refl A => exact ⟨Iff.rfl, fun _ => rfl⟩
  | symm A B _ ih => exact ⟨ih.1.symm, fun hroot => (ih.2 (ih.1.2 hroot)).symm⟩
  | trans A B C _ _ ih ih' =>
    exact ⟨ih.1.trans ih'.1, fun hroot => (ih.2 hroot).trans (ih'.2 (ih.1.1 hroot))⟩

/-- Documents that give the same bodies to all that a defined root leads to have the same code, or
fail with the same cycle. So do documents that edits lead from one to the other, both ways. -/
theorem code_determined_by_reached (A B : List Chunk) (asked : Text)
    (hroot : Defined A (Text.trim asked)) :
    ((∀ k, Reached asked A k → SameBody A B k) → code A asked = code B asked) ∧
      (Relation.EqvGen (Edit asked) A B → code A asked = code B asked) :=
  ⟨code_congr hroot, fun h => (code_of_edits h).2 hroot⟩

theorem mem_of_reached {ks : List Text} (hroot : Text.trim asked ∈ ks)
    (hclosed : ∀ k ∈ ks, ∀ k' ∈ mentioned (wholeBody A k), k' ∈ ks) (h : Reached asked A k) :
    k ∈ ks := by
  induction h with
  | refl => exact hroot
  | tail _ step ih => exact hclosed _ ih _ (mem_mentioned.2 step)

def entry : Definition := .after 0 "*" [.literal "m\n", .to "a" " "]

def helper (parts : List Part) : Definition := .after 1 "a" parts

def unused : Definition := .after 2 "b" [.to "b" []]

def draft : List Chunk :=
  [.narrative "prose", .definition entry, .definition (helper [.literal "1\n", .literal "2\n"])]

def revision : List Chunk :=
  [.definition (helper [.literal "1\n"]), .definition entry,
    .definition (helper [.literal "2\n"]), .definition unused]

theorem draft_edits : Relation.EqvGen (Edit rootName) draft revision := by
  let parts : List Chunk := [.definition (helper [.literal "1\n"]), .definition entry,
    .definition (helper [.literal "2\n"])]
  have hprose : Edit rootName [.definition entry,
      .definition (helper [.literal "1\n", .literal "2\n"])] draft := .prose [] _ _
  have hsplit : Edit rootName
      [.definition entry, .definition (helper [.literal "1\n", .literal "2\n"])]
      [.definition entry, .definition (helper [.literal "1\n"]),
        .definition (helper [.literal "2\n"])] :=
    .split [.definition entry] [] (helper []) (helper [.literal "2\n"]) [.literal "1\n"] rfl
  have hswap : Edit rootName [.definition entry, .definition (helper [.literal "1\n"]),
      .definition (helper [.literal "2\n"])] parts := by
    refine .swap [] _ _ _ ?_
    rintro d d' ⟨⟩ ⟨⟩
    decide
  have haside : Edit rootName parts revision := by
    refine .aside parts [] unused fun h => ?_
    have hmem : unused.key ∈ [rootName, "a"] := mem_of_reached (by decide) (by decide) h
    exact absurd hmem (by decide)
  exact .trans _ _ _ (.symm _ _ (.rel _ _ hprose)) <|
    .trans _ _ _ (.rel _ _ hsplit) <| .trans _ _ _ (.rel _ _ hswap) (.rel _ _ haside)

theorem draft_sameBody (h : Reached rootName draft k) : SameBody draft revision k := by
  have hmem : k ∈ [rootName, "a"] := mem_of_reached (by decide) (by decide) h
  simp only [List.mem_cons, List.not_mem_nil, or_false] at hmem
  obtain rfl | rfl := hmem
  · exact ⟨iff_of_true (by decide) (by decide), by decide⟩
  · exact ⟨iff_of_true (by decide) (by decide), by decide⟩

theorem draft_code : Defined draft (Text.trim rootName) ∧
    (∀ k, Reached rootName draft k → SameBody draft revision k) ∧
    Relation.EqvGen (Edit rootName) draft revision ∧
    code draft rootName = code revision rootName := by
  have hroot : Defined draft (Text.trim rootName) := by decide
  have hsame : ∀ k, Reached rootName draft k → SameBody draft revision k :=
    fun k hk => draft_sameBody hk
  exact ⟨hroot, hsame, draft_edits,
    (code_determined_by_reached draft revision rootName hroot).1 hsame⟩

end Literate.Tangle
