import Literate.Proofs.Document.Grammar
import Literate.Proofs.Tangle.Locality

namespace Literate.Tangle

open Document (definitions header? isEnd reference? bodyPart parse readLines sourceLines Pending
  exists_readStep BodyLine Spells)

variable {file : FileName} {passed : Nat} {ls : List Text} {chunks : List Chunk} {asked : Text}

/-- The lines that bodies take over as they are; `inside` tells whether a definition is open. -/
def literalLines (inside : Bool) : List Text → List Text
  | [] => []
  | line :: rest =>
    if (header? line).isSome then literalLines true rest
    else if isEnd line then literalLines false rest
    else if inside && (reference? line).isNone then line :: literalLines inside rest
    else literalLines inside rest

theorem literalLines_subset (inside : Bool) (ls : List Text) : literalLines inside ls ⊆ ls := by
  fun_induction literalLines inside ls <;> grind

def literalTexts (ps : List Part) : List Text :=
  ps.filterMap fun
    | .literal s => some s
    | _ => none

theorem literalTexts_append (ps qs : List Part) :
    literalTexts (ps ++ qs) = literalTexts ps ++ literalTexts qs := List.filterMap_append

def allParts (chunks : List Chunk) : List Part := bodies (definitions chunks)

theorem allParts_append (A B : List Chunk) : allParts (A ++ B) = allParts A ++ allParts B := by
  simp [allParts, definitions, bodies_append]

theorem allParts_close (p : Pending) : allParts [p.close] = p.parts := by
  simp [allParts, definitions, Pending.close, Chunk.definition?, bodies]

theorem literalTexts_bodyPart (line : Text) : literalTexts [bodyPart line] =
    if (reference? line).isNone then [line ++ ['\n']] else [] := by
  unfold bodyPart
  cases reference? line <;> rfl

def pendingParts (pending : Option Pending) : List Part := pending.elim [] Pending.parts

theorem allParts_closed (pending : Option Pending) :
    allParts (Document.closed pending) = pendingParts pending := by
  cases pending with
  | none => rfl
  | some p => exact allParts_close p

theorem literalTexts_of_readLines {pending : Option Pending}
    (h : readLines file passed pending ls = .ok chunks) :
    literalTexts (allParts chunks) =
      literalTexts (pendingParts pending) ++
        (literalLines pending.isSome ls).map (· ++ ['\n']) := by
  -- what the definition in hand holds comes before what its next lines add
  induction ls generalizing passed pending chunks with
  | nil =>
    cases h
    rw [allParts_closed]
    simp [literalLines]
  | cons line rest ih =>
    obtain ⟨done, pending', later, hstep, hlater, rfl⟩ := exists_readStep h
    rw [allParts_append, literalTexts_append, ih hlater]
    cases hstep with
    | header isHeader named =>
      rw [allParts_closed, literalLines, isHeader]
      simp [pendingParts, literalTexts]
    | narrative noHeader =>
      rw [literalLines, noHeader]
      by_cases he : isEnd line <;>
        simp [he, pendingParts, literalTexts, allParts, definitions, Chunk.definition?, bodies]
    | ending noHeader isEnd =>
      rw [allParts_close, literalLines, noHeader, isEnd]
      simp [pendingParts, literalTexts]
    | @body p _ noHeader noEnd =>
      have hadd : literalTexts (pendingParts (some (p.add (bodyPart line)))) =
          literalTexts p.parts ++ literalTexts [bodyPart line] := literalTexts_append _ _
      rw [hadd, literalTexts_bodyPart, literalLines, noHeader, noEnd]
      cases (reference? line).isNone <;> simp [allParts, definitions, bodies, literalTexts,
        pendingParts]

theorem literalTexts_of_parse {text : Text} (h : parse file text = .ok chunks) :
    literalTexts (allParts chunks) =
      (literalLines false (sourceLines text)).map (· ++ ['\n']) := by
  simpa [pendingParts, literalTexts] using literalTexts_of_readLines h

/-- The references of a body are indented by spaces and tabs. -/
def Indented (ps : List Part) : Prop :=
  ∀ target i, .reference target i ∈ ps → ∀ c ∈ i, c = ' ' ∨ c = '\t'

theorem indented_of_bodyLines {body : List Text} {parts : List Part}
    (h : List.Forall₂ BodyLine body parts) : Indented parts := by
  induction h with
  | nil => simp [Indented]
  | cons hline _ ih =>
    intro target i hmem
    obtain heq | hmem := List.mem_cons.1 hmem
    · subst heq
      cases hline with
      | reference isReference => exact isReference.indented
    · exact ih target i hmem

theorem indented_of_spells (h : Spells file passed ls chunks) : Indented (allParts chunks) := by
  induction h with
  | nil => simp [Indented, allParts, definitions, bodies]
  | narrative _ _ ih => exact ih
  | definition _ _ isBody _ _ ih =>
    intro target i hmem
    obtain hmem | hmem := List.mem_append.1 hmem
    · exact indented_of_bodyLines isBody target i hmem
    · exact ih target i hmem

theorem indented_literals {t : Table} (ht : ∀ k body, t.lookup k = some body → Indented body)
    {stack : List Text} {indent : Text} {ps : List Part} (hps : Indented ps)
    (hindent : ∀ c ∈ indent, c = ' ' ∨ c = '\t') :
    ∀ l ∈ (unfold t stack indent ps).literals, ∀ c ∈ l.1, c = ' ' ∨ c = '\t' := by
  have tail {p : Part} {ps : List Part} (h : Indented (p :: ps)) : Indented ps :=
    fun target i hmem => h target i (List.mem_cons_of_mem _ hmem)
  fun_induction unfold t stack indent ps with
  | case1 => simp
  | case2 stack indent s ps ih =>
    rw [Unfolding.literals_after_literal]
    exact List.forall_mem_cons.2 ⟨hindent, ih (tail hps) hindent⟩
  | case3 stack indent x ps => exact x.elim
  | case4 stack indent target i ps hs => simp [Unfolding.stopped, Unfolding.literals]
  | case5 stack indent target i ps hs hl ih =>
    rw [Unfolding.literals_after_unresolved]
    exact ih (tail hps) hindent
  | case6 stack indent target i ps hs body hl ihbody ih =>
    have hi : ∀ c ∈ indent ++ i, c = ' ' ∨ c = '\t' := by
      intro c hc
      obtain hc | hc := List.mem_append.1 hc
      · exact hindent c hc
      · exact hps target i List.mem_cons_self c hc
    intro l hl'
    -- what was emitted before a stop is indented too
    cases hstop : (unfold t (stack ++ [target.key]) (indent ++ i) body).stop with
    | some o =>
      rw [Unfolding.andThen, hstop] at hl'
      exact ihbody (ht _ _ hl) hi l hl'
    | none =>
      rw [Unfolding.literals_andThen hstop] at hl'
      obtain hl' | hl' := List.mem_append.1 hl'
      · exact ihbody (ht _ _ hl) hi l hl'
      · exact ih (tail hps) hindent l hl'

theorem wholeBody_subset (chunks : List Chunk) (k : Text) :
    wholeBody chunks k ⊆ allParts chunks := by
  intro p hp
  obtain ⟨d, hd, hp⟩ := List.mem_flatMap.1 hp
  exact List.mem_flatMap.2 ⟨d, (mem_group.1 hd).1, hp⟩

theorem indented_code (h : Indented (allParts chunks)) (hroot : Defined chunks (Text.trim asked)) :
    ∀ l ∈ (unfoldRoot (collect (definitions chunks)) asked).literals,
      ∀ c ∈ l.1, c = ' ' ∨ c = '\t' := by
  have hbody (k : Text) : Indented (wholeBody chunks k) :=
    fun target i hmem => h target i (wholeBody_subset chunks k hmem)
  rw [unfoldRoot_of_defined hroot]
  exact indented_literals (fun k body hl => wholeBody_of_lookup hl ▸ hbody k) (hbody _) (by simp)

end Literate.Tangle
