import Literate.Document.Basic
import Literate.Validation.Check

namespace Literate

open Checked

def Name.check (subject : Text) (v : Value) : Checked Name := do
  let s ← textOf 1 none v
  match Name.ofText? s with
  | some n => .ok n
  | none => fail (.refused (subject ++ " cannot be blank"))

namespace Position

def toValue (p : Position) : Value :=
  .object [("file_path", .text p.file.val), ("line", .int p.line)]

def checkFile (v : Value) : Checked FileName := do
  let s ← textOf 1 none v
  if h : s ≠ [] then .ok ⟨s, h⟩ else fail (.tooShort 1)

def check (v : Value) : Checked Position := do
  let fields ← record "SourcePosition" v
  let (file, line) ←
    both (required fields "file_path" checkFile) (required fields "line" (natFrom 1))
  return ⟨file, line.val, line.property⟩

end Position

namespace Part

variable {υ : Type}

def literalValue (s : Text) : Value := .object [("kind", .text "literal"), ("text", .text s)]

def referenceValue (target : Name) (indent : Text) : Value :=
  .object [("kind", .text "reference"), ("target", .text target.text), ("indent", .text indent)]

/-- Unknown elements are written by `unknown`. -/
def toValue (unknown : υ → Value) : Part υ → Value
  | literal s => literalValue s
  | reference t i => referenceValue t i
  | foreign x => unknown x

def checkLiteral (v : Value) : Checked Part := do
  let fields ← record "LiteralPart" v
  let (_, s) ← both (kind "literal" fields) (required fields "text" text)
  return literal s

def checkReference (v : Value) : Checked Part := do
  let fields ← record "ReferencePart" v
  let (_, target, indent) ←
    both (kind "reference" fields) <|
      both (required fields "target" (Name.check "reference target"))
        (optional fields "indent" [] text)
  return reference target indent

def check : Value → Checked Part :=
  tagged [("literal", checkLiteral), ("reference", checkReference)]

end Part

namespace Definition

variable {υ : Type}

def toValue (unknown : υ → Value) (d : Definition υ) : Value :=
  .object [("kind", .text "definition"), ("name", .text d.name.text),
    ("position", d.position.toValue), ("parts", .list (d.parts.map (Part.toValue unknown)))]

def checkParts : Value → Checked (List Part)
  | .list vs => items Part.check 0 vs
  | _ => fail .notSequence

def check (v : Value) : Checked Definition := do
  let fields ← record "Definition" v
  let (_, name, position, parts) ←
    both (kind "definition" fields) <|
      both (required fields "name" (Name.check "definition name")) <|
        both (required fields "position" Position.check) (optional fields "parts" [] checkParts)
  return ⟨name, position, parts⟩

/-- The issues of a body with unknown parts, one for each of them. -/
def bodyIssues (parts : List (Part υ)) : List Issue :=
  parts.zipIdx.filterMap fun (p, i) =>
    match p with
    | .foreign _ => some ⟨[.field "parts", .index i], .untagged⟩
    | _ => none

theorem bodyIssues_eq_nil (parts : List Part) : bodyIssues parts = [] := by
  simp only [bodyIssues, List.filterMap_eq_nil_iff]
  rintro ⟨p, i⟩ _
  cases p with
  | literal s => rfl
  | reference t i => rfl
  | foreign x => exact x.elim

/-- A definition given a new body, which may not hold unknown parts. -/
def rebuild (d : Definition υ) (parts : List (Part υ)) : Checked (Definition υ) :=
  match bodyIssues parts with
  | [] => .ok (d.withParts parts)
  | issues => .error issues

end Definition

namespace Chunk

variable {υ : Type}

def narrativeValue (s : Text) : Value := .object [("kind", .text "narrative"), ("text", .text s)]

def toValue (unknown : υ → Value) : Chunk υ → Value
  | narrative s => narrativeValue s
  | definition d => d.toValue unknown
  | foreign x => unknown x

def checkNarrative (v : Value) : Checked Chunk := do
  let fields ← record "Narrative" v
  let (_, s) ← both (kind "narrative" fields) (optional fields "text" [] text)
  return narrative s

def checkDefinition (v : Value) : Checked Chunk := (Definition.check v).map definition

def check : Value → Checked Chunk :=
  tagged [("narrative", checkNarrative), ("definition", checkDefinition)]

end Chunk

namespace Document

def toValue (chunks : List Chunk) : Value := .list (chunks.map (Chunk.toValue Empty.elim))

def check : Value → Checked (List Chunk)
  | .list vs => items Chunk.check 0 vs
  | _ => fail .notList

end Document

end Literate
