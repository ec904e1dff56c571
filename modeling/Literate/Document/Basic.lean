import Literate.Text.Basic

namespace Literate

/-- A macro name as it was written; names are compared by their keys. -/
structure Name where
  text : Text
  nonblank : Text.isBlank text = false
deriving DecidableEq

namespace Name

def ofText? (s : Text) : Option Name :=
  if h : Text.isBlank s = false then some ⟨s, h⟩ else none

def key (n : Name) : Text := Text.trim n.text

end Name

abbrev FileName := { s : Text // s ≠ [] }

/-- Where a definition starts: a file and the number of a line, counted from one. -/
structure Position where
  file : FileName
  line : Nat
  line_pos : 1 ≤ line
deriving DecidableEq

inductive Part (υ : Type := Empty) where
  | literal (text : Text)
  | reference (target : Name) (indent : Text)
  | foreign (what : υ)
deriving DecidableEq

structure Definition (υ : Type := Empty) where
  name : Name
  position : Position
  parts : List (Part υ)
deriving DecidableEq

inductive Chunk (υ : Type := Empty) where
  | narrative (text : Text)
  | definition (d : Definition υ)
  | foreign (what : υ)
deriving DecidableEq

/-- The macro that is tangled unless another one is asked for. -/
def rootName : Text := "*"

variable {υ : Type}

namespace Definition

def key (d : Definition υ) : Text := d.name.key

def withParts (d : Definition υ) (parts : List (Part υ)) : Definition υ := { d with parts }

end Definition

namespace Part

def widen : Part → Part υ
  | literal s => literal s
  | reference t i => reference t i

/-- A part of known kind, or what stands in its place. -/
def known : Part υ → Except υ Part
  | literal s => .ok (literal s)
  | reference t i => .ok (reference t i)
  | foreign x => .error x

theorem known_eq (p : Part) : p.known = .ok p := by
  cases p with
  | literal s => rfl
  | reference t i => rfl
  | foreign x => exact x.elim

end Part

/-- Elements of unknown kind are told apart by the name of their kind. -/
class UnknownKind (υ : Type) where
  name : υ → Text

instance : UnknownKind Text := ⟨id⟩

instance : UnknownKind Empty := ⟨Empty.elim⟩

/-- The place of an unknown element in a document: among its chunks or in a body. -/
inductive Unknown (υ : Type) where
  | chunk (what : υ)
  | part (what : υ)

namespace Definition

def widen (d : Definition) : Definition υ := ⟨d.name, d.position, d.parts.map Part.widen⟩

def known (d : Definition υ) : Except (Unknown υ) Definition :=
  match d.parts.mapM Part.known with
  | .ok parts => .ok ⟨d.name, d.position, parts⟩
  | .error x => .error (.part x)

theorem known_eq (d : Definition) : d.known = .ok d := by
  have h : Part.known = (pure : Part → Except Empty Part) := funext Part.known_eq
  have hm : d.parts.mapM Part.known = .ok d.parts := by
    rw [h, List.mapM_pure, List.map_id']
    rfl
  simp only [known, hm]

end Definition

namespace Chunk

def widen : Chunk → Chunk υ
  | narrative s => narrative s
  | definition d => definition d.widen

/-- A chunk without unknown elements, or the first of those. -/
def known : Chunk υ → Except (Unknown υ) Chunk
  | narrative s => .ok (narrative s)
  | definition d => d.known.map definition
  | foreign x => .error (.chunk x)

theorem known_eq (c : Chunk) : c.known = .ok c := by
  cases c with
  | narrative s => rfl
  | definition d => simp [known, Definition.known_eq, Except.map]
  | foreign x => exact x.elim

def definition? : Chunk υ → Option (Definition υ)
  | definition d => some d
  | _ => none

end Chunk

namespace Document

def definitions (chunks : List (Chunk υ)) : List (Definition υ) :=
  chunks.filterMap Chunk.definition?

def definitions? : List (Chunk υ) → Except υ (List (Definition υ))
  | [] => .ok []
  | .narrative _ :: cs => definitions? cs
  | .definition d :: cs => (definitions? cs).map (d :: ·)
  | .foreign x :: _ => .error x

/-- The document itself when it has no unknown elements, or the first of those. -/
def known (chunks : List (Chunk υ)) : Except (Unknown υ) (List Chunk) := chunks.mapM Chunk.known

theorem definitions?_eq (chunks : List Chunk) :
    definitions? chunks = .ok (definitions chunks) := by
  induction chunks with
  | nil => rfl
  | cons c cs ih =>
    cases c with
    | narrative s => exact ih
    | definition d =>
      simp only [definitions?, ih, definitions, Chunk.definition?, List.filterMap_cons]
      rfl
    | foreign x => exact x.elim

theorem known_eq (chunks : List Chunk) : known chunks = .ok chunks := by
  have h : Chunk.known = (pure : Chunk → Except (Unknown Empty) Chunk) := funext Chunk.known_eq
  rw [known, h, List.mapM_pure, List.map_id']
  rfl

end Document

namespace Name

/-- Names that were read from lines have no blanks around them. -/
def Trimmed (n : Name) : Prop := Text.trim n.text = n.text

theorem Trimmed.key {n : Name} (h : n.Trimmed) : n.key = n.text := h

theorem ofText?_text (n : Name) : ofText? n.text = some n := by
  rw [ofText?, dif_pos n.nonblank]

theorem text_of_ofText? {s : Text} {n : Name} (h : ofText? s = some n) : n.text = s := by
  unfold ofText? at h
  split at h
  case isTrue => rw [← Option.some.inj h]
  case isFalse => simp at h

theorem isBlank_rootName : Text.isBlank rootName = false := by decide

/-- The name of the root where the text is blank. -/
def orRoot (s : Text) : Name := (ofText? s).getD ⟨rootName, isBlank_rootName⟩

end Name

theorem docName_ne_nil : ("doc" : Text) ≠ [] := by decide

def docFile : FileName := ⟨"doc", docName_ne_nil⟩

def Part.to (name indent : Text) : Part := .reference (.orRoot name) indent

/-- A definition behind `passed` lines of a file. -/
def Definition.after (passed : Nat) (name : Text) (parts : List Part) : Definition :=
  ⟨.orRoot name, ⟨docFile, passed + 1, Nat.succ_pos passed⟩, parts⟩

end Literate
