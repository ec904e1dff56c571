import Literate.Document.Codec

namespace Literate.Tangle

variable {υ : Type}

/-- The texts without repetitions, each at its first occurrence. -/
def firsts : List Text → List Text
  | [] => []
  | k :: ks => k :: (firsts ks).filter (· ≠ k)

/-- The keys in the order in which they are first defined. -/
def keys (ds : List (Definition υ)) : List Text := firsts (ds.map Definition.key)

def group (k : Text) (ds : List (Definition υ)) : List (Definition υ) := ds.filter (·.key = k)

def bodies (ds : List (Definition υ)) : List (Part υ) := ds.flatMap Definition.parts

/-- The first definition with the parts of all of them. -/
def combine : List (Definition υ) → Option (Definition υ)
  | [] => none
  | d :: more => some (d.withParts (bodies (d :: more)))

def collect (ds : List (Definition υ)) : List (Definition υ) :=
  (keys ds).filterMap fun k => combine (group k ds)

/-- The issues of putting several definitions together; one on its own is taken as it is. -/
def collectIssues (ds : List (Definition υ)) : List Issue :=
  if 2 ≤ ds.length then Definition.bodyIssues (bodies ds) else []

/-- The collected definitions, unless a body put together from several holds unknown parts. -/
def collect? (ds : List (Definition υ)) : Checked (List (Definition υ)) :=
  match (keys ds).map (fun k => collectIssues (group k ds)) |>.find? (!·.isEmpty) with
  | some issues => .error issues
  | none => .ok (collect ds)

theorem collect?_eq (ds : List Definition) : collect? ds = .ok (collect ds) := by
  have h : ((keys ds).map fun k => collectIssues (group k ds)).find? (!·.isEmpty) = none := by
    simp [collectIssues, Definition.bodyIssues_eq_nil]
  simp only [collect?, h]

/-- Bodies by key, in the order in which the keys are first defined. -/
abbrev Table (υ : Type := Empty) := List (Text × List (Part υ))

def body? (ds : List (Definition υ)) (k : Text) : Option (List (Part υ)) :=
  (group k ds).getLast?.map Definition.parts

def table (ds : List (Definition υ)) : Table υ :=
  (keys ds).filterMap fun k => (body? ds k).map (k, ·)

/-- The key and the parts from which the unfolding starts. -/
structure Root (υ : Type := Empty) where
  key : Text
  parts : List (Part υ)

/-- The macro asked for, or else the last definition; nothing without definitions. -/
def root? (ds : List (Definition υ)) (asked : Text) : Option (Root υ) :=
  match (table ds).lookup (Text.trim asked) with
  | some parts => some ⟨Text.trim asked, parts⟩
  | none => ds.getLast?.map fun d => ⟨d.key, d.parts⟩

end Literate.Tangle
