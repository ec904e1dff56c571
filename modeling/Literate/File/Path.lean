import Literate.Text.Basic

namespace Literate

/-- `slashes` counts the slashes of the root: none for a relative path, and exactly two at the front
of a text stay two. -/
structure Path where
  slashes : Nat
  parts : List Text
deriving DecidableEq

namespace Path

def components (s : Text) : List Text :=
  (Text.splitOn '/' s).filter fun p => !(p.isEmpty || p == ['.'])

def rootSlashes : Text → Nat
  | '/' :: '/' :: '/' :: _ => 1
  | '/' :: '/' :: _ => 2
  | '/' :: _ => 1
  | _ => 0

def ofText (s : Text) : Path := ⟨rootSlashes s, components s⟩

def toText (p : Path) : Text :=
  if p.slashes = 0 ∧ p.parts = [] then ['.']
  else List.replicate p.slashes '/' ++ Text.join ['/'] p.parts

/-- An absolute second path replaces the first. -/
def append (p q : Path) : Path :=
  if q.slashes = 0 then ⟨p.slashes, p.parts ++ q.parts⟩ else q

def child (p : Path) (name : Text) : Path := p.append (ofText name)

def name (p : Path) : Text := p.parts.getLast?.getD []

/-- The last dot of a name and what follows it, unless the dot is the first or last character. -/
def suffix (name : Text) : Text :=
  let after := (name.reverse.takeWhile (· != '.')).reverse
  let before := name.length - after.length
  if 2 ≤ before ∧ after ≠ [] then '.' :: after else []

/-- Components followed from `passed`, nearest first; two dots leave the last one. -/
def follow (passed : List Text) : List Text → List Text
  | [] => passed.reverse
  | p :: ps => if p = ['.', '.'] then follow passed.tail ps else follow (p :: passed) ps

/-- The absolute path without two-dot components, for a tree without links. -/
def resolve (cwd : List Text) (p : Path) : List Text :=
  follow [] (if p.slashes = 0 then cwd ++ p.parts else p.parts)

end Path

end Literate
