import Literate.Log.Trace
import Literate.Tangle.Unfolding

namespace Literate.Tangle

variable {υ : Type} [UnknownKind υ]

def Obstacle.fault : Obstacle υ → Fault
  | cycle key path => .cycle key path
  | foreign x => .unknownPart (UnknownKind.name x)

def definitionsOf (chunks : List (Chunk υ)) : Traced (List (Definition υ)) :=
  Traced.of ((Document.definitions? chunks).mapError fun x => .unknownChunk (UnknownKind.name x))

def collectedEvent (input output : List (Definition υ)) : Event :=
  ⟨.debug, "definitions_merged",
    [("input_count", .int input.length), ("output_count", .int output.length)]⟩

def collectTraced (ds : List (Definition υ)) : Traced (List (Definition υ)) := do
  let collected ← Traced.ofChecked (collect? ds)
  Traced.emit (collectedEvent ds collected)
  return collected

def withLocationsTraced (extension fallback : Text) (ds : List (Definition υ)) :
    Traced (List (Definition υ)) :=
  Traced.ofChecked (withLocations? (lineComment extension fallback) ds)

/-- The choice of a root is reported when it falls on another macro than the one asked for. -/
def rootEvents (ds : List (Definition υ)) (asked : Text) : List Event :=
  match (table ds).lookup (Text.trim asked), ds.getLast? with
  | none, some last =>
    [⟨.debug, "root_fallback",
      [("root_name", .text (Text.trim asked)), ("fallback", .text last.key)]⟩]
  | _, _ => []

def rootTraced (ds : List (Definition υ)) (asked : Text) : Traced (Option (Root υ)) :=
  ⟨rootEvents ds asked, .ok (root? ds asked)⟩

def Step.events : Step → List Event
  | literal _ _ => []
  | unresolved key => [⟨.debug, "unresolved_reference", [("target", .text key)]⟩]

def unfoldedTextTraced (ds : List (Definition υ)) (asked : Text) : Traced Text :=
  ⟨rootEvents ds asked ++ (unfoldRoot ds asked).steps.flatMap Step.events,
    (unfoldedText ds asked).mapError Obstacle.fault⟩

def codeTraced (chunks : List (Chunk υ)) (asked : Text) : Traced Text := do
  unfoldedTextTraced (← collectTraced (← definitionsOf chunks)) asked

def locatedCodeTraced (extension : Text) (chunks : List (Chunk υ))
    (asked fallback : Text) : Traced Text := do
  let located ← withLocationsTraced extension fallback (← definitionsOf chunks)
  unfoldedTextTraced (← collectTraced located) asked

theorem result_definitionsOf (chunks : List Chunk) :
    (definitionsOf chunks).result = .ok (Document.definitions chunks) := by
  rw [definitionsOf, Document.definitions?_eq]
  rfl

theorem result_collectTraced (ds : List Definition) :
    (collectTraced ds).result = .ok (collect ds) := by
  rw [collectTraced, collect?_eq]
  rfl

theorem result_withLocationsTraced (extension fallback : Text) (ds : List Definition) :
    (withLocationsTraced extension fallback ds).result =
      .ok (withLocations (lineComment extension fallback) ds) := by
  rw [withLocationsTraced, withLocations?_eq]
  rfl

theorem result_codeTraced (chunks : List Chunk) (asked : Text) :
    (codeTraced chunks asked).result = (code chunks asked).mapError Obstacle.fault := by
  simp [codeTraced, result_definitionsOf, result_collectTraced, Except.bind, code,
    unfoldedTextTraced]

theorem result_locatedCodeTraced (extension : Text) (chunks : List Chunk)
    (asked fallback : Text) :
    (locatedCodeTraced extension chunks asked fallback).result =
      (locatedCode extension chunks asked fallback).mapError Obstacle.fault := by
  simp [locatedCodeTraced, result_withLocationsTraced, result_definitionsOf,
    result_collectTraced, Except.bind, locatedCode, unfoldedTextTraced]

end Literate.Tangle
