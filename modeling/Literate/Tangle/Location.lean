import Literate.Document.Codec
import Literate.Text.Lower

namespace Literate.Tangle

variable {υ : Type}

/-- A file name extension in lower case with a dot in front; the empty one stays empty. -/
def dottedExtension (extension : Text) : Text :=
  match Text.lower (Text.trim extension) with
  | [] => []
  | '.' :: s => '.' :: s
  | s => '.' :: s

def hashLanguages : List Text :=
  [".sh", ".bash", ".zsh", ".py", ".rb", ".pl", ".r", ".yaml", ".yml", ".toml"]

def dashLanguages : List Text := [".hs", ".lhs", ".lua", ".sql", ".elm"]

def defaultLineComment : Text := "//"

/-- What starts a line comment in files with this extension. -/
def lineComment (extension fallback : Text) : Text :=
  let e := dottedExtension extension
  if e ∈ hashLanguages then "#" else if e ∈ dashLanguages then "--" else fallback

def locationLine (p : Position) (token : Text) : Text :=
  token ++ " " ++ p.file.val ++ ":" ++ Text.ofNat p.line ++ "\n"

/-- The body of a definition behind its location line. -/
def locatedParts (token : Text) (d : Definition υ) : List (Part υ) :=
  .literal (locationLine d.position token) :: d.parts

/-- Every definition starts with its own location, so this comes before they are collected. -/
def withLocations (token : Text) (ds : List (Definition υ)) : List (Definition υ) :=
  ds.map fun d => d.withParts (locatedParts token d)

/-- The located definitions, unless one of them holds unknown parts. -/
def withLocations? (token : Text) (ds : List (Definition υ)) : Checked (List (Definition υ)) :=
  ds.mapM fun d => d.rebuild (locatedParts token d)

theorem withLocations?_eq (token : Text) (ds : List Definition) :
    withLocations? token ds = .ok (withLocations token ds) := by
  have h : (fun d : Definition => d.rebuild (locatedParts token d)) =
      fun d => (pure (d.withParts (locatedParts token d)) : Checked Definition) := by
    funext d
    simp [Definition.rebuild, Definition.bodyIssues_eq_nil, pure, Except.pure]
  rw [withLocations?, h, List.mapM_pure]
  rfl

end Literate.Tangle
