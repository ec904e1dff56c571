import Literate.Log.Trace
import Literate.Tangle.Location
import Literate.Weave.Page

namespace Literate.Weave

def languageOf (extension : Text) : Text :=
  (Tangle.dottedExtension extension).dropWhile (· == '.')

def fenceMark : Text := List.replicate 3 '\x60'

def markdownPart : Part → Text
  | .literal s => s
  | .reference target indent => indent ++ "<< " ++ target.key ++ " >>\n"

def markdownHeader (first : Bool) (d : Definition) : Text :=
  "<< " ++ d.key ++ " >>" ++ (if first then ("=" : Text) else "+=") ++ "\n"

/-- A line end, if what was written last is not empty and lacks one. -/
def missingLineEnd (last : Text) : Text :=
  if last.isEmpty || last.getLast? == some '\n' then [] else ['\n']

def markdownBody (parts : List Part) : Text :=
  parts.flatMap markdownPart ++ missingLineEnd ((parts.getLast?.map markdownPart).getD [])

def markdownDefinition (language : Text) (first : Bool) (d : Definition) : Text :=
  fenceMark ++ language ++ "\n" ++ markdownHeader first d ++ markdownBody d.parts ++
    fenceMark ++ "\n"

/-- The pieces of a document when the keys of `seen` have been defined already. -/
def markdownFrom (language : Text) (seen : List Text) : List Chunk → Text
  | [] => []
  | .narrative line :: cs => line ++ "\n" ++ markdownFrom language seen cs
  | .definition d :: cs =>
    markdownDefinition language (decide (d.key ∉ seen)) d ++
      markdownFrom language (d.key :: seen) cs

def markdown (extension : Text) (chunks : List Chunk) : Text :=
  markdownFrom (languageOf extension) [] chunks

variable {υ : Type} [UnknownKind υ]

def unknownFault : Unknown υ → Fault
  | .chunk x => .unknownChunk (UnknownKind.name x)
  | .part x => .unknownPart (UnknownKind.name x)

def knownChunks (chunks : List (Chunk υ)) : Traced (List Chunk) :=
  Traced.of ((Document.known chunks).mapError unknownFault)

def definitionTraced (h : Highlighter) (filler extension : Text) (anchors : Anchors) (first : Bool)
    (d : Definition υ) : Traced Text := do
  let d ← Traced.of (d.known.mapError unknownFault)
  return definitionBlock h filler extension anchors first d

def bodyTraced (h : Highlighter) (filler extension : Text) (chunks : List (Chunk υ)) :
    Traced Text := do
  return pageBody h filler extension (← knownChunks chunks)

def markdownTraced (extension : Text) (chunks : List (Chunk υ)) : Traced Text := do
  return markdown extension (← knownChunks chunks)

/-- An address that is given and not empty is linked; otherwise the rules of the style are put into
the page. -/
def stylingOf (h : Highlighter) (address : Option Text) (style : Text) : Except Fault Styling :=
  match address with
  | some (c :: s) => .ok (.linked (c :: s))
  | _ => ((h.rules style).mapError .ofMishap).map .embedded

def pageEvent (title : Text) (chunks : Nat) : Event :=
  ⟨.debug, "html_rendered", [("title", .text title), ("chunk_count", .int chunks)]⟩

def pageTraced (h : Highlighter) (filler extension title : Text) (address : Option Text)
    (style : Text) (chunks : List (Chunk υ)) : Traced Text := do
  let styling ← Traced.of (stylingOf h address style)
  let known ← knownChunks chunks
  Traced.emit (pageEvent title chunks.length)
  return page h filler extension title styling known

theorem result_knownChunks (chunks : List Chunk) : (knownChunks chunks).result = .ok chunks := by
  rw [knownChunks, Document.known_eq]
  rfl

theorem result_definitionTraced (h : Highlighter) (filler extension : Text) (anchors : Anchors)
    (first : Bool) (d : Definition) :
    (definitionTraced h filler extension anchors first d).result =
      .ok (definitionBlock h filler extension anchors first d) := by
  rw [definitionTraced, Definition.known_eq]
  rfl

theorem result_bodyTraced (h : Highlighter) (filler extension : Text) (chunks : List Chunk) :
    (bodyTraced h filler extension chunks).result = .ok (pageBody h filler extension chunks) := by
  simp [bodyTraced, result_knownChunks, Except.bind]

theorem result_markdownTraced (extension : Text) (chunks : List Chunk) :
    (markdownTraced extension chunks).result = .ok (markdown extension chunks) := by
  simp [markdownTraced, result_knownChunks, Except.bind]

theorem result_pageTraced (h : Highlighter) (filler extension title : Text) (address : Option Text)
    (style : Text) (chunks : List Chunk) :
    (pageTraced h filler extension title address style chunks).result =
      (stylingOf h address style).map fun styling =>
        page h filler extension title styling chunks := by
  simp only [pageTraced, Traced.result_bind, Traced.result_of, Traced.result_emit,
    Traced.result_pure, result_knownChunks]
  cases stylingOf h address style <;> rfl

end Literate.Weave
