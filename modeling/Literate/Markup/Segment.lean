import Literate.Markup.LineKind

namespace Literate.Markup

inductive Content where
  | blank
  | fence (language : Text) (code : List Text)
  | heading (level : Nat) (text : Text)
  | rule
  | quote (lines : List Text)
  | list (ordered : Bool) (items : List Text)
  /-- A line of a paragraph. -/
  | prose (line : Text)

structure Segment where
  lines : List Text
  content : Content

/-- How many further lines belong to a list, what they add to its current item, and the items that
they start. -/
def listTail (item? : Text → Option Text) : List Text → Nat × Text × List Text
  | [] => (0, [], [])
  | line :: rest =>
    let (n, more, items) := listTail item? rest
    match item? line with
    | some text => (n + 1, [], (text ++ more) :: items)
    | none =>
      if continuesItem line then (n + 1, ' ' :: Text.trim line ++ more, items) else (0, [], [])

def listSegment (ordered : Bool) (item? : Text → Option Text) (text : Text) (rest : List Text) :
    Content × Nat :=
  let (n, more, items) := listTail item? rest
  (.list ordered ((text ++ more) :: items), n)

/-- What a line starts and how many of the lines after it belong to that. -/
def startSegment (line : Text) (rest : List Text) : Content × Nat :=
  match fence? line with
  | some (mark, language) =>
    let code := rest.takeWhile fun l => !closesFence mark l
    (.fence language code, code.length + 1)
  | none =>
    if Text.isBlank line then (.blank, 0)
    else
      match heading? line with
      | some (level, text) => (.heading level text, 0)
      | none =>
        if isRule line then (.rule, 0)
        else if (quote? line).isSome then
          let quoted := line :: rest.takeWhile fun l => (quote? l).isSome
          (.quote (quoted.filterMap quote?), quoted.length - 1)
        else
          match bullet? line with
          | some text => listSegment false bullet? text rest
          | none =>
            match numbered? line with
            | some text => listSegment true numbered? text rest
            | none => (.prose line, 0)

/-- The segments from here on, when `skip` lines belong to the one before. -/
def segmentsFrom (skip : Nat) : List Text → List Segment
  | [] => []
  | line :: rest =>
    if 0 < skip then segmentsFrom (skip - 1) rest
    else
      let start := startSegment line rest
      ⟨line :: rest.take start.2, start.1⟩ :: segmentsFrom start.2 rest

def segments (lines : List Text) : List Segment := segmentsFrom 0 lines

end Literate.Markup
