import Literate.Log.Event
import Literate.Text.Lower
import Literate.Validation.Check

namespace Literate

inductive LogFormat where
  | json
  | console
deriving DecidableEq

namespace LogFormat

def all : List LogFormat := [json, console]

def name : LogFormat → Text
  | json => "json"
  | console => "console"

end LogFormat

structure Settings where
  rootName : Text := "*"
  encoding : Text := "utf-8"
  fallbackComment : Text := "//"
  anchorFiller : Text := "_"
  highlightStyle : Text := "default"
  watchInterval : Float := 1.0
  recencyWindow : Float := 2.0
  maxRetries : Nat := 3
  retryDelay : Float := 0.1
  logLevel : Level := .info
  logFormat : LogFormat := .console

def Level.ofCapitals? (s : Text) : Option Level :=
  Level.all.find? fun l => Text.capitalisesTo l.capitals s

def LogFormat.ofText? (s : Text) : Option LogFormat :=
  LogFormat.all.find? fun f => f.name == Text.lower s

inductive Setting where
  | rootName
  | encoding
  | fallbackComment
  | anchorFiller
  | highlightStyle
  | watchInterval
  | recencyWindow
  | maxRetries
  | retryDelay
  | logLevel
  | logFormat
deriving DecidableEq

namespace Setting

def all : List Setting :=
  [rootName, encoding, fallbackComment, anchorFiller, highlightStyle, watchInterval,
   recencyWindow, maxRetries, retryDelay, logLevel, logFormat]

def name : Setting → Text
  | rootName => "root_name"
  | encoding => "encoding"
  | fallbackComment => "fallback_comment_token"
  | anchorFiller => "anchor_filler"
  | highlightStyle => "pygments_style"
  | watchInterval => "watch_interval"
  | recencyWindow => "watch_recency_window"
  | maxRetries => "watch_max_retries"
  | retryDelay => "watch_retry_delay"
  | logLevel => "log_level"
  | logFormat => "log_format"

def ofName? (s : Text) : Option Setting := all.find? fun k => k.name == s

open Checked

def checkRootName (v : Value) : Checked Text := do
  let s ← textOf 1 none v
  if Text.isBlank s then fail (.refused "root_name cannot be blank") else .ok (Text.trim s)

def checkFiller (v : Value) : Checked Text := do
  let s ← textOf 1 (some 1) v
  if Text.isBlank s then fail (.refused "anchor_filler cannot be whitespace") else .ok s

def positiveUpTo (most : Nat) (v : Value) : Checked Float := do
  let x ← number v
  if Float.ofNat most < x then fail (.above most)
  else if x ≤ 0.0 then fail (.notAbove 0)
  else .ok x

def fromZeroUpTo (most : Nat) (v : Value) : Checked Float := do
  let x ← number v
  if Float.ofNat most < x then fail (.above most)
  else if x < 0.0 then fail (.below 0)
  else .ok x

def retries (v : Value) : Checked Nat := do
  let i ← integer v
  if 10 < i then fail (.above 10)
  else if i < 0 then fail (.below 0)
  else .ok i.toNat

def notOneOf (subject : Text) (allowed : List Text) (given : Text) : Issue.Cause :=
  .refused (subject ++ " must be one of [" ++ Text.join ", " (allowed.map Text.quote) ++
    "], got '" ++ given ++ "'")

def checkLevel (v : Value) : Checked Level := do
  let s ← text v
  match Level.ofCapitals? s with
  | some l => .ok l
  | none => fail (notOneOf "log_level" (Level.all.map Level.capitals) s)

def checkFormat (v : Value) : Checked LogFormat := do
  let s ← text v
  match LogFormat.ofText? s with
  | some f => .ok f
  | none => fail (notOneOf "log_format" (LogFormat.all.map LogFormat.name) s)

/-- What giving a setting a value does to the settings, if the value is accepted. -/
def change (k : Setting) (v : Value) : Checked (Settings → Settings) :=
  match k with
  | rootName => (checkRootName v).map fun x s => { s with rootName := x }
  | encoding => (text v).map fun x s => { s with encoding := x }
  | fallbackComment =>
    (textOf 1 none v).map fun x s => { s with fallbackComment := x }
  | anchorFiller => (checkFiller v).map fun x s => { s with anchorFiller := x }
  | highlightStyle => (text v).map fun x s => { s with highlightStyle := x }
  | watchInterval => (positiveUpTo 60 v).map fun x s => { s with watchInterval := x }
  | recencyWindow => (positiveUpTo 600 v).map fun x s => { s with recencyWindow := x }
  | maxRetries => (retries v).map fun x s => { s with maxRetries := x }
  | retryDelay => (fromZeroUpTo 5 v).map fun x s => { s with retryDelay := x }
  | logLevel => (checkLevel v).map fun x s => { s with logLevel := x }
  | logFormat => (checkFormat v).map fun x s => { s with logFormat := x }

def changeInside (k : Setting) (v : Value) : Checked (Settings → Settings) :=
  inside (.field k.name) (k.change v)

end Setting

namespace Settings

/-- The defaults with the given values, or the issues of all of those. -/
def ofGiven (given : Setting → Option Value) : List Setting → Checked Settings
  | [] => .ok {}
  | k :: ks =>
    match given k with
    | none => ofGiven given ks
    | some v => (Checked.both (k.changeInside v) (ofGiven given ks)).map fun (f, s) => f s

/-- Gives a new value to the setting of a name; the settings stay as they are when the value is not
accepted. -/
def assign (s : Settings) (name : Text) (v : Value) : Checked Settings :=
  match Setting.ofName? name with
  | some k => (k.changeInside v).map (· s)
  | none => .error [⟨[.field name], .noSuchField name⟩]

def summary (s : Settings) : Value :=
  .object
    [("generation", .object
      [("root_name", .text s.rootName), ("encoding", .text s.encoding),
       ("fallback_comment_token", .text s.fallbackComment)]),
     ("rendering", .object
      [("anchor_filler", .text s.anchorFiller), ("pygments_style", .text s.highlightStyle)]),
     ("watch", .object
      [("interval", .float s.watchInterval), ("recency_window", .float s.recencyWindow),
       ("max_retries", .int s.maxRetries), ("retry_delay", .float s.retryDelay)]),
     ("logging", .object
      [("level", .text s.logLevel.capitals), ("format", .text s.logFormat.name)])]

end Settings

end Literate
