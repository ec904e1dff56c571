import Literate.Number.Shortest
import Literate.Text.Quoted
import Literate.Value.Basic

namespace Literate.Value

def boolText (b : Bool) : Text := if b then "True" else "False"

mutual

def display : Value → Text
  | .null => "None"
  | .bool b => boolText b
  | .int i => Text.ofInt i
  | .float x => Decimal.ofFloat x
  | .text s => Text.quote s
  | .list items => '[' :: Text.join ", " (displayItems items) ++ [']']
  | .object fields => '\x7b' :: Text.join ", " (displayFields fields) ++ ['\x7d']

def displayItems : List Value → List Text
  | [] => []
  | v :: vs => display v :: displayItems vs

def displayFields : List (Text × Value) → List Text
  | [] => []
  | (k, v) :: rest => (Text.quote k ++ ": " ++ display v) :: displayFields rest

end

/-- Text on its own is shown bare. -/
def toText : Value → Text
  | .text s => s
  | v => display v

/-- A group of values in parentheses, a single one followed by a comma. -/
def displayGroup (items : List Value) : Text :=
  match items with
  | [v] => '(' :: display v ++ ",)"
  | vs => '(' :: Text.join ", " (displayItems vs) ++ [')']

end Literate.Value

namespace Literate.Json

def unit (n : Nat) : Text := '\\' :: 'u' :: Text.ofNatPadded 16 4 n

/-- Characters beyond the basic plane are written as a pair of surrogate units. -/
def escapeChar (c : Char) : Text :=
  if c = '"' ∨ c = '\\' then ['\\', c]
  else if c = '\n' then ['\\', 'n']
  else if c = '\r' then ['\\', 'r']
  else if c = '\t' then ['\\', 't']
  else if c = '\x08' then ['\\', 'b']
  else if c = '\x0c' then ['\\', 'f']
  else if ' ' ≤ c ∧ c ≤ '~' then [c]
  else if c.toNat < 0x10000 then unit c.toNat
  else
    let n := c.toNat - 0x10000
    unit (0xD800 + n / 0x400) ++ unit (0xDC00 + n % 0x400)

def string (s : Text) : Text := '"' :: s.flatMap escapeChar ++ ['"']

def float (x : Float) : Text :=
  if x.isNaN then "NaN"
  else if x.isInf then (if x < 0 then "-Infinity" else "Infinity")
  else Decimal.ofFloat x

mutual

def render : Value → Text
  | .null => "null"
  | .bool b => (if b then "true" else "false" : String)
  | .int i => Text.ofInt i
  | .float x => float x
  | .text s => string s
  | .list items => '[' :: Text.join ", " (renderItems items) ++ [']']
  | .object fields => '\x7b' :: Text.join ", " (renderFields fields) ++ ['\x7d']

def renderItems : List Value → List Text
  | [] => []
  | v :: vs => render v :: renderItems vs

def renderFields : List (Text × Value) → List Text
  | [] => []
  | (k, v) :: rest => (string k ++ ": " ++ render v) :: renderFields rest

end

end Literate.Json
