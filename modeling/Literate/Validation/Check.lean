import Literate.Validation.Issue
import Literate.Number.Numeral

namespace Literate

abbrev Checked (α : Type) := Except (List Issue) α

namespace Checked

def fail {α : Type} (cause : Issue.Cause) : Checked α := .error [⟨[], cause⟩]

/-- The issues of a part, placed inside the whole. -/
def inside {α : Type} (p : Place) (r : Checked α) : Checked α :=
  r.mapError (List.map (Issue.within p))

def both {α β : Type} : Checked α → Checked β → Checked (α × β)
  | .ok a, .ok b => .ok (a, b)
  | .ok _, .error f => .error f
  | .error e, .ok _ => .error e
  | .error e, .error f => .error (e ++ f)

def cons {α : Type} (x : Checked α) (xs : Checked (List α)) : Checked (List α) :=
  (both x xs).map fun p => p.1 :: p.2

/-- Every item checked at its index, starting from `i`. -/
def items {α : Type} (check : Value → Checked α) (i : Nat) : List Value → Checked (List α)
  | [] => .ok []
  | v :: vs => cons (inside (.index i) (check v)) (items check (i + 1) vs)

def required {α : Type} (fields : Fields) (name : Text) (check : Value → Checked α) : Checked α :=
  inside (.field name) <|
    match Fields.get? fields name with
    | some v => check v
    | none => fail .missing

def optional {α : Type} (fields : Fields) (name : Text) (default : α)
    (check : Value → Checked α) : Checked α :=
  match Fields.get? fields name with
  | some v => inside (.field name) (check v)
  | none => .ok default

def text : Value → Checked Text
  | .text s => .ok s
  | _ => fail .notText

def textOf (least : Nat) (most : Option Nat) (v : Value) : Checked Text := do
  let s ← text v
  if s.length < least then fail (.tooShort least)
  else
    match most with
    | some n => if n < s.length then fail (.tooLong n) else .ok s
    | none => .ok s

/-- A float that is an integer of 64 bits. -/
def integerOfFloat (x : Float) : Checked Int :=
  if x.isNaN || x.isInf then fail .infiniteInteger
  else if x.floor != x then fail .fractionalInteger
  else if -9223372036854775808.0 < x && x < 9223372036854775808.0 then .ok x.toInt64.toInt
  else fail .oversizedInteger

def integer : Value → Checked Int
  | .int i => .ok i
  | .bool b => .ok (if b then 1 else 0)
  | .float x => integerOfFloat x
  | .text s =>
    match Numeral.integer s with
    | .ok i => .ok i
    | .error .unreadable => fail .unreadableInteger
    | .error .oversized => fail .oversizedInteger
  | _ => fail .notInteger

/-- Integers beyond the greatest float are no numbers here. -/
def number : Value → Checked Float
  | .int i => if (Float.ofInt i).isInf then fail .notNumber else .ok (Float.ofInt i)
  | .bool b => .ok (if b then 1.0 else 0.0)
  | .float x => .ok x
  | .text s =>
    match Numeral.float? s with
    | some x => .ok x
    | none => fail .unreadableNumber
  | _ => fail .notNumber

def natFrom (least : Nat) (v : Value) : Checked { n : Nat // least ≤ n } := do
  let i ← integer v
  if h : (least : Int) ≤ i then .ok ⟨i.toNat, by omega⟩ else fail (.below least)

def record (name : Text) : Value → Checked Fields
  | .object fields => .ok fields
  | _ => fail (.notRecord name)

/-- The field `kind`, which may be left out where only one kind is possible. -/
def kind (expected : Text) (fields : Fields) : Checked Unit :=
  optional fields "kind" () fun v =>
    match v with
    | .text s => if s = expected then .ok () else fail (.otherKind expected)
    | _ => fail (.otherKind expected)

/-- The kind named by the field `kind` decides which of the alternatives is checked. -/
def tagged {α : Type} (alternatives : List (Text × (Value → Checked α))) (v : Value) :
    Checked α :=
  match v with
  | .object fields =>
    match Fields.get? fields "kind" with
    | none => fail .untagged
    | some tag =>
      let unknown := fail (.unknownTag tag.toText (alternatives.map (·.1)))
      match tag with
      | .text k =>
        match alternatives.lookup k with
        | some check => inside (.field k) (check v)
        | none => unknown
      | _ => unknown
  | _ => fail .notTagged

end Checked

end Literate
