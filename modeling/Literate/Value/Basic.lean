import Literate.Number.Shortest

namespace Literate

/-- An integer of any size or a float; each is printed as the kind it is. -/
inductive Number where
  | int (i : Int)
  | float (x : Float)

inductive Value where
  | null
  | bool (b : Bool)
  | int (i : Int)
  | float (x : Float)
  | text (s : Text)
  | list (items : List Value)
  | object (fields : List (Text × Value))

abbrev Fields := List (Text × Value)

instance : Coe Text Value := ⟨.text⟩

instance : Inhabited Value := ⟨.null⟩

namespace Number

def toFloat : Number → Float
  | .int i => Float.ofInt i
  | .float x => x

def toValue : Number → Value
  | .int i => .int i
  | .float x => .float x

instance : Coe Number Value := ⟨toValue⟩

/-- Integers stay integers; with a float on either side the result is a float. -/
def add : Number → Number → Number
  | .int a, .int b => .int (a + b)
  | a, b => .float (a.toFloat + b.toFloat)

def sub : Number → Number → Number
  | .int a, .int b => .int (a - b)
  | a, b => .float (a.toFloat - b.toFloat)

instance : Add Number := ⟨add⟩

instance : Sub Number := ⟨sub⟩

/-- The order of the numbers themselves: an integer is compared with a float without rounding it. -/
def before : Number → Number → Bool
  | .int a, .int b => a < b
  | .float x, .float y => x < y
  | .float x, .int b => if x.isNaN || x.isInf then x < 0.0 else Decimal.floor x < b
  | .int a, .float y => if y.isNaN || y.isInf then 0.0 < y else a < -Decimal.floor (-y)

instance : LT Number := ⟨fun a b => before a b = true⟩

instance : DecidableLT Number := fun a b => inferInstanceAs (Decidable (before a b = true))

/-- At most zero, which an undefined number is not. -/
def isNotAboveZero : Number → Bool
  | .int i => i ≤ 0
  | .float x => x ≤ 0.0

end Number

namespace Value

def toNumber? : Value → Option Number
  | .int i => some (.int i)
  | .float x => some (.float x)
  | .bool b => some (.int (if b then 1 else 0))
  | _ => none

/-- Whether a value counts as present: null, false, zero and everything empty do not. -/
def isTruthy : Value → Bool
  | .null => false
  | .bool b => b
  | .int i => i != 0
  | .float x => x != 0.0
  | .text s => !s.isEmpty
  | .list items => !items.isEmpty
  | .object fields => !fields.isEmpty

end Value

namespace Fields

def get? (fields : Fields) (name : Text) : Option Value := fields.lookup name

/-- Replaces the value of a name that is present and otherwise adds the name at the end. -/
def set (fields : Fields) (name : Text) (v : Value) : Fields :=
  if fields.any (·.1 == name) then fields.map fun p => if p.1 = name then (name, v) else p
  else fields ++ [(name, v)]

def update (fields more : Fields) : Fields := more.foldl (fun fs p => set fs p.1 p.2) fields

end Fields

end Literate
