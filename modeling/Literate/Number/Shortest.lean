import Literate.Text.Basic

namespace Literate

/-- The number `mantissa · 2 ^ exponent`; `lowest` marks a mantissa whose lower neighbour is half as
far away as its upper one. -/
structure Binary where
  mantissa : Nat
  exponent : Int
  lowest : Bool

namespace Binary

def leadingBit : Nat := 0x10000000000000

/-- The magnitude of a finite double with these bits. -/
def ofBits (bits : Nat) : Binary :=
  let biased : Nat := bits / leadingBit % 2048
  let fraction : Nat := bits % leadingBit
  if biased = 0 then ⟨fraction, -1074, false⟩
  else ⟨fraction + leadingBit, (biased : Int) - 1075, fraction == 0 && 1 < biased⟩

/-- The value of one unit of the mantissa in units of `10 ^ k`, as a quotient. -/
def unit (b : Binary) (k : Int) : Nat × Nat :=
  (Nat.pow 2 b.exponent.toNat * Nat.pow 10 (-k).toNat,
    Nat.pow 2 (-b.exponent).toNat * Nat.pow 10 k.toNat)

/-- The exponent `k` with `10 ^ k ≤ b < 10 ^ (k + 1)`, for a positive number. -/
def magnitude (b : Binary) : Int :=
  let (num, den) := b.unit 0
  let value := b.mantissa * num
  if den ≤ value then (Nat.toDigits 10 (value / den)).length - 1
  else -(((List.range 400).find? fun j => den ≤ value * Nat.pow 10 j).getD 400 : Nat)

/-- Whether `d · 10 ^ k` lies among the reals that round to `b`; the ends of that interval belong to
it when the mantissa is even. -/
def readsBack (b : Binary) (k : Int) (d : Nat) : Bool :=
  let (num, den) := b.unit k
  let low := (4 * b.mantissa - if b.lowest then 1 else 2) * num
  let high := (4 * b.mantissa + 2) * num
  let x := 4 * den * d
  if b.mantissa % 2 = 0 then low ≤ x && x ≤ high else low < x && x < high

/-- The neighbour of `b` on the grid of multiples of `10 ^ k` that reads back, the nearer one of two
and of two equally near ones the even one. -/
def onGrid? (b : Binary) (k : Int) : Option Nat :=
  let (num, den) := b.unit k
  let value := b.mantissa * num
  let d := value / den
  let below := 2 * (value - d * den)
  let candidates :=
    if below < den ∨ (below = den ∧ d % 2 = 0) then [d, d + 1] else [d + 1, d]
  candidates.find? (b.readsBack k)

/-- Decimal digits and the exponent of the last one, on the first grid that reads back. -/
def shortest (b : Binary) : Text × Int :=
  let top := b.magnitude
  let hit := (List.range 18).findSome? fun (n : Nat) =>
    (b.onGrid? (top - n)).map fun d => (d, top - (n : Int))
  let (d, k) := hit.getD (0, 0)
  let digits := Text.ofNat d
  let kept := Text.dropEndWhile (· == '0') digits
  (kept, k + (digits.length - kept.length : Nat))

/-- The integer nearest to `b · 10 ^ places`, a half going to the even neighbour. -/
def roundScaled (b : Binary) (places : Nat) : Nat :=
  let (num, den) := b.unit (-(places : Int))
  let value := b.mantissa * num
  let q := value / den
  let r := 2 * (value % den)
  if den < r ∨ (r = den ∧ q % 2 = 1) then q + 1 else q

/-- The greatest integer that is no greater than `b`, or than `-b` if that is asked. -/
def floor (b : Binary) (negative : Bool) : Int :=
  let (num, den) := b.unit 0
  let value := b.mantissa * num
  if negative then -((value + den - 1) / den : Nat) else (value / den : Nat)

end Binary

namespace Decimal

def signBit : Nat := 0x8000000000000000

/-- Digits with a point `point` places from the left: positional from `1e-4` up to below `1e16`,
with a fraction always shown, and otherwise scientific with at least two digits of exponent. -/
def layout (digits : Text) (point : Int) : Text :=
  if -4 < point ∧ point ≤ 16 then
    if point ≤ 0 then '0' :: '.' :: List.replicate (-point).toNat '0' ++ digits
    else
      let n := point.toNat
      let whole := digits.take n ++ List.replicate (n - digits.length) '0'
      let fraction := digits.drop n
      whole ++ '.' :: (if fraction.isEmpty then ['0'] else fraction)
  else
    let e := point - 1
    let lead := digits.take 1 ++ (if digits.length ≤ 1 then [] else '.' :: digits.drop 1)
    lead ++ 'e' :: (if e < 0 then '-' else '+') :: Text.ofNatPadded 10 2 e.natAbs

/-- Decimal text of a float; infinities and the undefined number by name. -/
def ofFloat (x : Float) : Text :=
  if x.isNaN then "nan"
  else
    let bits := x.toBits.toNat
    let sign : Text := if bits / signBit = 1 then ['-'] else []
    sign ++
      if x.isInf then ("inf" : Text)
      else if bits % signBit = 0 then ("0.0" : Text)
      else
        let (digits, k) := (Binary.ofBits (bits % signBit)).shortest
        layout digits (k + digits.length)

/-- The float nearest to `m · 10 ^ e`. -/
def toFloat (m : Nat) (e : Int) : Float :=
  let top := e + (Nat.toDigits 10 m).length
  if m = 0 ∨ top < -400 then 0.0
  else if 400 < top then 1.0 / 0.0
  else if e < 0 then Float.ofScientific m true e.natAbs
  else Float.ofScientific (m * Nat.pow 10 e.toNat) false 0

/-- The float nearest to `x` among those with that many decimal places, a half going to the even
neighbour. -/
def roundPlaces (places : Nat) (x : Float) : Float :=
  if x.isNaN || x.isInf then x
  else
    let bits := x.toBits.toNat
    let y := toFloat ((Binary.ofBits (bits % signBit)).roundScaled places) (-(places : Int))
    if bits / signBit = 1 then -y else y

/-- The greatest integer that is no greater than a finite float. -/
def floor (x : Float) : Int :=
  let bits := x.toBits.toNat
  (Binary.ofBits (bits % signBit)).floor (bits / signBit = 1)

end Decimal

end Literate
