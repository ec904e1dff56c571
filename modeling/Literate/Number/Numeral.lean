import Literate.Number.Shortest
import Literate.Text.Basic

namespace Literate.Numeral

def isAsciiDigit (c : Char) : Bool := '0' ≤ c && c ≤ '9'

/-- Drops the underscores of a text: none may stand in front, at the end or beside another. -/
def ungroup : Text → Option Text
  | [] => some []
  | c :: '_' :: d :: s =>
    if c = '_' ∨ d = '_' then none else (ungroup (d :: s)).map (c :: ·)
  | c :: s => if c = '_' then none else (ungroup s).map (c :: ·)

def natOfDigits (s : Text) : Nat := s.foldl (fun n c => 10 * n + (c.toNat - '0'.toNat)) 0

def digits? (s : Text) : Option Text :=
  if s.isEmpty || !s.all isAsciiDigit then none else some s

def sign : Text → Bool × Text
  | '-' :: s => (true, s)
  | '+' :: s => (false, s)
  | s => (false, s)

/-- Blanks of the White_Space property, which the information separators lack. -/
def isSpace (c : Char) : Bool := Text.isBlankChar c && !(0x1C ≤ c.toNat && c.toNat ≤ 0x1F)

def stripSpaces (s : Text) : Text := Text.dropEndWhile isSpace (s.dropWhile isSpace)

/-- The greatest number of characters of an integer, its minus sign included. -/
def maxIntegerLength : Nat := 4300

inductive Refusal where
  | unreadable
  | oversized
deriving DecidableEq

/-- The part behind leading zeros and the underscores among them, `last` being the one just passed:
it starts with another digit or a minus sign, or it is a single character before a point or the
end. -/
def afterZeros? (last : Char) : Text → Option Text
  | [] => some [last]
  | c :: s =>
    if c = '0' ∨ c = '_' then afterZeros? c s
    else if c = '.' then some (last :: c :: s)
    else if isAsciiDigit c ∨ c = '-' then some (c :: s)
    else none

/-- Digits from the first significant one on. -/
def significantDigits? : Text → Option Text
  | [] => none
  | c :: s =>
    if c = '0' then afterZeros? c s
    else if isAsciiDigit c then some (c :: s)
    else none

/-- An integer without a plus sign and leading zeros. -/
def significant? : Text → Option Text
  | '+' :: s => significantDigits? s
  | '-' :: s => (significantDigits? s).map ('-' :: ·)
  | s => significantDigits? s

/-- Drops a fraction of zeros, at least one of them. -/
def dropZeroFraction (s : Text) : Text :=
  let fraction := (s.dropWhile (· != '.')).drop 1
  if fraction.isEmpty || fraction.any (· != '0') then s else s.takeWhile (· != '.')

/-- An integer in its only form: zero, or digits of which the first is not zero, behind at most a
minus sign. The length is judged before what follows the digits. -/
def canonicalInteger (s : Text) : Except Refusal Int :=
  let negative := s.head? == some '-'
  let magnitude := if negative then s.drop 1 else s
  let digits := magnitude.takeWhile isAsciiDigit
  if magnitude = ['0'] then .ok 0
  else if digits.isEmpty || digits.head? == some '0' then .error .unreadable
  else if maxIntegerLength < digits.length + (if negative then 1 else 0) then .error .oversized
  else if digits.length < magnitude.length then .error .unreadable
  else .ok (if negative then -(natOfDigits digits : Int) else natOfDigits digits)

/-- An integer numeral: blanks around it, a plus sign, leading zeros, a fraction of zeros and single
underscores are passed over. A minus sign may stand behind leading zeros too, but not behind another
sign. -/
def integer (s : Text) : Except Refusal Int :=
  match significant? (stripSpaces s) with
  | none => .error .unreadable
  | some s =>
    let s := dropZeroFraction s
    canonicalInteger ((ungroup s).getD s)

def exponent? : Text → Option Int
  | [] => some 0
  | c :: s =>
    if c = 'e' ∨ c = 'E' then do
      let (negative, s) := sign s
      let digits ← digits? s
      let n := natOfDigits digits
      return if negative then -(n : Int) else n
    else none

/-- A decimal numeral with an optional point, needing a digit on one side of it. -/
def magnitude? (s : Text) : Option Float := do
  let whole := s.takeWhile isAsciiDigit
  let rest := s.dropWhile isAsciiDigit
  let (fraction, rest) := match rest with
    | '.' :: r => (r.takeWhile isAsciiDigit, r.dropWhile isAsciiDigit)
    | r => ([], r)
  let digits ← digits? (whole ++ fraction)
  let e ← exponent? rest
  return Decimal.toFloat (natOfDigits digits) (e - fraction.length)

/-- A float numeral without underscores, the names of the infinities and of the undefined number in
any ASCII case included. -/
def plainFloat? (s : Text) : Option Float := do
  let (negative, s) := sign s
  let lowered := s.map Char.toLower
  let x ←
    if lowered = ("inf" : Text) ∨ lowered = ("infinity" : Text) then some (1.0 / 0.0)
    else if lowered = ("nan" : Text) then some (0.0 / 0.0)
    else magnitude? s
  return if negative then -x else x

/-- A float numeral, either with blanks around or with underscores between digits. -/
def float? (s : Text) : Option Float :=
  plainFloat? (stripSpaces s) <|> (ungroup s).bind plainFloat?

end Literate.Numeral
