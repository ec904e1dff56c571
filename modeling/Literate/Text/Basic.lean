namespace Literate

/-- Closed ranges of code points, in increasing order. -/
abbrev CharSet := List (Nat × Nat)

def CharSet.contains (s : CharSet) (c : Char) : Bool :=
  s.any fun r => r.1 ≤ c.toNat && c.toNat ≤ r.2

/-- The code points of the zeros; each is followed by the nine other digits of its script. -/
def digitZeros : List Nat :=
  [0x30, 0x660, 0x6F0, 0x7C0, 0x966, 0x9E6, 0xA66, 0xAE6, 0xB66, 0xBE6, 0xC66, 0xCE6, 0xD66,
   0xDE6, 0xE50, 0xED0, 0xF20, 0x1040, 0x1090, 0x17E0, 0x1810, 0x1946, 0x19D0, 0x1A80, 0x1A90,
   0x1B50, 0x1BB0, 0x1C40, 0x1C50, 0xA620, 0xA8D0, 0xA900, 0xA9D0, 0xA9F0, 0xAA50, 0xABF0, 0xFF10,
   0x104A0, 0x10D30, 0x11066, 0x110F0, 0x11136, 0x111D0, 0x112F0, 0x11450, 0x114D0, 0x11650,
   0x116C0, 0x11730, 0x118E0, 0x11950, 0x11C50, 0x11D50, 0x11DA0, 0x16A60, 0x16AC0, 0x16B50,
   0x1D7CE, 0x1D7D8, 0x1D7E2, 0x1D7EC, 0x1D7F6, 0x1E140, 0x1E2F0, 0x1E950, 0x1FBF0]

def isDecimalDigit (c : Char) : Bool := digitZeros.any fun z => z ≤ c.toNat && c.toNat < z + 10

abbrev Text := List Char

instance : Coe String Text := ⟨String.toList⟩

/-- Membership among texts is decided in one way throughout. -/
instance Text.decidableMem (t : Text) (ts : List Text) : Decidable (t ∈ ts) := inferInstance

namespace Text

def blankCharacters : CharSet :=
  [(0x9, 0xD), (0x1C, 0x20), (0x85, 0x85), (0xA0, 0xA0), (0x1680, 0x1680), (0x2000, 0x200A),
   (0x2028, 0x2029), (0x202F, 0x202F), (0x205F, 0x205F), (0x3000, 0x3000)]

def isBlankChar (c : Char) : Bool := blankCharacters.contains c

/-- A space or a tab, the only indentation that a body line keeps. -/
def isIndentChar (c : Char) : Bool := c == ' ' || c == '\t'

def dropEndWhile (p : Char → Bool) (s : Text) : Text := (s.reverse.dropWhile p).reverse

def trimStart (s : Text) : Text := s.dropWhile isBlankChar

def trimEnd (s : Text) : Text := dropEndWhile isBlankChar s

def trim (s : Text) : Text := trimEnd (trimStart s)

def isBlank (s : Text) : Bool := s.all isBlankChar

/-- The pieces between the separators: one more than there are separators. -/
def splitOn (sep : Char) : Text → List Text
  | [] => [[]]
  | c :: s =>
    if c = sep then [] :: splitOn sep s
    else match splitOn sep s with
      | [] => [[c]]
      | p :: ps => (c :: p) :: ps

def join (sep : Text) (pieces : List Text) : Text := sep.intercalate pieces

/-- A carriage return directly before a line feed is dropped. -/
def unixNewlines : Text → Text
  | [] => []
  | '\r' :: '\n' :: s => '\n' :: unixNewlines s
  | c :: s => c :: unixNewlines s

/-- Every line end becomes one line feed, a carriage return on its own included. -/
def universalNewlines : Text → Text
  | [] => []
  | '\r' :: '\n' :: s => '\n' :: universalNewlines s
  | c :: s => (if c = '\r' then '\n' else c) :: universalNewlines s

def byteOrderMark : Char := '\ufeff'

/-- A byte order mark in front is no part of the text; a second one is. -/
def withoutMark : Text → Text
  | [] => []
  | c :: s => if c = byteOrderMark then s else c :: s

def lines (s : Text) : List Text := splitOn '\n' s

def joinLines (ls : List Text) : Text := join ['\n'] ls

def startsWith (head s : Text) : Bool := head.isPrefixOf s

def endsWith (tail s : Text) : Bool := tail.isSuffixOf s

def afterPrefix? (head s : Text) : Option Text :=
  if startsWith head s then some (s.drop head.length) else none

def beforeSuffix? (tail s : Text) : Option Text :=
  if endsWith tail s then some (s.take (s.length - tail.length)) else none

def ofNat (n : Nat) : Text := Nat.toDigits 10 n

def ofInt : Int → Text
  | .ofNat n => ofNat n
  | .negSucc n => '-' :: ofNat (n + 1)

/-- The numeral padded with zeros on the left to `width` digits. -/
def ofNatPadded (base width n : Nat) : Text :=
  let digits := Nat.toDigits base n
  List.replicate (width - digits.length) '0' ++ digits

def padEnd (width : Nat) (s : Text) : Text := s ++ List.replicate (width - s.length) ' '

/-- Comparison by code points, a shorter text before its extensions. -/
def le (s t : Text) : Bool := !decide (t < s)

theorem unixNewlines_length_le (s : Text) : (unixNewlines s).length ≤ s.length := by
  fun_induction unixNewlines s <;> grind

theorem splitOn_ne_nil (sep : Char) (s : Text) : splitOn sep s ≠ [] := by
  cases s with
  | nil => simp [splitOn]
  | cons c s => unfold splitOn; split <;> (try split) <;> simp

end Text

end Literate
