import Literate.Text.Lower

namespace Literate

inductive Encoding where
  | utf8
  /-- UTF-8 behind a byte order mark. -/
  | utf8Marked
  | latin1
  | ascii
  | windows1252
  | utf16le
deriving DecidableEq

abbrev Bytes := List UInt8

/-- The bytes from `start` up to `stop` have no meaning; `first` is the first of them. -/
structure DecodeFault where
  codec : Text
  first : UInt8
  start : Nat
  stop : Nat
  reason : Text

/-- The characters from `start` up to `stop` have no bytes; `first` is the first of them. -/
structure EncodeFault where
  codec : Text
  first : Char
  start : Nat
  stop : Nat
  reason : Text

namespace DecodeFault

def message (f : DecodeFault) : Text :=
  "'" ++ f.codec ++ "' codec can't decode " ++
    (if f.stop = f.start + 1 then
      "byte 0x" ++ Text.ofNatPadded 16 2 f.first.toNat ++ " in position " ++ Text.ofNat f.start
    else
      "bytes in position " ++ Text.ofNat f.start ++ "-" ++ Text.ofNat (f.stop - 1)) ++
    ": " ++ f.reason

end DecodeFault

namespace EncodeFault

def shownChar (c : Char) : Text :=
  let n := c.toNat
  if n < 0x100 then "\\x" ++ Text.ofNatPadded 16 2 n
  else if n < 0x10000 then "\\u" ++ Text.ofNatPadded 16 4 n
  else "\\U" ++ Text.ofNatPadded 16 8 n

def message (f : EncodeFault) : Text :=
  "'" ++ f.codec ++ "' codec can't encode " ++
    (if f.stop = f.start + 1 then
      "character '" ++ shownChar f.first ++ "' in position " ++ Text.ofNat f.start
    else
      "characters in position " ++ Text.ofNat f.start ++ "-" ++ Text.ofNat (f.stop - 1)) ++
    ": " ++ f.reason

end EncodeFault

namespace Encoding

def normalizeName (name : Text) : Text :=
  let lowered := name.map Char.toLower
  let marked := lowered.map fun c => if c.isAlphanum || c == '.' then c else '_'
  let pieces := (Text.splitOn '_' marked).filter (!·.isEmpty)
  Text.join ['_'] pieces

def names : List (String × Encoding) :=
  [("utf_8", utf8), ("utf8", utf8), ("u8", utf8), ("utf", utf8), ("cp65001", utf8),
   ("utf8_ucs2", utf8), ("utf8_ucs4", utf8), ("utf_8_sig", utf8Marked),
   ("latin_1", latin1), ("latin1", latin1), ("latin", latin1), ("l1", latin1), ("8859", latin1),
   ("cp819", latin1), ("iso8859", latin1), ("iso8859_1", latin1), ("iso_8859_1", latin1),
   ("iso_8859_1_1987", latin1), ("iso_ir_100", latin1), ("csisolatin1", latin1),
   ("ibm819", latin1), ("ascii", ascii), ("us_ascii", ascii), ("us", ascii), ("646", ascii),
   ("cp367", ascii), ("csascii", ascii), ("ibm367", ascii), ("iso646_us", ascii),
   ("iso_ir_6", ascii), ("ansi_x3_4_1968", ascii), ("ansi_x3_4_1986", ascii),
   ("iso_646.irv_1991", ascii), ("cp1252", windows1252), ("1252", windows1252),
   ("windows_1252", windows1252), ("utf_16_le", utf16le), ("utf_16le", utf16le),
   ("unicodelittleunmarked", utf16le)]

def ofName? (name : Text) : Option Encoding :=
  let n := normalizeName name
  (names.find? fun p => p.1.toList == n).map (·.2)

def codec : Encoding → Text
  | utf8 | utf8Marked => "utf-8"
  | latin1 => "latin-1"
  | ascii => "ascii"
  | windows1252 => "charmap"
  | utf16le => "utf-16-le"

/-- How many bytes follow a first byte, the least and the greatest second byte, and the bits that
the first byte contributes. -/
def leadByte? (b : Nat) : Option (Nat × Nat × Nat × Nat) :=
  if b < 0x80 then some (0, 0, 0, b)
  else if 0xC2 ≤ b ∧ b ≤ 0xDF then some (1, 0x80, 0xBF, b - 0xC0)
  else if b = 0xE0 then some (2, 0xA0, 0xBF, 0)
  else if b = 0xED then some (2, 0x80, 0x9F, 0xD)
  else if 0xE1 ≤ b ∧ b ≤ 0xEF then some (2, 0x80, 0xBF, b - 0xE0)
  else if b = 0xF0 then some (3, 0x90, 0xBF, 0)
  else if 0xF1 ≤ b ∧ b ≤ 0xF3 then some (3, 0x80, 0xBF, b - 0xF0)
  else if b = 0xF4 then some (3, 0x80, 0x8F, 4)
  else none

/-- Takes `n` continuation bytes, the first of them between `low` and `high`; gives the value and
how many were good. -/
def continuation (n low high value : Nat) : Bytes → Nat × Nat
  | [] => (value, 0)
  | b :: bs =>
    if n = 0 then (value, 0)
    else if low ≤ b.toNat ∧ b.toNat ≤ high then
      let (v, k) := continuation (n - 1) 0x80 0xBF (value * 64 + (b.toNat - 0x80)) bs
      (v, k + 1)
    else (value, 0)

def decodeUtf8 (start : Nat) (skip : Nat) : Bytes → Except DecodeFault Text
  | [] => .ok []
  | b :: bs =>
    if 0 < skip then decodeUtf8 (start + 1) (skip - 1) bs
    else
      let fault (len : Nat) (reason : Text) := DecodeFault.mk "utf-8" b start (start + len) reason
      match leadByte? b.toNat with
      | none => .error (fault 1 "invalid start byte")
      | some (n, low, high, value) =>
        let (v, good) := continuation n low high value bs
        if good = n then (decodeUtf8 (start + 1) n bs).map (Char.ofNat v :: ·)
        else if good = bs.length then .error (fault (bs.length + 1) "unexpected end of data")
        else .error (fault (good + 1) "invalid continuation byte")

def encodeUtf8Char (c : Char) : Bytes :=
  let n := c.toNat
  let tail (unit : Nat) : UInt8 := (0x80 + n / unit % 64).toUInt8
  if n < 0x80 then [n.toUInt8]
  else if n < 0x800 then [(0xC0 + n / 64).toUInt8, tail 1]
  else if n < 0x10000 then [(0xE0 + n / 0x1000).toUInt8, tail 64, tail 1]
  else [(0xF0 + n / 0x40000).toUInt8, tail 0x1000, tail 64, tail 1]

def encodeUtf8 (s : Text) : Bytes := s.flatMap encodeUtf8Char

def byteOrderMark : Bytes := [0xEF, 0xBB, 0xBF]

/-- A mark is dropped, and so is the beginning of one when nothing follows it. -/
def decodeMarked (bytes : Bytes) : Except DecodeFault Text :=
  if bytes.length < 3 && bytes.isPrefixOf byteOrderMark then .ok []
  else if byteOrderMark.isPrefixOf bytes then decodeUtf8 0 0 (bytes.drop 3)
  else decodeUtf8 0 0 bytes

def decodeUtf16 (start : Nat) : Bytes → Except DecodeFault Text
  | [] => .ok []
  | [b] => .error ⟨"utf-16-le", b, start, start + 1, "truncated data"⟩
  | b :: b' :: bs =>
    let fault (len : Nat) (reason : Text) :=
      DecodeFault.mk "utf-16-le" b start (start + len) reason
    let u := b.toNat + 256 * b'.toNat
    if u < 0xD800 ∨ 0xE000 ≤ u then (decodeUtf16 (start + 2) bs).map (Char.ofNat u :: ·)
    else if 0xDC00 ≤ u then .error (fault 2 "illegal encoding")
    else
      match bs with
      | [] | [_] => .error (fault (2 + bs.length) "unexpected end of data")
      | d :: d' :: rest =>
        let v := d.toNat + 256 * d'.toNat
        if 0xDC00 ≤ v ∧ v < 0xE000 then
          let c := Char.ofNat (0x10000 + (u - 0xD800) * 0x400 + (v - 0xDC00))
          (decodeUtf16 (start + 4) rest).map (c :: ·)
        else .error (fault 2 "illegal UTF-16 surrogate")

def unitBytes (u : Nat) : Bytes := [(u % 256).toUInt8, (u / 256).toUInt8]

def encodeUtf16Char (c : Char) : Bytes :=
  let n := c.toNat
  if n < 0x10000 then unitBytes n
  else
    unitBytes (0xD800 + (n - 0x10000) / 0x400) ++ unitBytes (0xDC00 + (n - 0x10000) % 0x400)

/-- The characters of the bytes 80 to 9F; a zero marks a byte without one. -/
def windows1252High : List Nat :=
  [0x20AC, 0, 0x201A, 0x192, 0x201E, 0x2026, 0x2020, 0x2021, 0x2C6, 0x2030, 0x160, 0x2039, 0x152,
   0, 0x17D, 0, 0, 0x2018, 0x2019, 0x201C, 0x201D, 0x2022, 0x2013, 0x2014, 0x2DC, 0x2122, 0x161,
   0x203A, 0x153, 0, 0x17E, 0x178]

def byteChar? (e : Encoding) (b : UInt8) : Option Char :=
  let n := b.toNat
  match e with
  | ascii => if n < 0x80 then some (Char.ofNat n) else none
  | windows1252 =>
    if 0x80 ≤ n ∧ n < 0xA0 then
      match windows1252High.getD (n - 0x80) 0 with
      | 0 => none
      | m => some (Char.ofNat m)
    else some (Char.ofNat n)
  | _ => some (Char.ofNat n)

def charByte? (e : Encoding) (c : Char) : Option UInt8 :=
  let n := c.toNat
  match e with
  | ascii => if n < 0x80 then some n.toUInt8 else none
  | windows1252 =>
    if n < 0x80 ∨ (0xA0 ≤ n ∧ n < 0x100) then some n.toUInt8
    else if n = 0 then none
    else (windows1252High.idxOf? n).map fun i => (0x80 + i).toUInt8
  | _ => if n < 0x100 then some n.toUInt8 else none

def byteReason : Encoding → Text
  | ascii => "ordinal not in range(128)"
  | windows1252 => "character maps to <undefined>"
  | _ => "ordinal not in range(256)"

def decodeSingle (e : Encoding) (start : Nat) : Bytes → Except DecodeFault Text
  | [] => .ok []
  | b :: bs =>
    match byteChar? e b with
    | some c => (decodeSingle e (start + 1) bs).map (c :: ·)
    | none => .error ⟨e.codec, b, start, start + 1, byteReason e⟩

/-- A failure covers all the characters without bytes that stand together. -/
def encodeSingle (e : Encoding) (start : Nat) : Text → Except EncodeFault Bytes
  | [] => .ok []
  | c :: s =>
    match charByte? e c with
    | some b => (encodeSingle e (start + 1) s).map (b :: ·)
    | none =>
      let run := (s.takeWhile fun d => (charByte? e d).isNone).length
      .error ⟨e.codec, c, start, start + 1 + run, byteReason e⟩

def decode (e : Encoding) (bytes : Bytes) : Except DecodeFault Text :=
  match e with
  | utf8 => decodeUtf8 0 0 bytes
  | utf8Marked => decodeMarked bytes
  | utf16le => decodeUtf16 0 bytes
  | _ => decodeSingle e 0 bytes

def encode (e : Encoding) (s : Text) : Except EncodeFault Bytes :=
  match e with
  | utf8 => .ok (encodeUtf8 s)
  | utf8Marked => .ok (byteOrderMark ++ encodeUtf8 s)
  | utf16le => .ok (s.flatMap encodeUtf16Char)
  | _ => encodeSingle e 0 s

end Encoding

end Literate
