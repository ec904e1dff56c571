import Literate.File.Encoding
import Literate.Weave.Highlighting

namespace Literate

/-- How a codec fails: at a place in what it is given, or in a way of its own. -/
inductive CodecFault (φ : Type) where
  | place (f : φ)
  | otherwise (m : Mishap)

structure Codec where
  decode : Bytes → Except (CodecFault DecodeFault) Text
  encode : Text → Except (CodecFault EncodeFault) Bytes

def Encoding.toCodec (e : Encoding) : Codec where
  decode bytes := (e.decode bytes).mapError .place
  encode s := (e.encode s).mapError .place

/-- What documents are processed with. -/
structure Libraries where
  /-- The codec of a name. -/
  codec : Text → Except Mishap Codec
  highlighter : Weave.Highlighter

namespace Libraries

/-- A name with a zero character is refused before anything is looked for. -/
def nameRefusal? (name : Text) : Option Mishap :=
  if '\x00' ∈ name then some ⟨"ValueError", "embedded null character"⟩ else none

/-- A few encodings, and a highlighter without languages. -/
def bare : Libraries where
  codec name :=
    match Encoding.ofName? name with
    | some e => .ok e.toCodec
    | none => .error ⟨"LookupError", "unknown encoding: " ++ name⟩
  highlighter := .bare

end Libraries

end Literate
