import ScriptHost.Text.Utf8

/-!
# Decoding a stream that arrives in chunks

A decoder holds back the incomplete tail of what it has seen, so a character
cut in two by a chunk border comes out whole with the second chunk.
-/
namespace ScriptHost

/-- A decoder between two chunks; `pending` is empty or a proper prefix of a well-formed sequence.
Mirrors `Utf8Decoder`. -/
structure Decoder where
  pending : List UInt8 := []
  deriving DecidableEq, Repr, Inhabited

namespace Decoder

/-- The text completed by one more chunk. Mirrors `Utf8Decoder.decode`. -/
def decode (d : Decoder) (chunk : List UInt8) : String × Decoder :=
  let (text, tail) := Utf8.scan (d.pending ++ chunk)
  (text, ⟨tail⟩)

/-- The text of what is still held back; the decoder starts afresh. Mirrors `Utf8Decoder.finish`. -/
def finish (d : Decoder) : String × Decoder := (Utf8.lossy d.pending, ⟨[]⟩)

end Decoder
end ScriptHost
