import ScriptHost.Proofs.Text.Lossy
import ScriptHost.Text.Decoder

/-!
# Chunks

A decoder gets a byte string in pieces. However the string is cut, the texts of
the pieces and what the decoder gives up at the end make the text of the whole:
`feed_finish`.
-/
namespace ScriptHost

namespace Utf8

theorem toList_loop (b : ByteArray) (i : Nat) (acc : List UInt8) :
    ByteArray.toList.loop b i acc = acc.reverse ++ b.data.toList.drop i := by
  fun_induction ByteArray.toList.loop b i acc with
  | case1 i acc hi ih =>
    have hi' : i < b.data.toList.length := by simpa using hi
    have hb : b.get! i = b.data.toList[i] := getElem!_pos b.data i (by simpa using hi)
    rw [ih, List.drop_eq_getElem_cons hi', List.reverse_cons, List.append_assoc, hb]
    rfl
  | case2 i acc hi =>
    rw [List.drop_of_length_le (by simpa using hi), List.append_nil]

/-- The bytes of a text. -/
theorem toList_toUTF8 (s : String) : s.toUTF8.toList = s.toList.flatMap String.utf8EncodeChar := by
  rw [ByteArray.toList, toList_loop, String.toUTF8_eq_toByteArray, ← String.utf8Encode_toList]
  simp [List.utf8Encode]

/-- The text of a text's own bytes. -/
theorem lossy_toUTF8 (s : String) : lossy s.toUTF8.toList = s := by
  rw [lossy_eq, toList_toUTF8, scan_encoded, String.ofList_toList]
  exact String.append_empty

end Utf8

namespace Decoder

/-- One chunk after another: their texts joined, and the decoder afterwards. -/
def feed (d : Decoder) : List (List UInt8) → String × Decoder
  | [] => ("", d)
  | chunk :: chunks =>
    let (text, d) := d.decode chunk
    let (rest, d) := d.feed chunks
    (text ++ rest, d)

/-- **A decoder scans what it is fed as if it came in one piece.** -/
theorem feed_eq_scan {d : Decoder} (hd : (Utf8.head d.pending).unit? = none)
    (chunks : List (List UInt8)) :
    d.feed chunks = ((Utf8.scan (d.pending ++ chunks.flatten)).1,
      ⟨(Utf8.scan (d.pending ++ chunks.flatten)).2⟩) := by
  induction chunks generalizing d with
  | nil => simp [feed, Utf8.scan_of_none hd]
  | cons chunk chunks ih =>
    rw [feed, decode]
    simp only
    rw [ih (Utf8.scan_tail _), List.flatten_cons, ← List.append_assoc,
      Utf8.scan_append (d.pending ++ chunk)]

/-- **Chunks do not matter.** The texts of all chunks and of what is given up at the end make the
text of the whole byte string, which is the only one it has; a well-formed string comes out as it
is, with nothing left for the end. Afterwards the decoder is a fresh one. -/
theorem feed_finish (chunks : List (List UInt8)) :
    let (text, d) := ({} : Decoder).feed chunks
    let (rest, d) := d.finish
    text ++ rest = Utf8.lossy chunks.flatten ∧
      (∀ cs, Utf8.Decodes chunks.flatten cs ↔ cs = (text ++ rest).toList) ∧
      (∀ s : String, chunks.flatten = s.toUTF8.toList → text = s ∧ rest = "") ∧ d = {} := by
  rw [feed_eq_scan rfl]
  simp only [List.nil_append, finish]
  rw [← Utf8.lossy_eq]
  refine ⟨rfl, fun cs => Utf8.decodes_iff, fun s hs => ?_, trivial⟩
  rw [hs, Utf8.toList_toUTF8, Utf8.scan_encoded]
  exact ⟨String.ofList_toList, rfl⟩

/-- A character cut in two, and a sequence that is given up at the end. -/
example : ({} : Decoder).feed [[0xC3], [0xA9, 0xE2, 0x82]] = ("é", ⟨[0xE2, 0x82]⟩) := by
  decide +kernel

end Decoder
end ScriptHost
