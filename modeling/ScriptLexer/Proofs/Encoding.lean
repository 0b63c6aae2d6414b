import ScriptLexer.Text.Utf8

/-!
The bytes of a text. They are the only ones that the text is read from, and a byte of the
lower half stands for a character by itself wherever it is met.
-/

namespace ScriptLexer.Text

def encodeUtf8 (text : List Char) : List UInt8 :=
  text.flatMap String.utf8EncodeChar

theorem encodeUtf8_append (first second : List Char) :
    encodeUtf8 (first ++ second) = encodeUtf8 first ++ encodeUtf8 second :=
  List.flatMap_append

theorem decodeUtf8?_eq_some_iff {bytes : List UInt8} {text : String} :
    decodeUtf8? bytes = some text ↔ bytes = encodeUtf8 text.toList := by
  have hbytes : (⟨bytes.toArray⟩ : ByteArray) = bytes.toByteArray :=
    ByteArray.ext List.data_toByteArray.symm
  have htext : (encodeUtf8 text.toList).toByteArray = text.toByteArray :=
    String.utf8Encode_toList
  rw [decodeUtf8?, String.fromUTF8?, hbytes]
  constructor
  · intro h
    split at h
    · obtain rfl := Option.some.inj h
      exact List.toByteArray_inj.1 htext.symm
    · contradiction
  · rintro rfl
    rw [dif_pos (htext ▸ text.isValidUTF8)]
    apply congrArg
    apply String.toByteArray_inj.1
    exact htext

theorem decodeUtf8?_encodeUtf8 (text : String) :
    decodeUtf8? (encodeUtf8 text.toList) = some text :=
  decodeUtf8?_eq_some_iff.2 rfl

example : decodeUtf8? [0xC3, 0xA9] = some "é" ∧ decodeUtf8? [0xC0, 0x80] = none := by
  decide +kernel

/-- A byte of the lower half encodes a character by itself, and nothing else holds it. -/
theorem eq_ofNat_of_mem_utf8EncodeChar {c : Char} {byte : UInt8}
    (h : byte ∈ String.utf8EncodeChar c) (hbyte : byte.toNat < 128) :
    c = Char.ofNat byte.toNat := by
  have hupper : ∀ n, 128 ≤ n % 256 → byte ≠ UInt8.ofNat n := by
    rintro n hn rfl
    rw [UInt8.toNat_ofNat'] at hbyte
    omega
  unfold String.utf8EncodeChar at h
  simp only at h
  split at h
  · next hsmall =>
    rw [List.mem_singleton.1 h, UInt8.toNat_ofNat', Nat.mod_eq_of_lt (by omega)]
    exact (Char.ofNat_toNat c).symm
  · -- The other characters are encoded by bytes of the upper half only.
    split at h
    · simp only [List.mem_cons, List.not_mem_nil, or_false] at h
      rcases h with h | h <;> exact absurd h (hupper _ (by omega))
    · split at h <;> simp only [List.mem_cons, List.not_mem_nil, or_false] at h
      · rcases h with h | h | h <;> exact absurd h (hupper _ (by omega))
      · rcases h with h | h | h | h <;> exact absurd h (hupper _ (by omega))

end ScriptLexer.Text
