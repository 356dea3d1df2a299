import Responder.Text

/-!
# Encoded texts

The bytes of a text are those of its characters, one after the other; they are decoded to the
text again. A byte of a line feed is a line feed.
-/

namespace Responder.Text

theorem toList_loop (bytes : ByteArray) (i : Nat) (read : List UInt8) :
    ByteArray.toList.loop bytes i read = read.reverse ++ bytes.data.toList.drop i := by
  fun_induction ByteArray.toList.loop bytes i read with
  | case1 i read inside ih =>
    have get : bytes.get! i = bytes.data[i] := getElem!_pos bytes.data i inside
    rw [ih, List.drop_eq_getElem_cons inside, get, List.reverse_cons, List.append_assoc]
    rfl
  | case2 i read outside =>
    rw [List.drop_eq_nil_of_le (Nat.le_of_not_lt outside), List.append_nil]

theorem toList_eq (bytes : ByteArray) : bytes.toList = bytes.data.toList := by
  rw [ByteArray.toList, toList_loop]
  rfl

theorem encodeUtf8_eq (text : String) :
    encodeUtf8 text = text.toList.flatMap String.utf8EncodeChar := by
  unfold encodeUtf8 String.toUTF8
  rw [toList_eq, ← String.utf8Encode_toList]
  exact List.toList_data_toByteArray

theorem encodeUtf8_append (a b : String) : encodeUtf8 (a ++ b) = encodeUtf8 a ++ encodeUtf8 b := by
  rw [encodeUtf8_eq, encodeUtf8_eq, encodeUtf8_eq, String.toList_append, List.flatMap_append]

theorem encodeUtf8_empty : encodeUtf8 "" = [] := encodeUtf8_eq ""

theorem encodeUtf8_lineFeed : encodeUtf8 "\n" = [10] := encodeUtf8_eq "\n"

theorem encodeUtf8_return : encodeUtf8 "\r" = [13] := encodeUtf8_eq "\r"

/-- An encoded text is decoded to the same text. -/
theorem decodeUtf8?_encodeUtf8 (text : String) : decodeUtf8? (encodeUtf8 text) = some text := by
  unfold decodeUtf8? encodeUtf8 String.toUTF8 String.fromUTF8?
  rw [toList_eq]
  exact dif_pos text.isValidUTF8

theorem encodeUtf8_injective : Function.Injective encodeUtf8 := by
  intro a b same
  have decoded := congrArg decodeUtf8? same
  rw [decodeUtf8?_encodeUtf8, decodeUtf8?_encodeUtf8] at decoded
  exact Option.some.inj decoded

theorem mod_of_ofNat_eq_lineFeed {n : Nat} (h : UInt8.ofNat n = 10) : n % 256 = 10 := by
  have value := congrArg UInt8.toNat h
  rwa [UInt8.toNat_ofNat'] at value

theorem lineFeed_not_mem_utf8EncodeChar {c : Char} (h : c ≠ '\n') :
    10 ∉ String.utf8EncodeChar c := by
  have low (n : Nat) (small : n ≤ 127) (same : UInt8.ofNat n = 10) : n = 10 := by
    have value := mod_of_ofNat_eq_lineFeed same
    omega
  have high (n : Nat) (large : 128 ≤ n) (byte : n < 256) : (10 : UInt8) ≠ UInt8.ofNat n := by
    intro same
    have value := mod_of_ofNat_eq_lineFeed same.symm
    omega
  have code : c.val.toNat ≠ 10 := fun same => h (Char.ext (UInt32.toNat_inj.1 same))
  unfold String.utf8EncodeChar
  dsimp only
  split
  · next small =>
    rw [List.mem_singleton]
    exact fun same => code (low _ small same.symm)
  -- All bytes of a longer character have their highest bit set.
  · have later (n : Nat) : (10 : UInt8) ≠ UInt8.ofNat (n % 64 + 128) :=
      high _ (by omega) (by omega)
    split
    · have first := high (c.val.toNat / 64 % 32 + 192) (by omega) (by omega)
      simp only [List.mem_cons, List.not_mem_nil, first, later, or_self, not_false_eq_true]
    split
    · have first := high (c.val.toNat / 4096 % 16 + 224) (by omega) (by omega)
      simp only [List.mem_cons, List.not_mem_nil, first, later, or_self, not_false_eq_true]
    · have first := high (c.val.toNat / 262144 % 8 + 240) (by omega) (by omega)
      simp only [List.mem_cons, List.not_mem_nil, first, later, or_self, not_false_eq_true]

theorem lineFeed_not_mem {text : String} (h : '\n' ∉ text.toList) : 10 ∉ encodeUtf8 text := by
  rw [encodeUtf8_eq, List.mem_flatMap]
  rintro ⟨c, mem, byte⟩
  refine lineFeed_not_mem_utf8EncodeChar (fun same => h ?_) byte
  exact same ▸ mem

end Responder.Text
