/-
  LatencyPlot.Proofs.Text.Bytes

  Texts as bytes: the bytes of a text read back as that text, and how the bytes
  of a character begin.
-/
import LatencyPlot.Source
import Mathlib.Data.List.Basic

namespace LatencyPlot

namespace Text

theorem toList_loop_eq (bytes : ByteArray) (i : Nat) (read : List UInt8) :
    ByteArray.toList.loop bytes i read = read.reverse ++ bytes.data.toList.drop i := by
  -- `read` holds the bytes before place `i`, the last one first
  fun_induction ByteArray.toList.loop bytes i read with
  | case1 i read hlt ih =>
    have hi : i < bytes.data.toList.length := by
      rw [Array.length_toList]
      exact hlt
    have hget : bytes.get! i = bytes.data.toList[i] := by
      simp [ByteArray.get!, getElem!_pos bytes.data i hlt]
    rw [ih, List.reverse_cons, List.append_assoc, List.singleton_append, hget,
      List.drop_eq_getElem_cons hi]
  | case2 i read hge =>
    rw [List.drop_of_length_le, List.append_nil]
    rw [Array.length_toList]
    exact Nat.le_of_not_lt hge

/-- The list of the bytes of an array holds them all, in order. -/
theorem toList_bytes (bytes : ByteArray) : bytes.toList = bytes.data.toList := by
  rw [ByteArray.toList, toList_loop_eq]
  rfl

/-- The bytes of a text read back as that text. -/
theorem fromUTF8?_toUTF8 (s : String) :
    String.fromUTF8? (ByteArray.mk s.toUTF8.toList.toArray) = some s := by
  rw [toList_bytes, Array.toArray_toList]
  exact dif_pos s.isValidUTF8

theorem toUTF8_inj {s t : String} (h : s.toUTF8.toList = t.toUTF8.toList) : s = t := by
  have hs := fromUTF8?_toUTF8 s
  rw [h, fromUTF8?_toUTF8 t] at hs
  exact (Option.some.inj hs).symm

/-- The bytes of two texts follow each other. -/
theorem toList_toUTF8_append (s t : String) :
    (s ++ t).toUTF8.toList = s.toUTF8.toList ++ t.toUTF8.toList := by
  simp only [toList_bytes]
  rw [← ByteArray.toList_data_append]
  exact congrArg (fun bytes => bytes.data.toList) String.toByteArray_append

/-- The bytes of a text are those of its characters. -/
theorem toList_toUTF8 (s : String) :
    s.toUTF8.toList = s.toList.flatMap String.utf8EncodeChar := by
  have hbytes : s.toUTF8 = (s.toList.flatMap String.utf8EncodeChar).toByteArray := by
    conv_lhs => rw [← String.ofList_toList (s := s)]
    exact String.toByteArray_ofList
  rw [toList_bytes, hbytes, List.data_toByteArray]

/-- A character is written as one byte below 128, or its first byte is 192 at least. -/
theorem utf8EncodeChar_cases (c : Char) :
    (∃ b : UInt8, String.utf8EncodeChar c = [b] ∧ b.toNat < 128) ∨
      ∃ (b : UInt8) (rest : List UInt8), String.utf8EncodeChar c = b :: rest ∧ 192 ≤ b.toNat := by
  generalize hbytes : String.utf8EncodeChar c = bytes
  simp only [String.utf8EncodeChar] at hbytes
  -- one case for each number of bytes
  split at hbytes
  · refine .inl ⟨_, hbytes.symm, ?_⟩
    rw [UInt8.toNat_ofNat']
    omega
  right
  split at hbytes
  · refine ⟨_, _, hbytes.symm, ?_⟩
    rw [UInt8.toNat_ofNat']
    omega
  split at hbytes
  · refine ⟨_, _, hbytes.symm, ?_⟩
    rw [UInt8.toNat_ofNat']
    omega
  · refine ⟨_, _, hbytes.symm, ?_⟩
    rw [UInt8.toNat_ofNat']
    omega

end Text

/-- A text in UTF-8 holds the records of its table; nothing but a row can be wrong with it. -/
theorem readRecords_toUTF8 (header : Bool) (text : String) :
    readRecords header (.ok text.toUTF8.toList) = (Table.read header text).mapError .row := by
  rw [readRecords]
  simp only [Text.fromUTF8?_toUTF8]

end LatencyPlot
