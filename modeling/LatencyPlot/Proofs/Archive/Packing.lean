/-
  LatencyPlot.Proofs.Archive.Packing

  A member for any content, so that a file can be cut into members at any place.
  It need not be short: each byte is stored in a block of its own.
-/
import LatencyPlot.Proofs.Archive.Members

namespace LatencyPlot.Archive

namespace Gzip

/-- A header without any field. -/
def plainHeader : List UInt8 := [0x1F, 0x8B, 8, 0, 0, 0, 0, 0, 0, 255]

/-- A stored block of one byte: its kind, the length, the complement of the length, the byte. -/
def storedByte (b : UInt8) : List UInt8 := [0, 1, 0, 254, 255, b]

/-- The last block, stored and empty. -/
def lastBlock : List UInt8 := [1, 0, 0, 255, 255]

/-- A number below `2 ^ 32` in four bytes, the lowest one first. -/
def wordBytes (n : Nat) : List UInt8 :=
  [UInt8.ofNat n, UInt8.ofNat (n / 256), UInt8.ofNat (n / 65536), UInt8.ofNat (n / 16777216)]

/-- A member for a content. -/
def pack (content : List UInt8) : List UInt8 :=
  plainHeader ++ content.flatMap storedByte ++ lastBlock ++ wordBytes (crc content).toNat ++
    wordBytes (content.length % 0x100000000)

/-! ## Reading -/

theorem blocks_storedByte (fuel : Nat) (out : Array UInt8) (b : UInt8) (rest : List UInt8) :
    blocks (fuel + 1) out (.ofBytes (storedByte b ++ rest)) =
      blocks fuel (out.push b) (.ofBytes rest) := rfl

theorem blocks_lastBlock (fuel : Nat) (out : Array UInt8) (rest : List UInt8) :
    blocks (fuel + 1) out (.ofBytes (lastBlock ++ rest)) = .ok (out, .ofBytes rest) := rfl

theorem blocks_stored {fuel : Nat} {content : List UInt8} (hfuel : content.length < fuel)
    (out : Array UInt8) (rest : List UInt8) :
    blocks fuel out (.ofBytes (content.flatMap storedByte ++ lastBlock ++ rest)) =
      .ok (out ++ content, .ofBytes rest) := by
  induction content generalizing fuel out with
  | nil =>
    obtain ⟨fuel, rfl⟩ : ∃ k, fuel = k + 1 := ⟨fuel - 1, by omega⟩
    rw [List.flatMap_nil, List.nil_append, blocks_lastBlock, Array.appendList_nil]
  | cons b content ih =>
    rw [List.length_cons] at hfuel
    obtain ⟨fuel, rfl⟩ : ∃ k, fuel = k + 1 := ⟨fuel - 1, by omega⟩
    have hrest := ih (Nat.lt_of_succ_lt_succ hfuel) (out.push b)
    rw [List.flatMap_cons, List.append_assoc, List.append_assoc, blocks_storedByte,
      ← List.append_assoc, hrest, Array.appendList_cons]

theorem inflate_stored (content rest : List UInt8) :
    inflate (content.flatMap storedByte ++ lastBlock ++ rest) = .ok (content, rest) := by
  have hlength : content.length ≤ (content.flatMap storedByte).length := by
    induction content with
    | nil => exact Nat.le_refl _
    | cons b content ih =>
      rw [List.flatMap_cons, List.length_append, List.length_cons, storedByte]
      simp only [List.length_cons, List.length_nil]
      omega
  rw [inflate]
  refine bind_eq_ok_iff.mpr ⟨_, blocks_stored ?_ #[] rest, ?_⟩
  · simp only [Bits.ofBytes, Bits.size, List.length_append]
    omega
  · simp only [Bits.ofBytes, Bits.align, Array.toList_appendList, List.nil_append]
    rfl

theorem word_wordBytes {n : Nat} (h : n < 0x100000000) :
    word (UInt8.ofNat n) (UInt8.ofNat (n / 256)) (UInt8.ofNat (n / 65536))
      (UInt8.ofNat (n / 16777216)) = n := by
  simp only [word, UInt8.toNat_ofNat']
  omega

/-- What is packed is a member, and its content is what was packed. -/
theorem isMemberOf_pack (content : List UInt8) : IsMemberOf (pack content) content := by
  have hheader : ∀ data, skipHeader (plainHeader ++ data) = .ok data := fun data => rfl
  rw [IsMemberOf, member, pack, List.append_assoc, List.append_assoc, List.append_assoc]
  refine bind_eq_ok_iff.mpr ⟨_, hheader _, ?_⟩
  rw [← List.append_assoc]
  refine bind_eq_ok_iff.mpr ⟨_, mapError_eq_ok_iff.mpr (inflate_stored content _), ?_⟩
  have hcheck : (crc content).toNat < 0x100000000 := UInt32.toNat_lt _
  have hlength : content.length % 0x100000000 < 0x100000000 := Nat.mod_lt _ (by decide)
  exact if_pos ⟨word_wordBytes hcheck, word_wordBytes hlength⟩

end Gzip

end LatencyPlot.Archive
