/-
  LatencyPlot.Proofs.Archive.Members

  Members one after the other. A member is read up to its trailer, whatever
  bytes follow (`member_append`), so a file of members decodes to their contents
  in order (`decode_flatten`), and it is known by its first two bytes.
-/
import LatencyPlot.Archive.Gzip
import LatencyPlot.Proofs.Archive.Stopping
import LatencyPlot.Proofs.Storage.Write
import Mathlib.Data.List.Forall2
import Mathlib.Data.List.TakeWhile

namespace LatencyPlot.Archive.Gzip

variable {bytes rest content : List UInt8}

/-- Whether some bytes are one member with a content, and nothing else. -/
def IsMemberOf (bytes content : List UInt8) : Prop := member bytes = .ok (content, [])

/-! ## Header -/

theorem skipExtra_append {flags : Nat} (h : skipExtra flags bytes = .ok rest)
    (more : List UInt8) : skipExtra flags (bytes ++ more) = .ok (rest ++ more) := by
  unfold skipExtra at h ⊢
  split at h
  · next hflag =>
    cases h
    rw [if_pos hflag]
  · next hflag =>
    rw [if_neg hflag]
    split at h
    · next a b tail =>
      simp only [List.cons_append] at h ⊢
      split at h
      · cases h
      · next hlength =>
        cases h
        have hle : a.toNat + 256 * b.toNat ≤ tail.length := Nat.le_of_not_lt hlength
        rw [if_neg (by rw [List.length_append]; omega), List.drop_append_of_le_length hle]
    · cases h

theorem skipText_append {flags flag : Nat} (h : skipText flags flag bytes = .ok rest)
    (more : List UInt8) : skipText flags flag (bytes ++ more) = .ok (rest ++ more) := by
  unfold skipText at h ⊢
  split at h
  · next hflag =>
    cases h
    rw [if_pos hflag]
  · next hflag =>
    rw [if_neg hflag]
    split at h
    · cases h
    · next hlength =>
      split at h
      · cases h
      · next zero tail hdrop =>
        cases h
        -- the zero that ends the text stands in `bytes`
        have htext : (bytes.takeWhile (· != 0)).length ≠ bytes.length := by
          have hsplit := congrArg List.length
            (List.takeWhile_append_dropWhile (p := (· != 0)) (l := bytes))
          rw [hdrop, List.length_append, List.length_cons] at hsplit
          omega
        rw [List.takeWhile_append, if_neg htext, if_neg hlength, List.dropWhile_append, hdrop]
        rfl

theorem skipCheck_append {flags : Nat} {whole : List UInt8}
    (h : skipCheck flags whole bytes = .ok rest) (more : List UInt8) :
    skipCheck flags (whole ++ more) (bytes ++ more) = .ok (rest ++ more) := by
  have hread : (whole ++ more).take ((whole ++ more).length - (bytes ++ more).length) =
      whole.take (whole.length - bytes.length) := by
    rw [List.length_append, List.length_append, Nat.add_sub_add_right,
      List.take_append_of_le_length (Nat.sub_le _ _)]
  unfold skipCheck at h ⊢
  split at h
  · next hflag =>
    cases h
    rw [if_pos hflag]
  · next hflag =>
    rw [if_neg hflag, hread]
    split at h
    · next a b tail =>
      simp only [List.cons_append] at h ⊢
      split at h
      · next hcheck =>
        cases h
        rw [if_pos hcheck]
      · cases h
    · cases h

theorem skipHeader_append (h : skipHeader bytes = .ok rest) (more : List UInt8) :
    skipHeader (bytes ++ more) = .ok (rest ++ more) := by
  unfold skipHeader at h ⊢
  split at h
  · next a b method flags _ _ _ _ _ _ tail =>
    simp only [List.cons_append] at h ⊢
    split at h
    · cases h
    · next hfixed =>
      rw [if_neg hfixed]
      obtain ⟨extra, hextra, h⟩ := bind_eq_ok_iff.mp h
      obtain ⟨name, hname, h⟩ := bind_eq_ok_iff.mp h
      obtain ⟨comment, hcomment, h⟩ := bind_eq_ok_iff.mp h
      exact bind_eq_ok_iff.mpr ⟨_, skipExtra_append hextra more, bind_eq_ok_iff.mpr
        ⟨_, skipText_append hname more, bind_eq_ok_iff.mpr
          ⟨_, skipText_append hcomment more, skipCheck_append h more⟩⟩⟩
  · cases h

/-- A header begins with the two bytes that tell a member. -/
theorem isMagic_of_skipHeader (h : skipHeader bytes = .ok rest) (more : List UInt8) :
    isMagic (bytes ++ more) = true := by
  unfold skipHeader at h
  split at h
  · next a b method flags _ _ _ _ _ _ tail =>
    simp only at h
    split at h
    · cases h
    · next hfixed =>
      simp only [Bool.or_eq_true, not_or, Bool.not_eq_true, Bool.not_eq_false'] at hfixed
      exact hfixed.1.1
  · cases h

/-! ## Members -/

/-- One member is read up to its trailer, whatever stands behind it. -/
theorem member_append (h : member bytes = .ok (content, rest)) (more : List UInt8) :
    member (bytes ++ more) = .ok (content, rest ++ more) := by
  rw [member] at h ⊢
  obtain ⟨data, hheader, h⟩ := bind_eq_ok_iff.mp h
  obtain ⟨⟨found, behind⟩, hdata, h⟩ := bind_eq_ok_iff.mp h
  refine bind_eq_ok_iff.mpr ⟨_, skipHeader_append hheader more, bind_eq_ok_iff.mpr
    ⟨(found, behind ++ more), ?_, ?_⟩⟩
  · exact mapError_eq_ok_iff.mpr (inflate_append (mapError_eq_ok_iff.mp hdata) more)
  · -- the trailer stands in what is left of `bytes`
    simp only at h ⊢
    split at h
    · simp only [List.cons_append] at h ⊢
      split at h
      · next htrailer =>
        cases h
        rw [if_pos htrailer]
        rfl
      · cases h
    · cases h

theorem isMagic_of_member (h : member bytes = .ok (content, rest)) (more : List UInt8) :
    isMagic (bytes ++ more) = true := by
  rw [member] at h
  obtain ⟨data, hheader, -⟩ := bind_eq_ok_iff.mp h
  exact isMagic_of_skipHeader hheader more

theorem IsMemberOf.ne_nil (h : IsMemberOf bytes content) : bytes ≠ [] := by
  rintro rfl
  cases h

/-- The members of a file are read one after the other, as often as there is fuel. -/
theorem members_flatten {parts contents : List (List UInt8)} (hne : parts ≠ [])
    (h : List.Forall₂ IsMemberOf parts contents) {fuel : Nat} (hfuel : parts.length ≤ fuel) :
    members fuel parts.flatten = .ok contents.flatten := by
  induction h generalizing fuel with
  | nil => exact absurd rfl hne
  | @cons part content parts contents hpart hparts ih =>
    rw [List.length_cons] at hfuel
    obtain ⟨fuel, rfl⟩ : ∃ k, fuel = k + 1 := ⟨fuel - 1, by omega⟩
    have hfirst := member_append hpart parts.flatten
    rw [List.nil_append] at hfirst
    rw [List.flatten_cons, List.flatten_cons, members]
    refine bind_eq_ok_iff.mpr ⟨_, hfirst, ?_⟩
    cases hparts with
    | nil =>
      rw [List.flatten_nil, List.append_nil]
      rfl
    | @cons next _ parts contents hnext hrest =>
      have hbehind : (next :: parts).flatten ≠ [] := by
        rw [List.flatten_cons]
        exact List.append_ne_nil_of_left_ne_nil hnext.ne_nil _
      have hmore := ih (List.cons_ne_nil _ _) (Nat.le_of_succ_le_succ hfuel)
      simp only [if_neg hbehind]
      exact bind_eq_ok_iff.mpr ⟨_, hmore, rfl⟩

theorem length_le_flatten {parts contents : List (List UInt8)}
    (h : List.Forall₂ IsMemberOf parts contents) : parts.length ≤ parts.flatten.length := by
  induction h with
  | nil => exact Nat.le_refl _
  | cons hpart _ ih =>
    have hpos := List.length_pos_of_ne_nil hpart.ne_nil
    rw [List.flatten_cons, List.length_append, List.length_cons]
    omega

/-- The content of a file of members is that of its members, in order. -/
theorem decode_flatten {parts contents : List (List UInt8)} (hne : parts ≠ [])
    (h : List.Forall₂ IsMemberOf parts contents) : decode parts.flatten = .ok contents.flatten :=
  members_flatten hne h (Nat.le_succ_of_le (length_le_flatten h))

/-- A file of members begins like a member. -/
theorem isMagic_flatten {parts contents : List (List UInt8)} (hne : parts ≠ [])
    (h : List.Forall₂ IsMemberOf parts contents) : isMagic parts.flatten = true := by
  cases h with
  | nil => exact absurd rfl hne
  | cons hpart _ => exact isMagic_of_member hpart _

end LatencyPlot.Archive.Gzip
