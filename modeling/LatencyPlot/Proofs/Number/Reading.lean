/-
  LatencyPlot.Proofs.Number.Reading

  The fraction that a decimal text denotes: an optional minus sign, digits, and
  a point with further digits behind it if there is one. Infinities and what is
  not a number are no decimal texts.
-/
import LatencyPlot.Number.Reader
import LatencyPlot.Number.Text
import Mathlib

namespace LatencyPlot.Number

/-- The fraction that digits denote, with a point among them or without. -/
def unsignedValue? (cs : List Char) : Option ℚ :=
  if cs.takeWhile Char.isDigit = [] then none
  else match cs.dropWhile Char.isDigit with
    | [] => some (digitsValue (cs.takeWhile Char.isDigit))
    | c :: places =>
      if c = '.' ∧ places ≠ [] ∧ places.all Char.isDigit then
        some (digitsValue (cs.takeWhile Char.isDigit) + digitsValue places / 10 ^ places.length)
      else none

/-- The fraction that a decimal text denotes. -/
def decimalValue? : List Char → Option ℚ
  | '-' :: cs => (unsignedValue? cs).map (- ·)
  | cs => unsignedValue? cs

theorem unsignedValue?_digits {whole : List Char} (hwhole : ∀ c ∈ whole, c.isDigit = true)
    (hne : whole ≠ []) : unsignedValue? whole = some (digitsValue whole : ℚ) := by
  rw [unsignedValue?, List.takeWhile_eq_self_iff.mpr hwhole,
    List.dropWhile_eq_nil_iff.mpr hwhole, if_neg hne]

theorem unsignedValue?_point {whole places : List Char} (hwhole : ∀ c ∈ whole, c.isDigit = true)
    (hne : whole ≠ []) (hplaces : ∀ c ∈ places, c.isDigit = true) (hne' : places ≠ []) :
    unsignedValue? (whole ++ '.' :: places) =
      some (digitsValue whole + digitsValue places / 10 ^ places.length : ℚ) := by
  have htake : (whole ++ '.' :: places).takeWhile Char.isDigit = whole := by
    rw [List.takeWhile_append_of_pos hwhole]
    simp
  have hdrop : (whole ++ '.' :: places).dropWhile Char.isDigit = '.' :: places := by
    rw [List.dropWhile_append_of_pos hwhole]
    simp
  rw [unsignedValue?, htake, hdrop, if_neg hne]
  exact if_pos ⟨rfl, hne', List.all_eq_true.mpr hplaces⟩

/-- A sign before what denotes a fraction. -/
theorem decimalValue?_signed {cs : List Char} {q : ℚ} (h : unsignedValue? cs = some q)
    (negative : Bool) :
    decimalValue? ((if negative then ['-'] else []) ++ cs) =
      some (if negative then -q else q) := by
  cases negative with
  | true => simp [decimalValue?, h]
  | false =>
    rw [if_neg Bool.false_ne_true, if_neg Bool.false_ne_true, List.nil_append]
    unfold decimalValue?
    split
    · next rest => simp [unsignedValue?] at h
    · exact h

/-! ## Digits -/

theorem isDigit_of_mem_toDigits {n : ℕ} : ∀ c ∈ Nat.toDigits 10 n, c.isDigit = true :=
  fun _ hc => Nat.isDigit_of_mem_toDigits (by decide) (by decide) hc

theorem digitsValue_toDigits (n : ℕ) : digitsValue (Nat.toDigits 10 n) = n :=
  Nat.ofDigitChars_ten_toDigits

theorem unsignedValue?_toDigits (n : ℕ) : unsignedValue? (Nat.toDigits 10 n) = some (n : ℚ) := by
  rw [unsignedValue?_digits isDigit_of_mem_toDigits Nat.toDigits_ne_nil, digitsValue_toDigits]

/-! ## Doubles -/

/-- Digits that are written out in full denote a fraction. -/
theorem isSome_unsignedValue?_full {digits : List Char} (hdigits : ∀ c ∈ digits, c.isDigit = true)
    (hne : digits ≠ []) (places : ℤ) :
    (unsignedValue? (plainLayout.full digits places)).isSome = true := by
  have hzeros (n : ℕ) : ∀ c ∈ List.replicate n '0', c.isDigit = true := by
    intro c hc
    rw [List.eq_of_mem_replicate hc]
    rfl
  rw [Layout.full]
  split
  · have hfraction : ∀ c ∈ List.replicate (-places).toNat '0' ++ digits, c.isDigit = true :=
      List.forall_mem_append.mpr ⟨hzeros _, hdigits⟩
    have hread := unsignedValue?_point (List.forall_mem_singleton.mpr (show '0'.isDigit = true from rfl))
      (List.cons_ne_nil _ _) hfraction (by simp [hne])
    rw [List.singleton_append] at hread
    rw [hread]
    rfl
  · next hpos =>
    split
    · have hread := unsignedValue?_digits
        (List.forall_mem_append.mpr ⟨hdigits, hzeros (places.toNat - digits.length)⟩) (by simp [hne])
      rw [plainLayout, if_neg Bool.false_ne_true, List.append_nil, hread]
      rfl
    · next hlong =>
      have hbefore : ∀ c ∈ digits.take places.toNat, c.isDigit = true :=
        fun c hc => hdigits c (List.mem_of_mem_take hc)
      have hbehind : ∀ c ∈ digits.drop places.toNat, c.isDigit = true :=
        fun c hc => hdigits c (List.mem_of_mem_drop hc)
      have hread := unsignedValue?_point hbefore (by simp [hne]; omega) hbehind (by simp; omega)
      rw [hread]
      rfl

/-- The plain form of a finite double is a decimal text. -/
theorem isSome_decimalValue?_plain {x : Float} (hx : x.isFinite = true) :
    (decimalValue? (plain x).toList).isSome = true := by
  have hsigned {cs : List Char} (hcs : (unsignedValue? cs).isSome = true) (negative : Bool) :
      (decimalValue? ((if negative then ['-'] else []) ++ cs)).isSome = true := by
    obtain ⟨q, hq⟩ := Option.isSome_iff_exists.mp hcs
    rw [decimalValue?_signed hq]
    rfl
  replace hx : x.toModel.unpack.isFinite = true := hx
  rw [plain, Layout.write, String.toList_ofList, sign, Exact.ofFloat, Layout.magnitude]
  cases h : x.toModel.unpack with
  | notANumber | infinity =>
    rw [h] at hx
    cases hx
  | zero s =>
    have hzero : ∀ c ∈ ['0'], c.isDigit = true := List.forall_mem_singleton.mpr rfl
    exact hsigned (isSome_unsignedValue?_full hzero (List.cons_ne_nil _ _) 1) _
  | finite s m e hm =>
    exact hsigned (isSome_unsignedValue?_full isDigit_of_mem_toDigits Nat.toDigits_ne_nil _) _

end LatencyPlot.Number
