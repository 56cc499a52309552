/-
  LatencyPlot.Proofs.Axis.TickValue

  What the text of a tick says about its number. Whole or with two places, it is
  the number rounded to hundredths: what is less than a thousandth away from a
  whole number is rounded to it in either way. So the text is off by half a
  hundredth at most, and texts are in the order of their numbers.
-/
import LatencyPlot.Proofs.Axis.TickText
import LatencyPlot.Proofs.Number.Integral

namespace LatencyPlot

open Number (Denotes decimalValue? nearest)

/-! ## The form -/

/-- A sign, digits without superfluous zeros in front, and a point with at most two digits of which
    the last one counts. -/
structure IsTidy (sign whole places : List Char) : Prop where
  sign : sign = [] ∨ sign = ['-']
  whole_digits : ∀ c ∈ whole, c.isDigit = true
  whole_ne : whole ≠ []
  leading : whole.head? = some '0' → whole = ['0']
  places : places = [] ∨ ∃ digits, places = '.' :: digits ∧
    (digits.length = 1 ∨ digits.length = 2) ∧ (∀ c ∈ digits, c.isDigit = true) ∧
    digits.getLast? ≠ some '0'

/-- Only zero is written with a zero in front. -/
theorem toDigits_eq_of_head? {n : ℕ} (h : (Nat.toDigits 10 n).head? = some '0') :
    Nat.toDigits 10 n = ['0'] := by
  revert h
  refine Number.toDigits_induction
    (motive := fun _ digits => digits.head? = some '0' → digits = ['0']) (by norm_num)
    (fun n _ h => ?_) (fun n hle ih h => ?_) n
  · rw [List.head?_cons, Option.some.injEq] at h
    rw [h]
  · -- the digits in front of the last one stand for more than zero
    rw [List.head?_append_of_ne_nil _ Nat.toDigits_ne_nil] at h
    have hzero := Number.digitsValue_toDigits (n / 10)
    rw [ih h] at hzero
    have hnone : n / 10 = 0 := hzero.symm
    omega

theorem isTidy_magnitudeText (negative : Bool) (units : ℕ) :
    IsTidy (if negative then ['-'] else []) (Nat.toDigits 10 (units / 100))
      (placesText (units % 100)) where
  sign := by cases negative <;> simp
  whole_digits := Number.isDigit_of_mem_toDigits
  whole_ne := Nat.toDigits_ne_nil
  leading := toDigits_eq_of_head?
  places := by
    have hr : units % 100 < 100 := Nat.mod_lt _ (by norm_num)
    generalize units % 100 = r at hr
    have hten : r / 10 < 10 := by omega
    have hone : r % 10 < 10 := Nat.mod_lt _ (by norm_num)
    have hlast {d : ℕ} (hd : d < 10) (hne : d ≠ 0) (before : List Char) :
        (before ++ [d.digitChar]).getLast? ≠ some '0' := by
      rw [List.getLast?_concat, ne_eq, Option.some.injEq, ← beq_iff_eq, digitChar_eq_zero hd]
      simpa using hne
    rw [placesText]
    split
    · exact .inl rfl
    · split
      · exact .inr ⟨[(r / 10).digitChar], rfl, .inl rfl,
          List.forall_mem_singleton.mpr (isDigit_digitChar hten), hlast hten (by omega) []⟩
      · next hne =>
        exact .inr ⟨[(r / 10).digitChar, (r % 10).digitChar], rfl, .inr rfl,
          List.forall_mem_cons.mpr ⟨isDigit_digitChar hten,
            List.forall_mem_singleton.mpr (isDigit_digitChar hone)⟩,
          hlast hone hne [(r / 10).digitChar]⟩

/-! ## Both ways of writing -/

/-- What is less than a thousandth away from a whole number is rounded to it. -/
theorem hundredths_of_near {q : ℚ} (hq : 0 ≤ q) {n : ℕ} (h : |q - n| < 1 / 1000) :
    hundredths q = 100 * n := by
  refine Number.nearest_eq_of_abs_lt .even (by positivity) ?_
  rw [abs_lt] at h ⊢
  push_cast
  constructor <;> linarith

theorem magnitudeText_hundred_mul (n : ℕ) : magnitudeText (100 * n) = Nat.toDigits 10 n := by
  rw [magnitudeText, Nat.mul_div_cancel_left n (by norm_num), Nat.mul_mod_right, placesText,
    if_pos rfl, List.append_nil]

/-- Within the limits of whole numbers the text of a tick is that of its hundredths. Zero may have
    no sign. -/
theorem exists_tickChars_eq (negative : Bool) {q : ℚ} (hq : 0 ≤ q)
    (hlimit : nearest .up q < 2 ^ 63) :
    ∃ sign : Bool, tickChars (.finite negative q) =
        (if sign then ['-'] else []) ++ magnitudeText (hundredths q) ∧
      (sign = negative ∨ hundredths q = 0) := by
  rw [tickChars, Number.ratAbs_eq]
  generalize nearest .up q = n at hlimit ⊢
  split
  · next hnear =>
    -- a whole number has no hundredths beside it, and this one is not cut
    have huncut : min n (wholeLimit negative) = n := by
      refine min_eq_left ?_
      rw [wholeLimit]
      split <;> omega
    rw [hundredths_of_near hq hnear, magnitudeText_hundred_mul, wholeText, huncut]
    refine ⟨negative && n != 0, rfl, ?_⟩
    by_cases hn : n = 0
    · exact .inr (by omega)
    · exact .inl (by simp [hn])
  · exact ⟨negative, twoPlaces_eq negative q, .inl rfl⟩

/-! ## The value -/

/-- A fraction rounded to hundredths, alike on both sides of zero. -/
def toHundredths (q : ℚ) : ℚ := if q < 0 then -(hundredths (-q) / 100) else hundredths q / 100

theorem hundredths_zero : hundredths 0 = 0 := by
  have h := Number.nearest_natCast .even 0
  rw [hundredths, zero_mul]
  exact_mod_cast h

theorem toHundredths_signed (negative : Bool) {q : ℚ} (hq : 0 ≤ q) :
    toHundredths (if negative then -q else q) =
      if negative then -(hundredths q / 100 : ℚ) else hundredths q / 100 := by
  cases negative with
  | false => exact if_neg (not_lt.mpr hq)
  | true =>
    rcases hq.eq_or_lt with rfl | hpos
    · simp [toHundredths, hundredths_zero]
    · simp [toHundredths, hpos]

theorem abs_toHundredths_sub_le (q : ℚ) : |toHundredths q - q| ≤ 1 / 200 := by
  have hnear {m : ℚ} (hm : 0 ≤ m) : |(hundredths m / 100 : ℚ) - m| ≤ 1 / 200 := by
    have hround := abs_le.mp (Number.abs_nearest_sub_le .even (q := m * 100) (by positivity))
    rw [abs_le, hundredths]
    constructor <;> linarith [hround.1, hround.2]
  rw [toHundredths]
  split
  · next hneg =>
    rw [show -(hundredths (-q) / 100 : ℚ) - q = -(hundredths (-q) / 100 - -q) by ring, abs_neg]
    exact hnear (neg_nonneg.mpr hneg.le)
  · next hnonneg => exact hnear (not_lt.mp hnonneg)

theorem hundredths_le_hundredths {p q : ℚ} (hp : 0 ≤ p) (hpq : p ≤ q) :
    hundredths p ≤ hundredths q :=
  Number.nearest_le_nearest .even (by positivity) (by linarith)

theorem monotone_toHundredths : Monotone toHundredths := by
  intro p q hpq
  have hnonneg (n : ℕ) : (0 : ℚ) ≤ n / 100 := by positivity
  have hmono {a b : ℚ} (ha : 0 ≤ a) (hab : a ≤ b) :
      (hundredths a / 100 : ℚ) ≤ hundredths b / 100 := by
    have hle : (hundredths a : ℚ) ≤ hundredths b := by
      exact_mod_cast hundredths_le_hundredths ha hab
    linarith
  rw [toHundredths, toHundredths]
  split
  · next hp =>
    -- on the negative side magnitudes are in the other order
    split
    · next hq => exact neg_le_neg (hmono (by linarith) (by linarith))
    · exact (neg_nonpos.mpr (hnonneg _)).trans (hnonneg _)
  · next hp =>
    rw [if_neg (by linarith)]
    exact hmono (not_lt.mp hp) hpq

/-! ## Doubles -/

/-- A double below the limit of whole numbers is rounded to a number below it: close to the limit
    all doubles are whole. -/
theorem nearest_lt {q : ℚ} (hq : 0 ≤ q) (hlimit : q < 2 ^ 63) (hsize : q.den = 1 ∨ q < 2 ^ 52) :
    nearest .up q < 2 ^ 63 := by
  rcases hsize with hden | hsmall
  · -- a whole double is rounded to itself
    obtain ⟨n, rfl⟩ := Number.exists_natCast_of_den_eq_one hq hden
    rw [Number.nearest_natCast]
    exact_mod_cast hlimit
  · have hle := Number.nearest_le_nearest .up hq (q := (2 ^ 52 : ℕ)) (by exact_mod_cast hsmall.le)
    rw [Number.nearest_natCast] at hle
    omega

theorem exists_tickText_eq {v : Float} {q : ℚ} (hv : Denotes v q) (hlimit : |q| < 2 ^ 63) :
    ∃ (sign : Bool) (units : ℕ),
      (tickText v).toList = (if sign then ['-'] else []) ++ magnitudeText units ∧
      (if sign then -(units / 100 : ℚ) else units / 100) = toHundredths q := by
  obtain ⟨negative, m, hm, hnonneg, rfl, hsize⟩ := hv.exists_ofFloat
  have habs : |if negative then -m else m| = m := by cases negative <;> simp [abs_of_nonneg hnonneg]
  rw [habs] at hlimit
  obtain ⟨sign, htext, hsign⟩ :=
    exists_tickChars_eq negative hnonneg (nearest_lt hnonneg hlimit hsize)
  rw [tickText, String.toList_ofList, show Scalar.exact v = .finite negative m from hm]
  refine ⟨sign, hundredths m, htext, ?_⟩
  rw [toHundredths_signed negative hnonneg]
  rcases hsign with rfl | hzero
  · rfl
  · simp [hzero]

theorem decimalValue?_tickText_of_abs_lt {v : Float} {q : ℚ} (hv : Denotes v q)
    (hlimit : |q| < 2 ^ 63) : decimalValue? (tickText v).toList = some (toHundredths q) := by
  obtain ⟨sign, units, htext, hvalue⟩ := exists_tickText_eq hv hlimit
  rw [htext, Number.decimalValue?_signed (unsignedValue?_magnitudeText units), hvalue]

/-! ## The theorem -/

/-- **Texts of ticks.** A finite double whose magnitude is less than `2 ^ 63` is written without
    superfluous zeros. The text reads back as a number that is off by half a hundredth at most, and
    that of a lesser double reads back as no greater number. -/
theorem tickText_reads {v : Float} {q : ℚ} (hv : Denotes v q) (hlimit : |q| < 2 ^ 63) :
    (∃ sign whole places, (tickText v).toList = sign ++ whole ++ places ∧
      IsTidy sign whole places) ∧
    ∃ s, decimalValue? (tickText v).toList = some s ∧ |s - q| ≤ 1 / 200 ∧
      ∀ (u : Float) (p : ℚ), Denotes u p → |p| < 2 ^ 63 → u ≤ v →
        ∃ t, decimalValue? (tickText u).toList = some t ∧ t ≤ s := by
  obtain ⟨sign, units, htext, -⟩ := exists_tickText_eq hv hlimit
  have hparts : (tickText v).toList = (if sign then ['-'] else []) ++
      Nat.toDigits 10 (units / 100) ++ placesText (units % 100) := by
    rw [htext, magnitudeText, List.append_assoc]
  refine ⟨⟨_, _, _, hparts, isTidy_magnitudeText sign units⟩,
    toHundredths q, decimalValue?_tickText_of_abs_lt hv hlimit, abs_toHundredths_sub_le q, ?_⟩
  intro u p hu hlow hle
  exact ⟨toHundredths p, decimalValue?_tickText_of_abs_lt hu hlow,
    monotone_toHundredths ((hu.le_iff hv).mp hle)⟩

/-- An eighth, which is off by half a hundredth, and a number that is rounded to zero from below. -/
theorem tickText_reads_eighth :
    Denotes 0.125 (1 / 8) ∧ Denotes (-0.001953125) (-1 / 512) ∧
      ∃ s, decimalValue? (tickText (0.125 : Float)).toList = some s ∧ |s - 1 / 8| ≤ 1 / 200 ∧
        ∃ t, decimalValue? (tickText (-0.001953125 : Float)).toList = some t ∧ t ≤ s := by
  have hv : Denotes 0.125 (1 / 8) := by
    unfold Denotes
    decide +kernel
  have hu : Denotes (-0.001953125) (-1 / 512) := by
    unfold Denotes
    decide +kernel
  obtain ⟨-, s, hread, hnear, hmono⟩ := tickText_reads hv (by norm_num [abs_of_pos])
  have hle : (-0.001953125 : Float) ≤ 0.125 := (hu.le_iff hv).mpr (by norm_num)
  exact ⟨hv, hu, s, hread, hnear, hmono _ _ hu (by norm_num [abs_of_neg]) hle⟩

end LatencyPlot
