/-
  LatencyPlot.Proofs.Axis.TickText

  The text of a tick: the characters it is made of, and the fraction that it
  denotes. Hundredths read back as they are, but a whole number beyond what 64
  bits hold reads as the limit (`shown`).
-/
import LatencyPlot.Axis.Ticks
import LatencyPlot.Proofs.Number.Fraction
import LatencyPlot.Proofs.Number.Reading
import LatencyPlot.Proofs.Number.Written

namespace LatencyPlot

open Number (isNumeral decimalValue? unsignedValue? digitsValue nearest)

/-! ## Characters -/

theorem mem_of_mem_withoutEnd {p : Char → Bool} {c : Char} {cs : List Char}
    (h : c ∈ withoutEnd p cs) : c ∈ cs := by
  rw [withoutEnd, List.mem_reverse] at h
  exact List.mem_reverse.mp ((List.dropWhile_suffix p).subset h)

theorem isNumeral_of_mem_wholeText {negative : Bool} {n : Nat} :
    ∀ c ∈ wholeText negative n, isNumeral c = true := by
  rw [wholeText, List.forall_mem_append]
  refine ⟨?_, fun c hc => Number.isNumeral_of_mem_toDigits c hc⟩
  split
  · exact List.all_eq_true.mp (show ['-'].all isNumeral = true by decide)
  · exact List.forall_mem_nil _

theorem isNumeral_of_mem_twoPlaces {negative : Bool} {q : Rat} :
    ∀ c ∈ twoPlaces negative q, isNumeral c = true := by
  rw [twoPlaces, List.forall_mem_append]
  refine ⟨?_, fun c hc => ?_⟩
  · split
    · exact List.all_eq_true.mp (show ['-'].all isNumeral = true by decide)
    · exact List.forall_mem_nil _
  · exact Number.isNumeral_of_mem_fixedFraction 2 q c
      (mem_of_mem_withoutEnd (mem_of_mem_withoutEnd hc))

theorem isNumeral_of_mem_tickText {α : Type} [Scalar α] (v : α) :
    ∀ c ∈ (tickText v).toList, isNumeral c = true := by
  rw [tickText, String.toList_ofList]
  cases Scalar.exact v with
  | undefined => exact List.all_eq_true.mp (show ['N', 'a', 'N'].all isNumeral = true by decide)
  | infinite negative =>
    have hinf : ['i', 'n', 'f'].all isNumeral = true := by decide
    cases negative with
    | true => exact List.all_eq_true.mp (show ('-' :: ['i', 'n', 'f']).all isNumeral = true by decide)
    | false => exact List.all_eq_true.mp hinf
  | finite negative q =>
    rw [tickChars]
    split
    · exact isNumeral_of_mem_wholeText
    · exact isNumeral_of_mem_twoPlaces

/-! ## Whole numbers -/

/-- A fraction as it is shown: a whole number beyond the limits is cut to them. -/
def shown (q : ℚ) : ℚ :=
  if q.den = 1 then max (-2 ^ 63) (min q (2 ^ 63 - 1)) else q

/-- The fractions within the limits of whole numbers. -/
def IsUncut (q : ℚ) : Prop := -2 ^ 63 ≤ q ∧ q ≤ 2 ^ 63 - 1

theorem shown_eq_self {q : ℚ} (h : IsUncut q) : shown q = q := by
  rw [shown, min_eq_left h.2, max_eq_right h.1, ite_self]

theorem decimalValue?_wholeText (negative : Bool) (n : ℕ) :
    decimalValue? (wholeText negative n) = some (shown (if negative then -n else n)) := by
  have hn : (0 : ℚ) ≤ n := Nat.cast_nonneg n
  have hden : (if negative then -(n : ℚ) else n).den = 1 := by
    cases negative <;> simp
  rw [wholeText, Number.decimalValue?_signed (Number.unsignedValue?_toDigits _), shown, if_pos hden]
  congr 1
  cases negative with
  | false =>
    have hcut : ((min n (wholeLimit false) : ℕ) : ℚ) = min (n : ℚ) (2 ^ 63 - 1) := by
      norm_num [wholeLimit]
    have hlow : -2 ^ 63 ≤ min (n : ℚ) (2 ^ 63 - 1) := le_min (by linarith) (by norm_num)
    rw [Bool.false_and, if_neg Bool.false_ne_true, if_neg Bool.false_ne_true, hcut,
      max_eq_right hlow]
  | true =>
    have hcut : ((min n (wholeLimit true) : ℕ) : ℚ) = min (n : ℚ) (2 ^ 63) := by
      norm_num [wholeLimit]
    have hhigh : min (-(n : ℚ)) (2 ^ 63 - 1) = -n := min_eq_left (by linarith)
    rw [hcut, if_pos rfl, hhigh, max_comm, max_neg_neg]
    -- zero has no sign
    by_cases hzero : n = 0
    · rw [hzero]
      norm_num
    · rw [if_pos (by simpa using hzero)]

/-! ## Two places -/

theorem withoutEnd_append_singleton (p : Char → Bool) (cs : List Char) (c : Char) :
    withoutEnd p (cs ++ [c]) = if p c then withoutEnd p cs else cs ++ [c] := by
  rw [withoutEnd, List.reverse_append, List.reverse_singleton, List.singleton_append,
    List.dropWhile_cons]
  split <;> simp [withoutEnd]

theorem withoutEnd_of_forall {p : Char → Bool} {cs : List Char} (h : ∀ c ∈ cs, p c = false) :
    withoutEnd p cs = cs := by
  rcases List.eq_nil_or_concat' cs with rfl | ⟨front, c, rfl⟩
  · rfl
  · rw [withoutEnd_append_singleton, h c (by simp), if_neg Bool.false_ne_true]

/-- What is left of two decimal places. -/
def placesText (r : ℕ) : List Char :=
  if r = 0 then [] else if r % 10 = 0 then ['.', (r / 10).digitChar]
  else ['.', (r / 10).digitChar, (r % 10).digitChar]

theorem leftpad_toDigits : ∀ r : Fin 100, (Nat.toDigits 10 r.1).leftpad 2 '0' =
    [(r.1 / 10).digitChar, (r.1 % 10).digitChar] := by decide

theorem digitChar_eq_zero {d : ℕ} (hd : d < 10) : (d.digitChar == '0') = decide (d = 0) := by
  interval_cases d <;> rfl

theorem isDigit_digitChar {d : ℕ} (hd : d < 10) : d.digitChar.isDigit = true := by
  interval_cases d <;> rfl

theorem digitChar_eq_point {d : ℕ} (hd : d < 10) : (d.digitChar == '.') = false := by
  interval_cases d <;> rfl

theorem withoutEnd_places {whole : List Char} (hwhole : ∀ c ∈ whole, c.isDigit = true) {r : ℕ}
    (hr : r < 100) :
    withoutEnd (· == '.') (withoutEnd (· == '0')
      (whole ++ ['.', (r / 10).digitChar, (r % 10).digitChar])) = whole ++ placesText r := by
  have hten : r / 10 < 10 := by omega
  have hone : r % 10 < 10 := Nat.mod_lt _ (by norm_num)
  have hpoint (cs : List Char) {d : ℕ} (hd : d < 10) :
      withoutEnd (· == '.') (cs ++ [d.digitChar]) = cs ++ [d.digitChar] := by
    rw [withoutEnd_append_singleton, digitChar_eq_point hd, if_neg Bool.false_ne_true]
  rw [show whole ++ ['.', (r / 10).digitChar, (r % 10).digitChar] =
    whole ++ ['.'] ++ [(r / 10).digitChar] ++ [(r % 10).digitChar] by simp,
    withoutEnd_append_singleton, withoutEnd_append_singleton, digitChar_eq_zero hone,
    digitChar_eq_zero hten, placesText]
  by_cases hlast : r % 10 = 0
  · rw [if_pos (decide_eq_true hlast)]
    by_cases hfirst : r / 10 = 0
    · rw [if_pos (decide_eq_true hfirst), if_pos (by omega), withoutEnd_append_singleton,
        if_neg (by decide), withoutEnd_append_singleton, if_pos (by decide), List.append_nil]
      refine withoutEnd_of_forall fun c hc => ?_
      rw [beq_eq_false_iff_ne]
      rintro rfl
      exact absurd (hwhole _ hc) (by decide)
    · rw [if_neg (by simpa using hfirst), if_neg (by omega), if_pos hlast, hpoint _ hten]
      simp
  · rw [if_neg (by simpa using hlast), if_neg (by omega), if_neg hlast, hpoint _ hone]
    simp

theorem unsignedValue?_places {whole : List Char} (hwhole : ∀ c ∈ whole, c.isDigit = true)
    (hne : whole ≠ []) {r : ℕ} (hr : r < 100) :
    unsignedValue? (whole ++ placesText r) = some (digitsValue whole + r / 100 : ℚ) := by
  have hvalue {d : ℕ} (hd : d < 10) : d.digitChar.toNat - '0'.toNat = d := by
    interval_cases d <;> rfl
  have hten : r / 10 < 10 := by omega
  have hone : r % 10 < 10 := Nat.mod_lt _ (by norm_num)
  rw [placesText]
  split
  · next hzero =>
    rw [List.append_nil, Number.unsignedValue?_digits hwhole hne, hzero]
    simp
  · split
    · next hlast =>
      rw [Number.unsignedValue?_point hwhole hne (by simpa using isDigit_digitChar hten) (by simp)]
      have hsplit : (r : ℚ) = 10 * (r / 10 : ℕ) := by
        exact_mod_cast (by omega : r = 10 * (r / 10))
      simp only [digitsValue, List.foldl_cons, List.foldl_nil, hvalue hten, List.length_singleton]
      rw [hsplit]
      push_cast
      congr 1
      ring
    · rw [Number.unsignedValue?_point hwhole hne
        (List.forall_mem_cons.mpr
          ⟨isDigit_digitChar hten, List.forall_mem_singleton.mpr (isDigit_digitChar hone)⟩)
        (by simp)]
      have hsplit : (r : ℚ) = 10 * (r / 10 : ℕ) + (r % 10 : ℕ) := by
        exact_mod_cast (by omega : r = 10 * (r / 10) + r % 10)
      simp only [digitsValue, List.foldl_cons, List.foldl_nil, hvalue hten, hvalue hone,
        List.length_cons, List.length_nil]
      rw [hsplit]
      push_cast
      ring_nf

/-- The hundredths that a magnitude is rounded to, a half going to the even one. -/
def hundredths (q : ℚ) : ℕ := nearest .even (q * 100)

/-- The text of a magnitude in hundredths. -/
def magnitudeText (units : ℕ) : List Char :=
  Nat.toDigits 10 (units / 100) ++ placesText (units % 100)

theorem unsignedValue?_magnitudeText (units : ℕ) :
    unsignedValue? (magnitudeText units) = some (units / 100 : ℚ) := by
  have hread := unsignedValue?_places (Number.isDigit_of_mem_toDigits (n := units / 100))
    Nat.toDigits_ne_nil (Nat.mod_lt units (by norm_num : 100 > 0))
  have hsplit : (units : ℚ) = 100 * (units / 100 : ℕ) + (units % 100 : ℕ) := by
    exact_mod_cast (Nat.div_add_mod units 100).symm
  rw [magnitudeText, hread, Number.digitsValue_toDigits]
  congr 1
  linarith

/-- Two places are those of the hundredths. -/
theorem twoPlaces_eq (negative : Bool) (q : ℚ) :
    twoPlaces negative q = (if negative then ['-'] else []) ++ magnitudeText (hundredths q) := by
  have hunits : nearest .even (q * (Nat.pow 10 2 : ℕ)) = hundredths q := by
    rw [hundredths, show ((Nat.pow 10 2 : ℕ) : ℚ) = 100 by norm_num]
  have hr : hundredths q % 100 < 100 := Nat.mod_lt _ (by norm_num)
  have hpad := leftpad_toDigits ⟨hundredths q % 100, hr⟩
  rw [twoPlaces, magnitudeText, ← withoutEnd_places Number.isDigit_of_mem_toDigits hr, ← hpad,
    Number.fixedFraction, hunits]

/-- Hundredths are written as they are. -/
theorem decimalValue?_twoPlaces (negative : Bool) {q : ℚ} {units : ℕ} (hq : q * 100 = units) :
    decimalValue? (twoPlaces negative q) = some (if negative then -q else q) := by
  have hunits : hundredths q = units := by rw [hundredths, hq, Number.nearest_natCast]
  have hvalue : (units : ℚ) / 100 = q := by linarith
  rw [twoPlaces_eq, Number.decimalValue?_signed (unsignedValue?_magnitudeText _), hunits, hvalue]

/-- **Hundredths read back.** A whole number beyond the limits reads as the limit. -/
theorem decimalValue?_tickChars (negative : Bool) {q : ℚ} {units : ℕ} (hq : q * 100 = units) :
    decimalValue? (tickChars (.finite negative q)) = some (shown (if negative then -q else q)) := by
  have hnonneg : 0 ≤ q := by
    have : (0 : ℚ) ≤ units := Nat.cast_nonneg units
    linarith
  rw [tickChars, Number.ratAbs_eq]
  generalize hn : nearest .up q = n
  split
  · next hnear =>
    -- hundredths less than a thousandth apart are equal
    have hlt : |((units : ℤ) - 100 * n : ℤ)| < 1 := by
      have hscaled : |(units : ℚ) - 100 * n| < 1 := by
        rw [← hq, show q * 100 - 100 * n = 100 * (q - n) by ring, abs_mul]
        norm_num
        linarith
      exact_mod_cast hscaled
    have heq : q = n := by
      have hunits : (units : ℤ) = 100 * n := by have := Int.abs_lt_one_iff.mp hlt; omega
      have : (units : ℚ) = 100 * n := by exact_mod_cast hunits
      linarith
    rw [decimalValue?_wholeText, heq]
  · next hfar =>
    have hden : (if negative then -q else q).den ≠ 1 := by
      intro hden
      have hint : q.den = 1 := by cases negative <;> simpa using hden
      refine hfar ?_
      obtain ⟨k, hk⟩ := Number.exists_natCast_of_den_eq_one hnonneg hint
      rw [hk, Number.nearest_natCast] at hn
      rw [hk, hn, sub_self, abs_zero]
      norm_num
    rw [decimalValue?_twoPlaces negative hq, shown, if_neg hden]

end LatencyPlot
