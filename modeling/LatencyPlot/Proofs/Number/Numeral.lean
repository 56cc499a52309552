/-
  LatencyPlot.Proofs.Number.Numeral

  The characters of texts that read as numbers: letters, digits, points and
  signs. So such a text holds no blanks, no quotes and nothing that divides
  fields or ends rows.
-/
import LatencyPlot.Number.Reader

namespace LatencyPlot.Number

/-- Whether a character may stand in the text of a number. -/
def isNumeral (c : Char) : Bool := c.isAlphanum || c == '.' || c == '+' || c == '-'

theorem isNumeral_of_isAlpha {c : Char} (h : c.isAlpha = true) : isNumeral c = true := by
  simp [isNumeral, Char.isAlphanum, h]

theorem isNumeral_of_isDigit {c : Char} (h : c.isDigit = true) : isNumeral c = true := by
  simp [isNumeral, Char.isAlphanum, h]

theorem isUpper_or_isLower {c : Char} (h : c.isAlpha = true) :
    c.isUpper = true ∨ c.isLower = true :=
  Bool.or_eq_true_iff.mp h

theorem toNat_of_isUpper {c : Char} (h : c.isUpper = true) : 65 ≤ c.toNat ∧ c.toNat ≤ 90 := by
  have hbounds : 'A'.val ≤ c.val ∧ c.val ≤ 'Z'.val := of_decide_eq_true h
  rw [UInt32.le_iff_toNat_le, UInt32.le_iff_toNat_le] at hbounds
  exact hbounds

theorem toNat_of_isLower {c : Char} (h : c.isLower = true) : 97 ≤ c.toNat ∧ c.toNat ≤ 122 := by
  have hboth : (decide ('a'.val ≤ c.val) && decide (c.val ≤ 'z'.val)) = true := h
  rw [Bool.and_eq_true, decide_eq_true_eq, decide_eq_true_eq, UInt32.le_iff_toNat_le,
    UInt32.le_iff_toNat_le] at hboth
  exact hboth

theorem toNat_of_isDigit {c : Char} (h : c.isDigit = true) : 48 ≤ c.toNat ∧ c.toNat ≤ 57 := by
  have hboth : (decide ('0'.val ≤ c.val) && decide (c.val ≤ '9'.val)) = true := h
  rw [Bool.and_eq_true, decide_eq_true_eq, decide_eq_true_eq, UInt32.le_iff_toNat_le,
    UInt32.le_iff_toNat_le] at hboth
  exact hboth

/-- Where the characters of numbers stand among all characters. -/
theorem toNat_of_isNumeral {c : Char} (h : isNumeral c = true) : 43 ≤ c.toNat ∧ c.toNat ≤ 122 := by
  rw [isNumeral, Bool.or_eq_true, Bool.or_eq_true, Bool.or_eq_true, beq_iff_eq, beq_iff_eq,
    beq_iff_eq] at h
  rcases h with ((halphanum | rfl) | rfl) | rfl
  · rcases Bool.or_eq_true_iff.mp halphanum with halpha | hdigit
    · rcases isUpper_or_isLower halpha with hupper | hlower
      · have := toNat_of_isUpper hupper
        omega
      · have := toNat_of_isLower hlower
        omega
    · have := toNat_of_isDigit hdigit
      omega
  · decide
  · decide
  · decide

/-- Only letters become letters in lower case. -/
theorem isAlpha_of_isAlpha_toLower {c : Char} (h : c.toLower.isAlpha = true) :
    c.isAlpha = true := by
  cases hupper : c.isUpper with
  | true =>
    show (c.isUpper || c.isLower) = true
    rw [hupper, Bool.true_or]
  | false =>
    have hsame : c.toLower = c := dif_neg (of_decide_eq_false hupper)
    rwa [hsame] at h

/-- A text that is a word of letters, in some letter case, holds letters only. -/
theorem isNumeral_of_map_toLower_eq {cs word : List Char} (h : cs.map Char.toLower = word)
    (hword : word.all Char.isAlpha = true) : ∀ c ∈ cs, isNumeral c = true := by
  intro c hc
  have hmem : c.toLower ∈ word := by
    rw [← h]
    exact List.mem_map_of_mem hc
  exact isNumeral_of_isAlpha (isAlpha_of_isAlpha_toLower (List.all_eq_true.mp hword _ hmem))

/-! ## Decimals -/

theorem isNumeral_of_exponentSize? {cs : List Char} {n : Nat} (h : exponentSize? cs = some n) :
    ∀ c ∈ cs, isNumeral c = true := by
  rw [exponentSize?] at h
  split at h
  · next hdigits =>
    rw [Bool.and_eq_true] at hdigits
    exact fun c hc => isNumeral_of_isDigit (List.all_eq_true.mp hdigits.2 c hc)
  · cases h

theorem isNumeral_of_exponent? {cs : List Char} {e : Int} (h : exponent? cs = some e) :
    ∀ c ∈ cs, isNumeral c = true := by
  cases cs with
  | nil =>
    intro c hc
    cases hc
  | cons mark rest =>
    rw [exponent?.eq_def] at h
    simp only at h
    split at h
    · next hmark =>
      have hletter : isNumeral mark = true := by
        rcases hmark with rfl | rfl <;> decide
      -- A sign may stand between the mark and the digits.
      have hrest : ∀ c ∈ rest, isNumeral c = true := by
        split at h <;>
          simp only [Option.map_eq_some_iff, Option.bind_eq_bind, Option.bind_eq_some_iff] at h <;>
          obtain ⟨_, ⟨n, hn, -⟩, -⟩ := h
        · exact List.forall_mem_cons.mpr ⟨by decide, isNumeral_of_exponentSize? hn⟩
        · exact List.forall_mem_cons.mpr ⟨by decide, isNumeral_of_exponentSize? hn⟩
        · exact isNumeral_of_exponentSize? hn
      exact List.forall_mem_cons.mpr ⟨hletter, hrest⟩
    · cases h

theorem isNumeral_of_takeWhile {cs : List Char} : ∀ c ∈ cs.takeWhile Char.isDigit,
    isNumeral c = true := by
  intro c hc
  exact isNumeral_of_isDigit (List.all_eq_true.mp List.all_takeWhile c hc)

theorem isNumeral_of_decimal? {cs : List Char} {x : Float} (h : decimal? cs = some x) :
    ∀ c ∈ cs, isNumeral c = true := by
  suffices hrest : ∀ c ∈ cs.dropWhile Char.isDigit, isNumeral c = true by
    intro c hc
    rw [← List.takeWhile_append_dropWhile (p := Char.isDigit) (l := cs), List.mem_append] at hc
    exact hc.elim (isNumeral_of_takeWhile c) (hrest c)
  rw [decimal?] at h
  cases hdrop : cs.dropWhile Char.isDigit with
  | nil =>
    intro c hc
    cases hc
  | cons d tail =>
    simp only [hdrop] at h
    by_cases hd : d = '.'
    · subst hd
      simp only at h
      split at h
      · cases h
      · obtain ⟨e, he, -⟩ := Option.map_eq_some_iff.mp h
        refine List.forall_mem_cons.mpr ⟨by decide, fun c hc => ?_⟩
        rw [← List.takeWhile_append_dropWhile (p := Char.isDigit) (l := tail), List.mem_append] at hc
        exact hc.elim (isNumeral_of_takeWhile c) (isNumeral_of_exponent? he c)
    · split at h
      · next heq => exact absurd (List.cons.inj heq).1 hd
      · simp only at h
        split at h
        · cases h
        · obtain ⟨e, he, -⟩ := Option.map_eq_some_iff.mp h
          exact isNumeral_of_exponent? he

/-! ## Numbers -/

theorem isNumeral_of_unsigned? {cs : List Char} {x : Float} (h : unsigned? cs = some x) :
    ∀ c ∈ cs, isNumeral c = true := by
  rw [unsigned?] at h
  split at h
  · next hnan => exact isNumeral_of_map_toLower_eq hnan (by decide)
  split at h
  · next hinf =>
    rcases hinf with hinf | hinf
    · exact isNumeral_of_map_toLower_eq hinf (by decide)
    · exact isNumeral_of_map_toLower_eq hinf (by decide)
  · exact isNumeral_of_decimal? h

theorem isNumeral_of_read? {cs : List Char} {x : Float} (h : read? cs = some x) :
    ∀ c ∈ cs, isNumeral c = true := by
  rw [read?.eq_def] at h
  split at h
  · obtain ⟨y, hy, -⟩ := Option.map_eq_some_iff.mp h
    exact List.forall_mem_cons.mpr ⟨by decide, isNumeral_of_unsigned? hy⟩
  · exact List.forall_mem_cons.mpr ⟨by decide, isNumeral_of_unsigned? h⟩
  · exact isNumeral_of_unsigned? h

/-- A text that reads as a finite number holds nothing but letters, digits, points and signs. -/
theorem isNumeral_of_readFinite? {cs : List Char} {x : Float} (h : readFinite? cs = some x) :
    ∀ c ∈ cs, isNumeral c = true := by
  rw [readFinite?, Option.filter_eq_some_iff] at h
  exact isNumeral_of_read? h.1

/-- A text that reads as a number is not empty. -/
theorem ne_nil_of_readFinite? {cs : List Char} {x : Float} (h : readFinite? cs = some x) :
    cs ≠ [] := by
  rintro rfl
  cases h

end LatencyPlot.Number
