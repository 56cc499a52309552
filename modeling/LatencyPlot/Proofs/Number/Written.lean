/-
  LatencyPlot.Proofs.Number.Written

  The characters that numbers are written with. None of them is markup, so a
  written number stands in a document as it is.
-/
import LatencyPlot.Markup.Escape
import LatencyPlot.Number.Text
import LatencyPlot.Proofs.Number.Numeral

namespace LatencyPlot

namespace Number

/-- The digits of a number are one digit, or those of the number without its last digit and then
    that one. -/
theorem toDigits_induction {b : Nat} (hb : 1 < b) {motive : Nat → List Char → Prop}
    (digit : ∀ n < b, motive n [n.digitChar])
    (more : ∀ n, b ≤ n → motive (n / b) (Nat.toDigits b (n / b)) →
      motive n (Nat.toDigits b (n / b) ++ [(n % b).digitChar])) (n : Nat) :
    motive n (Nat.toDigits b n) := by
  induction n using Nat.strongRecOn with
  | ind n ih =>
    rw [Nat.toDigits_eq_if hb]
    split
    · next hlt => exact digit n hlt
    · next hge =>
      have hle : b ≤ n := Nat.le_of_not_lt hge
      exact more n hle (ih (n / b) (Nat.div_lt_self (by omega) hb))

theorem isNumeral_of_mem_toDigits {n : Nat} : ∀ c ∈ Nat.toDigits 10 n, isNumeral c = true := by
  intro c hc
  exact isNumeral_of_isDigit (Nat.isDigit_of_mem_toDigits (by decide) (by decide) hc)

theorem isNumeral_of_mem_sign {x : Float} : ∀ c ∈ sign x, isNumeral c = true := by
  unfold sign
  cases Exact.ofFloat x with
  | undefined => simp
  | infinite negative | finite negative => cases negative <;> simp [isNumeral]

theorem isNumeral_of_mem_fixedFraction (places : Nat) (q : Rat) :
    ∀ c ∈ fixedFraction places q, isNumeral c = true := by
  intro c hc
  simp only [fixedFraction, List.mem_append, List.mem_cons, List.leftpad, List.mem_replicate] at hc
  rcases hc with hc | rfl | ⟨-, rfl⟩ | hc
  · exact isNumeral_of_mem_toDigits c hc
  · rfl
  · rfl
  · exact isNumeral_of_mem_toDigits c hc

theorem isNumeral_of_mem_full (layout : Layout) {digits : List Char}
    (hdigits : ∀ c ∈ digits, isNumeral c = true) (places : Int) :
    ∀ c ∈ layout.full digits places, isNumeral c = true := by
  have hzeros (n : Nat) : ∀ c ∈ List.replicate n '0', isNumeral c = true := by
    intro c hc
    rw [List.eq_of_mem_replicate hc]
    rfl
  rw [Layout.full]
  split
  · exact List.forall_mem_cons.mpr ⟨rfl, List.forall_mem_cons.mpr
      ⟨rfl, List.forall_mem_append.mpr ⟨hzeros _, hdigits⟩⟩⟩
  · split
    · refine List.forall_mem_append.mpr ⟨List.forall_mem_append.mpr ⟨hdigits, hzeros _⟩, ?_⟩
      cases layout.wholePoint with
      | true => exact List.all_eq_true.mp (show ['.', '0'].all isNumeral = true by decide)
      | false => exact List.forall_mem_nil _
    · refine List.forall_mem_append.mpr ⟨fun c hc => hdigits c (List.mem_of_mem_take hc), ?_⟩
      exact List.forall_mem_cons.mpr ⟨rfl, fun c hc => hdigits c (List.mem_of_mem_drop hc)⟩

theorem isNumeral_of_mem_scientific {digits : List Char}
    (hdigits : ∀ c ∈ digits, isNumeral c = true) (places : Int) :
    ∀ c ∈ Layout.scientific digits places, isNumeral c = true := by
  have hnatural (n : Nat) : ∀ c ∈ (Nat.repr n).toList, isNumeral c = true := by
    rw [Nat.repr_eq_ofList_toDigits, String.toList_ofList]
    exact isNumeral_of_mem_toDigits
  have hpower (power : Int) : ∀ c ∈ (toString power).toList, isNumeral c = true := by
    cases power with
    | ofNat n => exact hnatural n
    | negSucc n =>
      show ∀ c ∈ ("-" ++ Nat.repr (n + 1)).toList, isNumeral c = true
      rw [String.toList_append, List.forall_mem_append]
      exact ⟨List.all_eq_true.mp (show "-".toList.all isNumeral = true by decide), hnatural _⟩
  fun_cases Layout.scientific digits places with
  | case1 => exact List.forall_mem_nil _
  | case2 power d =>
    exact List.forall_mem_cons.mpr
      ⟨hdigits d List.mem_cons_self, List.forall_mem_cons.mpr ⟨rfl, hpower _⟩⟩
  | case3 power d rest _ =>
    rw [List.forall_mem_cons] at hdigits
    exact List.forall_mem_cons.mpr ⟨hdigits.1, List.forall_mem_cons.mpr
      ⟨rfl, List.forall_mem_append.mpr ⟨hdigits.2, List.forall_mem_cons.mpr ⟨rfl, hpower _⟩⟩⟩⟩

/-- In every layout a number is written with letters, digits, points and signs. -/
theorem isNumeral_of_mem_write (layout : Layout) (x : Float) :
    ∀ c ∈ (layout.write x).toList, isNumeral c = true := by
  rw [Layout.write, String.toList_ofList, List.forall_mem_append]
  refine ⟨fun c hc => isNumeral_of_mem_sign c hc, ?_⟩
  rw [Layout.magnitude]
  split
  · exact List.all_eq_true.mp (show ['N', 'a', 'N'].all isNumeral = true by decide)
  · exact List.all_eq_true.mp (show ['i', 'n', 'f'].all isNumeral = true by decide)
  · exact isNumeral_of_mem_full layout (List.forall_mem_singleton.mpr rfl) 1
  · rw [Layout.decimal]
    split
    · exact isNumeral_of_mem_full layout isNumeral_of_mem_toDigits _
    · exact isNumeral_of_mem_scientific isNumeral_of_mem_toDigits _

theorem isNumeral_of_mem_plain (x : Float) : ∀ c ∈ (plain x).toList, isNumeral c = true :=
  isNumeral_of_mem_write plainLayout x

theorem isNumeral_of_mem_literal (x : Float) : ∀ c ∈ (literal x).toList, isNumeral c = true :=
  isNumeral_of_mem_write literalLayout x

theorem isNumeral_of_mem_fixed (places : Nat) (x : Float) :
    ∀ c ∈ (fixed places x).toList, isNumeral c = true := by
  intro c hc
  rw [fixed, String.toList_ofList, List.mem_append] at hc
  rcases hc with hc | hc
  · exact isNumeral_of_mem_sign c hc
  · revert c
    cases Exact.ofFloat x with
    | undefined => exact List.all_eq_true.mp (show ['N', 'a', 'N'].all isNumeral = true by decide)
    | infinite negative =>
      exact List.all_eq_true.mp (show ['i', 'n', 'f'].all isNumeral = true by decide)
    | finite negative q => exact isNumeral_of_mem_fixedFraction places q

end Number

namespace Markup

/-- A number needs no reference. -/
theorem escape_of_isNumeral {cs : List Char} (h : ∀ c ∈ cs, Number.isNumeral c = true) :
    escape cs = cs := by
  have hmarks : ∀ c ∈ marks, Number.isNumeral c = false := by simp [marks, Number.isNumeral]
  refine escape_eq_self_iff.mpr fun c hc hmark => ?_
  have hno := hmarks c hmark
  rw [h c hc] at hno
  cases hno

end Markup

end LatencyPlot
