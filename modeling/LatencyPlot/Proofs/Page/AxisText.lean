/-
  LatencyPlot.Proofs.Page.AxisText

  The numbers that are shown for the latency axis read back as what they stand
  for: the bounds in the line about the source, and the text of each tick.
-/
import LatencyPlot.Proofs.Axis.Finite
import LatencyPlot.Proofs.Axis.Nice
import LatencyPlot.Proofs.Axis.TickText
import LatencyPlot.Proofs.Page.Structure

namespace LatencyPlot

open Markup
open Number (Denotes decimalValue?)

/-! ## Texts of doubles and of fractions -/

/-- Tenths with a sign read back. -/
theorem decimalValue?_tenths {negative : Bool} {q v : ℚ} (hq : 0 ≤ q)
    (hv : v = if negative then -q else q) {n : ℤ} (hn : v * 10 = n) :
    decimalValue? (tickChars (.finite negative q)) = some (shown v) := by
  have hmagnitude : q * 10 = n.natAbs := by
    have habs : |v| = q := by
      rw [hv]
      cases negative <;> simp [abs_of_nonneg hq]
    rw [Nat.cast_natAbs, Int.cast_abs, ← hn, abs_mul, habs, abs_of_pos (by norm_num : (0 : ℚ) < 10)]
  have hunits : q * 100 = (10 * n.natAbs : ℕ) := by
    push_cast
    linarith
  rw [decimalValue?_tickChars negative hunits, hv]

theorem decimalValue?_tickText_of_denotes {x : Float} {n : ℤ} (hx : Denotes x n) :
    decimalValue? (tickText x).toList = some (shown n) := by
  obtain ⟨negative, q, hq, hnonneg, hvalue, -⟩ := hx.exists_ofFloat
  rw [tickText, String.toList_ofList, show Scalar.exact x = .finite negative q from hq]
  exact decimalValue?_tenths hnonneg hvalue (n := n * 10) (by push_cast; rfl)

theorem decimalValue?_tickText {v : ℚ} {n : ℤ} (hv : v * 10 = n) :
    decimalValue? (tickText v).toList = some (shown v) := by
  have hexact : Scalar.exact v = .finite (decide (v < 0)) |v| := by
    rw [← Number.ratAbs_eq]
    rfl
  rw [tickText, String.toList_ofList, hexact]
  refine decimalValue?_tenths (abs_nonneg v) ?_ hv
  by_cases h : v < 0
  · simp [h, abs_of_neg h]
  · simp [h, abs_of_nonneg (not_lt.mp h)]

/-! ## The bounds on the page -/

namespace Page

/-- The bounds of the axis that the line about the source tells. -/
def boundsTold? (written : List Char) : Option (ℚ × ℚ) :=
  let rest := behindDot (behindDot written)
  let told := rest.drop " y-axis ".toList.length
  let tail := told.dropWhile (· ≠ ' ')
  if " y-axis ".toList <+: rest ∧ " to ".toList <+: tail then
    (decimalValue? (told.takeWhile (· ≠ ' '))).bind fun low =>
      (decimalValue? (tail.drop " to ".toList.length)).map fun high => (low, high)
  else none

/-- What stands behind the second dot in the line about the source. -/
theorem behindDot_behindDot_summaryText (p : Page) :
    behindDot (behindDot p.summaryText) =
      " y-axis ".toList ++ ((tickText p.bounds.min).toList ++
        (" to ".toList ++ (tickText p.bounds.max).toList)) := by
  have hdigits : escape (Nat.toDigits 10 p.records.length) = Nat.toDigits 10 p.records.length :=
    escape_of_isNumeral Number.isNumeral_of_mem_toDigits
  have htick (x : Float) : escape (tickText x).toList = (tickText x).toList :=
    escape_of_isNumeral (isNumeral_of_mem_tickText x)
  have hfirst (cs : List Char) : behindDot (" &middot; ".toList ++ cs) = ' ' :: cs := by
    simp [behindDot]
  have hruns (cs : List Char) : behindDot (" runs &middot; ".toList ++ cs) = ' ' :: cs := by
    simp [behindDot]
  have hwords : escape "y-axis ".toList = "y-axis ".toList ∧ escape " to ".toList = " to ".toList := by
    decide +kernel
  rw [summaryText_eq, behindDot_escape_append, hfirst, behindDot_cons_of_ne (by decide), ← hdigits,
    behindDot_escape_append, hruns, hwords.1, hwords.2, htick, htick]
  rfl

theorem boundsTold?_summaryText {p : Page} {lo hi : ℤ} (hmin : Denotes p.bounds.min lo)
    (hmax : Denotes p.bounds.max hi) :
    boundsTold? p.summaryText = some (shown lo, shown hi) := by
  have hblank : ∀ c ∈ (tickText p.bounds.min).toList, decide (c ≠ ' ') = true := by
    intro c hc
    rw [decide_eq_true_iff]
    rintro rfl
    exact absurd (isNumeral_of_mem_tickText _ _ hc) (by decide)
  have htake (cs : List Char) : ((tickText p.bounds.min).toList ++ (" to ".toList ++ cs)).takeWhile
      (· ≠ ' ') = (tickText p.bounds.min).toList := by
    rw [List.takeWhile_append_of_pos hblank]
    simp
  have hdrop (cs : List Char) : ((tickText p.bounds.min).toList ++ (" to ".toList ++ cs)).dropWhile
      (· ≠ ' ') = " to ".toList ++ cs := by
    rw [List.dropWhile_append_of_pos hblank]
    simp
  simp only [boundsTold?, behindDot_behindDot_summaryText, List.drop_left, htake, hdrop,
    List.prefix_append, and_self, if_true, decimalValue?_tickText_of_denotes hmin,
    decimalValue?_tickText_of_denotes hmax, Option.bind_some, Option.map_some]

end Page

/-! ## All numbers of the axis -/

/-- **The numbers of the latency axis read back**, as long as its bounds fit into 64 bits with a
    sign. Finite records have bounds, and these are whole numbers. The line about the source on
    any page with them tells both; and in exact arithmetic the text of every tick is that of the
    tick, so different ticks have different texts. -/
theorem axis_reads_back {records : List (Record Float)} (hne : records ≠ [])
    (hfinite : ∀ r ∈ records, r.IsFinite) :
    ∃ b, ∃ lo hi : ℤ, Bounds.ofRecords records = .ok b ∧ Denotes b.min lo ∧ Denotes b.max hi ∧
      (IsUncut lo → IsUncut hi →
        (∀ p : Page, p.bounds = b → ∃ written,
          Page.Encloses p.render p.plot p.above p.below ∧
          elements "div" p.above.chunks = [⟨some "meta", some written⟩, ⟨some "plot", none⟩] ∧
          Page.boundsTold? written = some ((lo : ℚ), (hi : ℚ))) ∧
        ∀ f : Frame ℚ, f.bounds = ⟨lo, hi⟩ →
          (∀ v ∈ f.ticks, decimalValue? (tickText v).toList = some v) ∧
          (f.ticks.map tickText).Nodup) := by
  obtain ⟨b, lo, hi, hb, hmin, hmax⟩ := Bounds.exists_whole hne hfinite
  refine ⟨b, lo, hi, hb, hmin, hmax, fun hlo hhi => ⟨?_, ?_⟩⟩
  · rintro p rfl
    refine ⟨p.summaryText, p.reads.parts,
      (Page.elementsOf_aboveTokens (by decide) p).trans (by simp), ?_⟩
    rw [Page.boundsTold?_summaryText hmin hmax, shown_eq_self hlo, shown_eq_self hhi]
  · intro f hf
    have hread : ∀ v ∈ f.ticks, decimalValue? (tickText v).toList = some v := by
      intro v hv
      obtain ⟨hlow, hhigh⟩ := Frame.mem_Icc_of_mem_ticks hv
      obtain ⟨n, hn⟩ := Frame.exists_tenths_of_mem_ticks (by rw [hf]) (by rw [hf]) hv
      rw [hf] at hlow hhigh
      have huncut : IsUncut v :=
        ⟨(le_min hlo.1 hhi.1).trans hlow, hhigh.trans (max_le hlo.2 hhi.2)⟩
      rw [decimalValue?_tickText hn, shown_eq_self huncut]
    refine ⟨hread, (List.nodup_map_iff_inj_on f.nodup_ticks).mpr fun v hv w hw heq => ?_⟩
    have hsame := hread v hv
    rw [heq, hread w hw] at hsame
    exact (Option.some.inj hsame).symm

theorem axis_reads_back_run :
    let records : List (Record Float) := [⟨"a", 1.0, 2.5, 3.0, 4.0, 5.0, 1⟩]
    let p : Page := ⟨"t", "a.csv", "", records, ⟨2.0, 5.0⟩⟩
    records ≠ [] ∧ (∀ r ∈ records, r.IsFinite) ∧ IsUncut 2 ∧ IsUncut 5 ∧
      Bounds.ofRecords records = .ok p.bounds ∧
      Page.boundsTold? p.summaryText = some (2, 5) := by
  intro records p
  have hne : records ≠ [] := List.cons_ne_nil _ _
  have hfinite : ∀ r ∈ records, r.IsFinite := by
    unfold Record.IsFinite
    decide +kernel
  have hlo : IsUncut 2 := ⟨by norm_num, by norm_num⟩
  have hhi : IsUncut 5 := ⟨by norm_num, by norm_num⟩
  obtain ⟨b, lo, hi, hb, hmin, hmax, hread⟩ := axis_reads_back hne hfinite
  have hbounds : Bounds.ofRecords records = .ok p.bounds := rfl
  rw [hbounds] at hb
  cases hb
  have hlow : (2 : ℚ) = lo :=
    Denotes.unique (show Denotes 2.0 2 by unfold Denotes; decide +kernel) hmin
  have hhigh : (5 : ℚ) = hi :=
    Denotes.unique (show Denotes 5.0 5 by unfold Denotes; decide +kernel) hmax
  rw [← hlow, ← hhigh] at hread
  obtain ⟨written, -, hdiv, htold⟩ := (hread hlo hhi).1 p rfl
  have hsummary := (Page.elementsOf_aboveTokens (by decide) p).symm.trans hdiv
  rw [if_neg (by decide), if_neg (by decide), if_pos rfl] at hsummary
  cases hsummary
  exact ⟨hne, hfinite, hlo, hhi, hbounds, htold⟩

/-- Beyond the limits the texts do not tell the numbers, and different ticks have one text. -/
theorem axis_cut :
    let records : List (Record Float) := [⟨"a", 0.0, 0.0, 0.0, 1e20, 1e20, 1⟩]
    let p : Page := ⟨"t", "a.csv", "", records, ⟨0.0, 1e20⟩⟩
    let f : Frame ℚ := ⟨0, 0, 0, 0, ⟨0, 10 ^ 20⟩⟩
    (∀ r ∈ records, r.IsFinite) ∧ Bounds.ofRecords records = .ok p.bounds ∧
      Denotes p.bounds.min f.bounds.min ∧ Denotes p.bounds.max f.bounds.max ∧
      Page.boundsTold? p.summaryText = some (0, 9223372036854775807) ∧
      ∃ v ∈ f.ticks, ∃ w ∈ f.ticks, v ≠ w ∧ tickText v = tickText w := by
  intro records p f
  have hmin : Denotes p.bounds.min ((0 : ℤ) : ℚ) := by
    unfold Denotes
    decide +kernel
  have hmax : Denotes p.bounds.max ((10 ^ 20 : ℤ) : ℚ) := by
    unfold Denotes
    decide +kernel
  refine ⟨?_, by decide +kernel, hmin, ?_, ?_, 2 * 10 ^ 19, ?_, 4 * 10 ^ 19, ?_, ?_, ?_⟩
  · unfold Record.IsFinite
    decide +kernel
  · rwa [Int.cast_pow, Int.cast_ofNat] at hmax
  · rw [Page.boundsTold?_summaryText hmin hmax]
    norm_num [shown]
  · decide +kernel
  · decide +kernel
  · norm_num
  · decide +kernel

end LatencyPlot
