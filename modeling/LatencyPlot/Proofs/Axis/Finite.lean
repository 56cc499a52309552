/-
  LatencyPlot.Proofs.Axis.Finite

  The bounds of finite records: each is the floor or the ceiling of a number of
  one of the records, and so a whole number.
-/
import LatencyPlot.Proofs.Axis.Agree
import LatencyPlot.Proofs.Number.Integral

namespace LatencyPlot

open Number (Denotes)

namespace Number

/-- A fold with a function that takes one of its two arguments takes one of all. -/
theorem foldl_mem {f : Float → Float → Float} (hf : ∀ x y, f x y = x ∨ f x y = y) (x : Float)
    (xs : List Float) : xs.foldl f x ∈ x :: xs := by
  induction xs generalizing x with
  | nil => exact List.mem_singleton_self x
  | cons y ys ih =>
    rw [List.foldl_cons]
    rcases hf x y with h | h <;> rw [h]
    · exact List.cons_subset_cons x (List.subset_cons_self y ys) (ih x)
    · exact List.mem_cons_of_mem x (ih y)

/-- If the first of the values replaces what a fold starts from, the fold takes one of the
    values. -/
theorem foldl_mem_of_first {f : Float → Float → Float} (hf : ∀ x y, f x y = x ∨ f x y = y)
    (start : Float) {xs : List Float} (hne : xs ≠ []) (hstart : ∀ x ∈ xs, f start x = x) :
    xs.foldl f start ∈ xs := by
  cases xs with
  | nil => exact absurd rfl hne
  | cons x xs =>
    rw [List.foldl_cons, hstart x List.mem_cons_self]
    exact foldl_mem hf x xs

/-- A finite double is below infinity. -/
theorem Denotes.lesser_infinity {x : Float} {p : ℚ} (hx : Denotes x p) :
    Number.lesser (1.0 / 0.0) x = x := by
  have hle : x ≤ 1.0 / 0.0 := by
    rw [le_iff_unpack, show (1.0 / 0.0 : Float).toModel.unpack = .infinity .positive from rfl]
    rw [denotes_iff] at hx
    generalize x.toModel.unpack = u at hx
    rcases u with _ | _ | s | ⟨s, m, e, hm⟩ <;> cases hx <;> cases s <;> rfl
  rw [Number.lesser, decide_eq_true hle, Bool.or_true, if_pos rfl]

theorem Denotes.greater_infinity {x : Float} {p : ℚ} (hx : Denotes x p) :
    Number.greater (-1.0 / 0.0) x = x := by
  have hle : -1.0 / 0.0 ≤ x := by
    rw [le_iff_unpack, show (-1.0 / 0.0 : Float).toModel.unpack = .infinity .negative from rfl]
    rw [denotes_iff] at hx
    generalize x.toModel.unpack = u at hx
    rcases u with _ | _ | s | ⟨s, m, e, hm⟩ <;> cases hx <;> cases s <;> rfl
  rw [Number.greater, decide_eq_true hle, Bool.or_true, if_pos rfl]

theorem denotes_zero : Denotes 0.0 0 := by
  unfold Denotes
  rfl

theorem denotes_one : Denotes 1.0 1 := by
  unfold Denotes
  rfl

/-- One more than a finite double is finite. -/
theorem Denotes.exists_add_one {x : Float} {p : ℚ} (hx : Denotes x p) :
    ∃ q, Denotes (x + 1.0) q := by
  have hroom : (2 : ℚ) ^ (970 : ℤ) + 1 < 2 ^ (971 : ℤ) := by
    have hone : (1 : ℚ) < 2 ^ (970 : ℤ) := one_lt_zpow₀ (by norm_num) (by norm_num)
    rw [two_zpow_pred 971, two_mul]
    exact add_lt_add_right hone _
  have hlt : |p + 1| < 2 ^ (1024 : ℤ) - 2 ^ (970 : ℤ) := by
    calc |p + 1| ≤ |p| + |1| := abs_add_le p 1
      _ ≤ 2 ^ (1024 : ℤ) - 2 ^ (971 : ℤ) + 1 := by
        rw [abs_one]
        exact add_le_add_left hx.magnitude_le 1
      _ < 2 ^ (1024 : ℤ) - 2 ^ (970 : ℤ) := by
        generalize (2 : ℚ) ^ (1024 : ℤ) = top, (2 : ℚ) ^ (970 : ℤ) = half,
          (2 : ℚ) ^ (971 : ℤ) = spacing at hroom
        linarith
  obtain ⟨r, -, hr⟩ := (hx.add denotes_one).denotes hlt
  exact ⟨r, hr⟩

end Number

namespace Record

/-- A record of finite numbers. -/
def IsFinite (r : Record Float) : Prop := ∀ x ∈ r.bounds, x.isFinite = true

theorem IsFinite.exists_denotes {r : Record Float} (h : r.IsFinite) {x : Float}
    (hx : x ∈ r.bounds) : ∃ q, Denotes x q :=
  Number.isFinite_iff.mp (h x hx)

end Record

namespace Bounds

variable {records : List (Record Float)}

/-- The bounds of finite records, by the records that they come from. -/
theorem exists_ofRecords (hne : records ≠ []) (hfinite : ∀ r ∈ records, r.IsFinite) :
    ∃ b, ofRecords records = .ok b ∧ (∃ r ∈ records, b.min = Number.floor r.p25) ∧
      ∃ r ∈ records, b.max = Number.ceil (r.p75 + 1.0) := by
  refine ⟨_, ofRecords_eq hne, ?_, ?_⟩
  · have hmem := Number.foldl_mem_of_first Number.lesser_cases (1.0 / 0.0)
      (show records.map Record.p25 ≠ [] by simpa using hne) (by
        intro x hx
        obtain ⟨r, hr, rfl⟩ := List.mem_map.mp hx
        obtain ⟨q, hq⟩ := (hfinite r hr).exists_denotes (x := r.p25) (by simp [Record.bounds])
        exact hq.lesser_infinity)
    obtain ⟨r, hr, heq⟩ := List.mem_map.mp hmem
    exact ⟨r, hr, by rw [heq]⟩
  · have hmem := Number.foldl_mem_of_first Number.greater_cases (-1.0 / 0.0)
      (show (records.map fun r => r.p75 + 1.0) ≠ [] by simpa using hne) (by
        intro x hx
        obtain ⟨r, hr, rfl⟩ := List.mem_map.mp hx
        obtain ⟨q, hq⟩ := (hfinite r hr).exists_denotes (x := r.p75) (by simp [Record.bounds])
        obtain ⟨q', hq'⟩ := hq.exists_add_one
        exact hq'.greater_infinity)
    obtain ⟨r, hr, heq⟩ := List.mem_map.mp hmem
    exact ⟨r, hr, by rw [heq]⟩

/-- The bounds of finite records are whole numbers. -/
theorem exists_whole (hne : records ≠ []) (hfinite : ∀ r ∈ records, r.IsFinite) :
    ∃ b, ∃ lo hi : ℤ, ofRecords records = .ok b ∧ Denotes b.min lo ∧ Denotes b.max hi := by
  obtain ⟨b, hb, ⟨r, hr, hmin⟩, s, hs, hmax⟩ := exists_ofRecords hne hfinite
  obtain ⟨p, hp⟩ := (hfinite r hr).exists_denotes (x := r.p25) (by simp [Record.bounds])
  obtain ⟨q, hq⟩ := (hfinite s hs).exists_denotes (x := s.p75) (by simp [Record.bounds])
  obtain ⟨q', hq'⟩ := hq.exists_add_one
  refine ⟨b, ⌊p⌋, ⌈q'⌉, hb, ?_, ?_⟩
  · rw [hmin]
    exact hp.floor
  · rw [hmax]
    exact hq'.ceil

end Bounds

end LatencyPlot
