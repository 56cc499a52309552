/-
  LatencyPlot.Proofs.Plot.Reach

  How far the marks of a plot reach. The bounds of the latency axis are whole
  numbers, so they are at least one unit apart unless they meet, and what is
  divided by their distance does not grow. Hence no mark leaves the range of
  doubles, if the latencies times the size of the canvas are well within it.
-/
import LatencyPlot.Plot.Box
import LatencyPlot.Proofs.Axis.Reach

namespace LatencyPlot

open Number (Denotes Within AtLeast Whole)

/-! ## The latency axis -/

/-- Latencies of at most `2 ^ a` in magnitude. -/
def Record.IsWithin (a : ℤ) (r : Record Float) : Prop := ∀ x ∈ r.bounds, Within a x

namespace Bounds

variable {records : List (Record Float)} {a : ℤ}

/-- The bounds of the axis are whole numbers that reach no further than the latencies, but for the
    unit of room. -/
theorem exists_whole_within (hne : records ≠ []) (hreach : ∀ r ∈ records, r.IsWithin a)
    (ha : 0 ≤ a) (ha' : a ≤ 1022) :
    ∃ b, ofRecords records = .ok b ∧ Whole (a + 1) b.min ∧ Whole (a + 1) b.max := by
  obtain ⟨b, hb, ⟨r, hr, hmin⟩, s, hs, hmax⟩ :=
    exists_ofRecords hne fun r hr x hx => (hreach r hr x hx).isFinite
  have hone : Within a 1.0 := ⟨1, Number.denotes_one, by
    rw [abs_one]
    exact one_le_zpow₀ (by norm_num) ha⟩
  refine ⟨b, hb, ?_, ?_⟩
  · rw [hmin]
    exact Number.whole_floor ((hreach r hr r.p25 (by simp [Record.bounds])).mono (by omega))
      (by omega)
  · rw [hmax]
    exact Number.whole_ceil ((hreach s hs s.p75 (by simp [Record.bounds])).add hone
      ⟨by omega, by omega⟩) (by omega)

end Bounds

/-! ## The plot area -/

namespace Frame

variable {f : Frame Float} {style : Style Float} {a b k : ℤ}

/-- A plot area whose bounds reach up to `2 ^ a`, and its size up to `2 ^ b`. -/
structure Reaches (f : Frame Float) (a b : ℤ) : Prop where
  left : Within 6 f.left
  top : Within 6 f.top
  width : Within b f.width
  height : Within b f.height
  lower : Whole a f.bounds.min
  upper : Whole a f.bounds.max

theorem within_bottomMargin (rotated : Bool) (xLabel : String) :
    Within 7 (bottomMargin rotated xLabel : Float) := by
  unfold bottomMargin
  split <;> exact Number.within_literal (by norm_num) ⟨by norm_num, by norm_num⟩ (by norm_num)

theorem reaches_ofStyle {bounds : Bounds Float} (hwidth : Within b style.width)
    (hheight : Within b style.height) (hmin : Whole a bounds.min) (hmax : Whole a bounds.max)
    (hb : 0 ≤ b) (hb' : b ≤ 1000) (n : ℕ) : (ofStyle style n bounds).Reaches a (b + 9) := by
  have hleft : Within 6 64.0 :=
    Number.within_literal (by norm_num) ⟨by norm_num, by norm_num⟩ (by norm_num)
  have hright : Within 7 20.0 :=
    Number.within_literal (by norm_num) ⟨by norm_num, by norm_num⟩ (by norm_num)
  have htop : Within 6 (if style.title.isEmpty then 14.0 else 38.0) := by
    split <;> exact Number.within_literal (by norm_num) ⟨by norm_num, by norm_num⟩ (by norm_num)
  have hone : Within (b + 9) 1.0 := ⟨1, Number.denotes_one, by
    rw [abs_one]
    exact one_le_zpow₀ (by norm_num) (by omega)⟩
  -- two margins are taken from a side
  have hside {x y z : Float} (hx : Within b x) (hy : Within 6 y) (hz : Within 7 z) :
      Within (b + 9) (Number.greater (x - y - z) 1.0) := by
    have hfirst : Within (b + 8) (x - y) :=
      ((hx.mono (show b ≤ b + 7 by omega)).sub (hy.mono (by omega)) ⟨by omega, by omega⟩).mono
        (by omega)
    exact ((hfirst.sub (hz.mono (by omega)) ⟨by omega, by omega⟩).mono (by omega)).greater hone
  exact {
    left := hleft
    top := htop
    width := hside hwidth hleft hright
    height := hside hheight htop (within_bottomMargin _ _)
    lower := hmin
    upper := hmax }

/-- What the heights of latencies are divided by is at least one: the distance of the bounds, or
    one where they meet. -/
theorem Reaches.span (h : f.Reaches a b) (ha : a ≤ 1022) :
    AtLeast 0 (if f.bounds.span == 0.0 then 1.0 else f.bounds.span) := by
  have hspan : Denotes f.bounds.span 0 ∨ AtLeast 0 f.bounds.span := h.upper.sub_cases h.lower ha
  rcases hspan with hmeet | hapart
  · rw [if_pos ((hmeet.beq_iff Number.denotes_zero).mpr rfl)]
    exact ⟨1, Number.denotes_one, by norm_num⟩
  · split
    · exact ⟨1, Number.denotes_one, by norm_num⟩
    · exact hapart

/-- The height of a latency on the canvas. -/
theorem Reaches.y (h : f.Reaches a b) {v : Float} (hv : Within k v) (ha : 0 ≤ a) (hak : a ≤ k)
    (hb : 6 ≤ b) (hkb : k + b ≤ 1000) : Within (k + b + 2) (f.y v) := by
  have hratio : Within (k + 1)
      ((v - f.bounds.min) / if f.bounds.span == 0.0 then 1.0 else f.bounds.span) := by
    have hoffset := hv.sub (h.lower.within.mono hak) ⟨by omega, by omega⟩
    exact (hoffset.div (h.span (by omega)) ⟨by omega, by omega⟩).mono (by omega)
  have hrise := hratio.mul h.height ⟨by omega, by omega⟩
  have hbase : Within (k + 1 + b) (f.top + f.height) :=
    ((h.top.mono hb).add h.height ⟨by omega, by omega⟩).mono (by omega)
  exact (hbase.sub hrise ⟨by omega, by omega⟩).mono (by omega)

/-- The latencies with a grid line. -/
theorem Reaches.ticks (h : f.Reaches a b) (ha : 0 ≤ a) (ha' : a ≤ 990) :
    ∀ v ∈ f.ticks, Within (a + 23) v := by
  intro v hv
  rw [Frame.ticks] at hv
  split at hv
  · cases hv
  next hlong =>
  have hlow : Whole a (Number.lesser f.bounds.min f.bounds.max) := h.lower.lesser h.upper
  have hhigh : Whole a (Number.greater f.bounds.min f.bounds.max) := h.lower.greater h.upper
  refine Ticks.within_values_nice hlow.within hhigh.within ?_ ha ha' v hv
  -- bounds that meet are closer than the least distance for a grid
  refine (hhigh.sub_cases hlow (by omega)).resolve_left fun hmeet => hlong ?_
  obtain ⟨c, hc, -⟩ := Ticks.within_leastLength
  exact (hmeet.lt_iff hc).mpr ((Number.denotes_zero.lt_iff hc).mp (by decide +kernel))

/-! ## Slots and boxes -/

/-- The width of a slot is at most that of the plot area. -/
theorem Reaches.slot (h : f.Reaches a b) {n : ℕ} (hn : n < 2 ^ 64) (hb : 0 ≤ b) (hb' : b ≤ 1000) :
    Within b (f.slot n) := by
  have hcount : AtLeast 0 (Float.ofNat (max n 1)) := by
    refine (Number.computes_ofNat (max n 1)).atLeast (by norm_num) (show 64 ≤ 1023 by norm_num) ?_ ?_
    · rw [Nat.abs_cast, zpow_zero]
      exact_mod_cast le_max_right n 1
    · rw [Nat.abs_cast]
      exact_mod_cast (show max n 1 ≤ 2 ^ 64 by omega)
  exact (h.width.div hcount ⟨by omega, by omega⟩).mono (by omega)

/-- The middle of a slot. -/
theorem Reaches.centre (h : f.Reaches a b) {n i : ℕ} (hi : i < n) (hn : n < 2 ^ 64) (hb : 0 ≤ b)
    (hb' : b ≤ 950) : Within (b + 66) (f.centre n i) := by
  have hnumber : Within 64 (Float.ofNat i) :=
    Number.within_ofNat ⟨by norm_num, by norm_num⟩ (by exact_mod_cast (by omega : i ≤ 2 ^ 64))
  have hplace : Within 65 (Float.ofNat i + 0.5) :=
    hnumber.add (Number.within_half.mono (by norm_num)) ⟨by norm_num, by norm_num⟩
  have hoffset : Within (b + 65) ((Float.ofNat i + 0.5) * f.slot n) :=
    (hplace.mul (h.slot hn hb (by omega)) ⟨by omega, by omega⟩).mono (by omega)
  exact ((h.left.mono (by omega)).add hoffset ⟨by omega, by omega⟩).mono (by omega)

/-- Boxes are at most eighty pixels wide. -/
theorem Reaches.boxWidth (h : f.Reaches a b) {n : ℕ} (hn : n < 2 ^ 64) (hb : 0 ≤ b)
    (hb' : b ≤ 1000) : Within 7 (f.boxWidth n) := by
  have heighty : Denotes 80.0 80 := by
    unfold Denotes
    decide +kernel
  obtain ⟨q, hq, -⟩ := (h.slot hn hb hb').mul Number.within_half ⟨by omega, by omega⟩
  show Within 7 (Scalar.clamp (f.slot n * 0.5) 1.0 80.0)
  rw [Scalar.clamp]
  split
  · exact ⟨1, Number.denotes_one, by norm_num⟩
  next hlow =>
  split
  · exact ⟨80, heighty, by norm_num⟩
  next hhigh =>
  refine ⟨q, hq, ?_⟩
  have hone : 1 ≤ q := not_lt.mp fun hlt => hlow ((hq.lt_iff Number.denotes_one).mpr hlt)
  have heighty : q ≤ 80 := not_lt.mp fun hlt => hhigh ((heighty.lt_iff hq).mpr hlt)
  rw [abs_of_nonneg (by linarith)]
  exact heighty.trans (by norm_num)

end Frame

namespace Box

variable {b : Box Float} {k : ℤ}

/-- A box whose marks stand within `2 ^ k` of the origin. -/
structure IsWithin (k : ℤ) (b : Box Float) : Prop where
  centre : Within k b.centre
  width : Within k b.width
  capWidth : Within k b.capWidth
  yLow : Within k b.yLow
  yP25 : Within k b.yP25
  yMedian : Within k b.yMedian
  yP75 : Within k b.yP75
  yHigh : Within k b.yHigh

theorem IsWithin.left (h : b.IsWithin k) (hk : 0 ≤ k) (hk' : k ≤ 1022) : Within (k + 1) b.left :=
  h.centre.sub (h.width.div_two hk (by omega)) ⟨by omega, by omega⟩

theorem IsWithin.right (h : b.IsWithin k) (hk : 0 ≤ k) (hk' : k ≤ 1021) : Within (k + 2) b.right :=
  ((h.left hk (by omega)).add (h.width.mono (by omega)) ⟨by omega, by omega⟩).mono (by omega)

theorem IsWithin.top (h : b.IsWithin k) : Within k b.top := h.yP75.lesser h.yP25

theorem IsWithin.height (h : b.IsWithin k) (hk : 0 ≤ k) (hk' : k ≤ 1022) : Within (k + 1) b.height :=
  (h.yP25.sub h.yP75 ⟨by omega, by omega⟩).abs

theorem IsWithin.capLeft (h : b.IsWithin k) (hk : 0 ≤ k) (hk' : k ≤ 1022) :
    Within (k + 1) b.capLeft :=
  h.centre.sub (h.capWidth.div_two hk (by omega)) ⟨by omega, by omega⟩

theorem IsWithin.capRight (h : b.IsWithin k) (hk : 0 ≤ k) (hk' : k ≤ 1022) :
    Within (k + 1) b.capRight :=
  h.centre.add (h.capWidth.div_two hk (by omega)) ⟨by omega, by omega⟩

end Box

/-- The marks of a record whose latencies reach no further than the bounds of the axis. -/
theorem Frame.Reaches.box {f : Frame Float} {a b : ℤ} (h : f.Reaches a b) {n i : ℕ} (hi : i < n)
    (hn : n < 2 ^ 64) {r : Record Float} (hr : r.IsWithin a) (ha : 0 ≤ a) (hb : 6 ≤ b)
    (hab : a + b ≤ 920) : (Box.ofRecord f n i r).IsWithin (a + b + 66) := by
  have hheight {v : Float} (hv : v ∈ r.bounds) : Within (a + b + 66) (f.y v) :=
    (h.y (hr v hv) ha le_rfl hb (by omega)).mono (by omega)
  have hwidth := h.boxWidth hn (by omega) (by omega)
  exact {
    centre := (h.centre hi hn (by omega) (by omega)).mono (by omega)
    width := hwidth.mono (by omega)
    capWidth := (hwidth.mul Number.within_half ⟨by norm_num, by norm_num⟩).mono (by omega)
    yLow := hheight (by simp [Record.bounds])
    yP25 := hheight (by simp [Record.bounds])
    yMedian := hheight (by simp [Record.bounds])
    yP75 := hheight (by simp [Record.bounds])
    yHigh := hheight (by simp [Record.bounds]) }

end LatencyPlot
