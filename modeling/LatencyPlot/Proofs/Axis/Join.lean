/-
  LatencyPlot.Proofs.Axis.Join

  The bounds of the axis in exact arithmetic. They are the whole numbers that
  enclose the boxes of all records, with one unit of room above, and that leave
  less than one unit of room besides. There is one such pair of numbers, and it
  depends on nothing but the boxes; the pair for two lists of records together
  is the lesser lower and the greater upper bound.
-/
import LatencyPlot.Axis.Bounds
import LatencyPlot.Proofs.Number.Fraction

namespace LatencyPlot

open Number

/-- The lower and the upper edge of the box of a record. -/
def Record.box {α : Type} (r : Record α) : α × α := (r.p25, r.p75)

/-- Where all boxes of some records are boxes of others, each of the records has its edges in
    common with one of the others. -/
theorem Record.exists_same_box {α : Type} {records more : List (Record α)}
    (h : ∀ e ∈ records.map Record.box, e ∈ more.map Record.box) {r : Record α}
    (hr : r ∈ records) : ∃ r' ∈ more, r'.p25 = r.p25 ∧ r'.p75 = r.p75 := by
  obtain ⟨r', hr', hbox⟩ := List.mem_map.mp (h r.box (List.mem_map_of_mem hr))
  exact ⟨r', hr', congrArg Prod.fst hbox, congrArg Prod.snd hbox⟩

namespace Bounds

variable {a b : Bounds ℚ} {records more : List (Record ℚ)}

/-- Whole bounds that enclose the boxes of some records, with one unit of room above, as closely as
    whole bounds can. -/
structure Hugs (b : Bounds ℚ) (records : List (Record ℚ)) : Prop where
  min_whole : ∃ lo : ℤ, b.min = lo
  max_whole : ∃ hi : ℤ, b.max = hi
  min_le : ∀ r ∈ records, b.min ≤ r.p25
  le_max : ∀ r ∈ records, r.p75 + 1 ≤ b.max
  exists_lt_min : ∃ r ∈ records, r.p25 < b.min + 1
  exists_max_lt : ∃ r ∈ records, b.max - 1 < r.p75 + 1

/-! ## The bounds of some boxes -/

namespace Hugs

/-- A lower bound of some boxes is no higher than one that is close to them. -/
theorem min_le_min (ha : a.Hugs records) (hb : b.Hugs records) : a.min ≤ b.min := by
  obtain ⟨lo, hlo⟩ := ha.min_whole
  obtain ⟨lo', hlo'⟩ := hb.min_whole
  obtain ⟨r, hr, hclose⟩ := hb.exists_lt_min
  -- whole numbers need only be less than one apart for the order
  have hlt := (ha.min_le r hr).trans_lt hclose
  rw [hlo, hlo'] at hlt ⊢
  exact_mod_cast Int.lt_add_one_iff.mp (by exact_mod_cast hlt)

/-- An upper bound that is close to some boxes is no higher than another one. -/
theorem max_le_max (ha : a.Hugs records) (hb : b.Hugs records) : a.max ≤ b.max := by
  obtain ⟨hi, hhi⟩ := ha.max_whole
  obtain ⟨hi', hhi'⟩ := hb.max_whole
  obtain ⟨r, hr, hclose⟩ := ha.exists_max_lt
  have hlt := hclose.trans_le (hb.le_max r hr)
  rw [hhi, hhi'] at hlt ⊢
  exact_mod_cast Int.sub_one_lt_iff.mp (by exact_mod_cast hlt)

/-- At most one pair of bounds hugs the same boxes. -/
theorem unique (ha : a.Hugs records) (hb : b.Hugs records) : a = b :=
  calc a = ⟨a.min, a.max⟩ := rfl
    _ = ⟨b.min, b.max⟩ := by
      rw [(ha.min_le_min hb).antisymm (hb.min_le_min ha),
        (ha.max_le_max hb).antisymm (hb.max_le_max ha)]
    _ = b := rfl

/-- Bounds hug boxes, whichever records the boxes belong to. -/
theorem of_boxes (h : ∀ e, e ∈ records.map Record.box ↔ e ∈ more.map Record.box)
    (hb : b.Hugs records) : b.Hugs more := by
  have hback : ∀ r ∈ more, ∃ r' ∈ records, r'.p25 = r.p25 ∧ r'.p75 = r.p75 := fun _ =>
    Record.exists_same_box fun e => (h e).mpr
  have hforth : ∀ r ∈ records, ∃ r' ∈ more, r'.p25 = r.p25 ∧ r'.p75 = r.p75 := fun _ =>
    Record.exists_same_box fun e => (h e).mp
  refine ⟨hb.min_whole, hb.max_whole, fun r hr => ?_, fun r hr => ?_, ?_, ?_⟩
  · obtain ⟨r', hr', h25, -⟩ := hback r hr
    exact h25 ▸ hb.min_le r' hr'
  · obtain ⟨r', hr', -, h75⟩ := hback r hr
    exact h75 ▸ hb.le_max r' hr'
  · obtain ⟨r, hr, hlt⟩ := hb.exists_lt_min
    obtain ⟨r', hr', h25, -⟩ := hforth r hr
    exact ⟨r', hr', by rwa [h25]⟩
  · obtain ⟨r, hr, hlt⟩ := hb.exists_max_lt
    obtain ⟨r', hr', -, h75⟩ := hforth r hr
    exact ⟨r', hr', by rwa [h75]⟩

/-- Two lists of records together have the lesser lower and the greater upper bound. -/
theorem append (ha : a.Hugs records) (hb : b.Hugs more) :
    Hugs ⟨a.min ⊓ b.min, a.max ⊔ b.max⟩ (records ++ more) := by
  obtain ⟨lo, hlo⟩ := ha.min_whole
  obtain ⟨lo', hlo'⟩ := hb.min_whole
  obtain ⟨hi, hhi⟩ := ha.max_whole
  obtain ⟨hi', hhi'⟩ := hb.max_whole
  refine ⟨⟨lo ⊓ lo', by rw [hlo, hlo', Int.cast_min]⟩, ⟨hi ⊔ hi', by rw [hhi, hhi', Int.cast_max]⟩,
    fun r hr => ?_, fun r hr => ?_, ?_, ?_⟩
  · rcases List.mem_append.mp hr with hr | hr
    · exact inf_le_left.trans (ha.min_le r hr)
    · exact inf_le_right.trans (hb.min_le r hr)
  · rcases List.mem_append.mp hr with hr | hr
    · exact (ha.le_max r hr).trans le_sup_left
    · exact (hb.le_max r hr).trans le_sup_right
  · rcases min_choice a.min b.min with hmin | hmin <;> rw [hmin]
    · obtain ⟨r, hr, hlt⟩ := ha.exists_lt_min
      exact ⟨r, List.mem_append_left _ hr, hlt⟩
    · obtain ⟨r, hr, hlt⟩ := hb.exists_lt_min
      exact ⟨r, List.mem_append_right _ hr, hlt⟩
  · rcases max_choice a.max b.max with hmax | hmax <;> rw [hmax]
    · obtain ⟨r, hr, hlt⟩ := ha.exists_max_lt
      exact ⟨r, List.mem_append_left _ hr, hlt⟩
    · obtain ⟨r, hr, hlt⟩ := hb.exists_max_lt
      exact ⟨r, List.mem_append_right _ hr, hlt⟩

/-- One box that is not upside down keeps the bounds at least one unit apart. -/
theorem min_add_one_le (hb : b.Hugs records) (h : ∃ r ∈ records, r.p25 ≤ r.p75) :
    b.min + 1 ≤ b.max := by
  obtain ⟨r, hr, hle⟩ := h
  linarith [hb.min_le r hr, hb.le_max r hr]

theorem ne_nil (hb : b.Hugs records) : records ≠ [] := by
  obtain ⟨r, hr, -⟩ := hb.exists_lt_min
  exact List.ne_nil_of_mem hr

end Hugs

/-! ## The bounds of some records -/

theorem ofRecords_cons (r : Record ℚ) (rs : List (Record ℚ)) :
    ofRecords (r :: rs) = .ok
      ⟨⌊Scalar.least r.p25 (rs.map Record.p25)⌋,
        ⌈Scalar.greatest (r.p75 + 1) (rs.map fun r => r.p75 + 1)⌉⟩ := by
  rw [← rat_ceil_eq, show (1 : ℚ) = 1.0 by norm_num]
  rfl

theorem exists_hugs_of_ne_nil (h : records ≠ []) :
    ∃ b, ofRecords records = .ok b ∧ b.Hugs records := by
  obtain ⟨r, rs, rfl⟩ := List.exists_cons_of_ne_nil h
  refine ⟨_, ofRecords_cons r rs, ?_⟩
  obtain ⟨hleast, hle⟩ := isLeast_least r.p25 (rs.map Record.p25)
  obtain ⟨hgreatest, hge⟩ := isGreatest_greatest (r.p75 + 1) (rs.map fun r => r.p75 + 1)
  generalize Scalar.least r.p25 (rs.map Record.p25) = low at *
  generalize Scalar.greatest (r.p75 + 1) (rs.map fun r => r.p75 + 1) = high at *
  -- the extremes are taken from the records as a whole
  have hlows : r.p25 :: rs.map Record.p25 = (r :: rs).map Record.p25 := rfl
  have hhighs : (r.p75 + 1) :: rs.map (fun r => r.p75 + 1) =
      (r :: rs).map fun r => r.p75 + 1 := rfl
  rw [hlows] at hleast hle
  rw [hhighs] at hgreatest hge
  refine ⟨⟨_, rfl⟩, ⟨_, rfl⟩, fun s hs => ?_, fun s hs => ?_, ?_, ?_⟩
  · exact (Int.floor_le low).trans (hle (List.mem_map_of_mem hs))
  · exact (hge (List.mem_map_of_mem hs)).trans (Int.le_ceil high)
  · obtain ⟨s, hs, rfl⟩ := List.mem_map.mp hleast
    exact ⟨s, hs, Int.lt_floor_add_one s.p25⟩
  · obtain ⟨s, hs, rfl⟩ := List.mem_map.mp hgreatest
    exact ⟨s, hs, sub_lt_iff_lt_add.mpr (Int.ceil_lt_add_one _)⟩

/-- The axis of some records is the one pair of bounds that hugs their boxes. -/
theorem ofRecords_eq_ok_iff : ofRecords records = .ok b ↔ b.Hugs records := by
  refine ⟨fun h => ?_, fun hb => ?_⟩
  · cases records with
    | nil => cases h
    | cons r rs =>
      obtain ⟨a, ha, hugs⟩ := exists_hugs_of_ne_nil (List.cons_ne_nil r rs)
      obtain rfl : b = a := Except.ok.inj (h.symm.trans ha)
      exact hugs
  · obtain ⟨a, ha, hugs⟩ := exists_hugs_of_ne_nil hb.ne_nil
    rw [ha, hugs.unique hb]

theorem ofRecords_eq_error_iff : ofRecords records = .error .noRecords ↔ records = [] := by
  cases records with
  | nil => exact ⟨fun _ => rfl, fun _ => rfl⟩
  | cons r rs => rw [ofRecords_cons]; simp

/-- Records with the same boxes have the same axis, in whatever order and however often they
    come. -/
theorem ofRecords_congr (h : ∀ e, e ∈ records.map Record.box ↔ e ∈ more.map Record.box) :
    ofRecords records = ofRecords more := by
  rcases eq_or_ne records [] with rfl | hne
  · obtain rfl : more = [] := by simpa [List.eq_nil_iff_forall_not_mem] using h
    rfl
  · obtain ⟨b, hb, hugs⟩ := exists_hugs_of_ne_nil hne
    rw [hb, ofRecords_eq_ok_iff.mpr (hugs.of_boxes h)]

/-- The axis is a join over the records. Only without a record there is none. Its ends are whole
    numbers that hug the boxes, and one box that is not upside down keeps them one unit apart. The
    ends for two lists together are the lesser and the greater of the ends for each. Nothing but
    the boxes counts: not the other boundaries, labels or lines of records, not their order and not
    how often one comes. -/
theorem ofRecords_join (records more : List (Record ℚ)) :
    (ofRecords records = .error .noRecords ↔ records = []) ∧
    (records ≠ [] → ∃ b, ofRecords records = .ok b ∧ b.Hugs records ∧
      ((∃ r ∈ records, r.p25 ≤ r.p75) → b.min + 1 ≤ b.max)) ∧
    (records ≠ [] → more ≠ [] → ∃ a b, ofRecords records = .ok a ∧ ofRecords more = .ok b ∧
      ofRecords (records ++ more) = .ok ⟨a.min ⊓ b.min, a.max ⊔ b.max⟩) ∧
    ((∀ e, e ∈ records.map Record.box ↔ e ∈ more.map Record.box) →
      ofRecords records = ofRecords more) := by
  refine ⟨ofRecords_eq_error_iff, fun hne => ?_, fun hne hmore => ?_, ofRecords_congr⟩
  · obtain ⟨b, hb, hugs⟩ := exists_hugs_of_ne_nil hne
    exact ⟨b, hb, hugs, hugs.min_add_one_le⟩
  · obtain ⟨a, ha, hugs⟩ := exists_hugs_of_ne_nil hne
    obtain ⟨b, hb, hugs'⟩ := exists_hugs_of_ne_nil hmore
    exact ⟨a, b, ha, hb, ofRecords_eq_ok_iff.mpr (hugs.append hugs')⟩

end Bounds

end LatencyPlot
