/-
  LatencyPlot.Proofs.Record.Arrangement

  Sorting is the stable order of a key, and there is no other one: the records
  are those that were there, none stands before one that the key puts in front
  of it, and those with one key stay in their order. Sorted by one key after
  another, records stand in the order of the last key, then of the one before
  it, and at last of their places in the input.
-/
import LatencyPlot.Proofs.Number.TotalOrder
import LatencyPlot.Proofs.Record.Sorting
import LatencyPlot.Proofs.Text.Bytes
import Mathlib.Data.List.Sort

namespace LatencyPlot

open Number (Binary Ranked)

/-! ## Stable orders of a key -/

section Ranked

variable {α : Type} [Ranked α] {key : SortKey} {records sorted sorted' : List (Record α)}

/-- What is sorted stays as it is when it is sorted again. -/
theorem sortRecords_sortRecords (key : SortKey) (records : List (Record α)) :
    sortRecords key (sortRecords key records) = sortRecords key records := by
  rw [sortRecords_eq_mergeSort key (sortRecords key records)]
  exact List.mergeSort_of_pairwise (pairwise_sortRecords key records)

theorem SortKey.ties_self (key : SortKey) (a : Record α) : key.ties a a = true := by
  have htotal := key.allows_total a a
  rw [Bool.or_self] at htotal
  rw [ties, htotal, Bool.and_self]

theorem SortKey.allows_of_mem_cons {a b : Record α}
    (h : (a :: records).Pairwise fun a b => key.allows a b = true) (hb : b ∈ a :: records) :
    key.allows a b = true := by
  rcases List.mem_cons.mp hb with rfl | hb
  · exact (Bool.and_eq_true_iff.mp (key.ties_self b)).1
  · exact (List.pairwise_cons.mp h).1 b hb

theorem mem_of_filter_ties_eq (h : ∀ a, sorted.filter (key.ties a) = sorted'.filter (key.ties a))
    {a : Record α} (ha : a ∈ sorted) : a ∈ sorted' := by
  have ha' : a ∈ sorted.filter (key.ties a) := List.mem_filter.mpr ⟨ha, key.ties_self a⟩
  rw [h] at ha'
  exact List.mem_of_mem_filter ha'

/-- Lists in the order of a key are equal if they are so on all records with one key. -/
theorem eq_of_filter_ties_eq (h : sorted.Pairwise fun a b => key.allows a b = true)
    (h' : sorted'.Pairwise fun a b => key.allows a b = true)
    (hties : ∀ a, sorted.filter (key.ties a) = sorted'.filter (key.ties a)) :
    sorted = sorted' := by
  induction sorted generalizing sorted' with
  | nil =>
    cases sorted' with
    | nil => rfl
    | cons b sorted' =>
      have hmem := mem_of_filter_ties_eq (fun a => (hties a).symm) (List.mem_cons_self (a := b))
      cases hmem
  | cons a sorted ih =>
    cases sorted' with
    | nil => cases mem_of_filter_ties_eq hties (List.mem_cons_self (a := a))
    | cons b sorted' =>
      -- each of the two heads is in the other list too, and so behind the head of that list
      have hab : key.ties a b = true := by
        rw [SortKey.ties, Bool.and_eq_true]
        have hb := mem_of_filter_ties_eq (fun a => (hties a).symm) (List.mem_cons_self (a := b))
        have ha := mem_of_filter_ties_eq hties (List.mem_cons_self (a := a))
        exact ⟨SortKey.allows_of_mem_cons h hb, SortKey.allows_of_mem_cons h' ha⟩
      -- with one key, they are the first ones with it in the two lists
      have hheads := hties a
      rw [List.filter_cons_of_pos (key.ties_self a), List.filter_cons_of_pos hab,
        List.cons.injEq] at hheads
      obtain ⟨rfl, -⟩ := hheads
      refine congrArg (a :: ·) (ih h.of_cons h'.of_cons fun c => ?_)
      have htails := hties c
      by_cases hc : key.ties c a = true
      · rw [List.filter_cons_of_pos hc, List.filter_cons_of_pos hc] at htails
        exact List.tail_eq_of_cons_eq htails
      · rwa [List.filter_cons_of_neg hc, List.filter_cons_of_neg hc] at htails

/-- There is one stable order of a key. -/
theorem stableSort_iff : StableSort key records sorted ↔ sorted = sortRecords key records := by
  constructor
  · intro h
    have hsort := stableSort_sortRecords key records
    refine eq_of_filter_ties_eq h.ordered hsort.ordered fun a => ?_
    rw [h.stable, hsort.stable]
  · rintro rfl
    exact stableSort_sortRecords key records

/-- Records are sorted as their bounds are ranked, whatever the bounds are. -/
theorem map_sortRecords {β : Type} [Ranked β] {f : α → β}
    (hf : ∀ x, Ranked.rank (f x) = Ranked.rank x) (key : SortKey) (records : List (Record α)) :
    (sortRecords key records).map (Record.map f) =
      sortRecords key (records.map (Record.map f)) := by
  rw [sortRecords_eq_mergeSort, sortRecords_eq_mergeSort]
  refine List.map_mergeSort fun a _ b _ => ?_
  cases key with
  | input | label => rfl
  | median =>
    show decide _ = decide (Ranked.rank (f a.median) ≤ Ranked.rank (f b.median))
    rw [hf, hf]

end Ranked

/-! ## What the keys are -/

namespace SortKey

/-- Whether a key puts `a` in front of `b`: labels go by their UTF-8 bytes, and medians by the total
    order of doubles. -/
def Before : SortKey → Record Binary → Record Binary → Prop
  | .input, _, _ => False
  | .label, a, b => a.label.toUTF8.toList < b.label.toUTF8.toList
  | .median, a, b => a.median.Below b.median

/-- Whether two records have one key. -/
def Same : SortKey → Record Binary → Record Binary → Prop
  | .input, _, _ => True
  | .label, a, b => a.label = b.label
  | .median, a, b => a.median = b.median

variable {key : SortKey} {a b : Record Binary}

theorem allows_iff : key.allows a b = true ↔ ¬ key.Before b a := by
  cases key with
  | input => simp [allows, Before]
  | label => rw [allows, decide_eq_true_iff, Before, List.not_lt, labelRank, labelRank]
  | median =>
    rw [allows, decide_eq_true_iff, Before, ← Binary.rank_lt_iff_below, not_lt]
    rfl

theorem ties_iff : key.ties a b = true ↔ key.Same a b := by
  rw [ties, Bool.and_eq_true]
  cases key with
  | input => simp [allows, Same]
  | label =>
    rw [allows, allows, decide_eq_true_iff, decide_eq_true_iff, Same]
    refine ⟨fun h => Text.toUTF8_inj (List.le_antisymm h.1 h.2), fun h => ?_⟩
    rw [h]
    exact ⟨List.le_refl _, List.le_refl _⟩
  | median =>
    rw [allows, allows, decide_eq_true_iff, decide_eq_true_iff, ← le_antisymm_iff, Same]
    exact ⟨Binary.rank_inj, congrArg Binary.rank⟩

instance (key : SortKey) (a : Record Binary) : DecidablePred (key.Same a) := fun _ =>
  decidable_of_iff _ ties_iff

/-- Of two records one is in front, or they have one key. -/
theorem before_or_same_of_allows (h : key.allows a b = true) : key.Before a b ∨ key.Same a b := by
  by_cases hba : key.allows b a = true
  · exact .inr (ties_iff.mp (by rw [ties, h, hba, Bool.and_self]))
  · exact .inl (not_not.mp fun hab => hba (allows_iff.mpr hab))

theorem Same.allows (h : key.Same a b) : key.allows a b = true :=
  (Bool.and_eq_true_iff.mp (ties_iff.mpr h)).1

theorem Before.not_same (h : key.Before a b) : ¬ key.Same a b := by
  rw [← ties_iff, ties, Bool.and_eq_true]
  exact fun hties => allows_iff.mp hties.2 h

theorem Before.not_before (h : key.Before a b) : ¬ key.Before b a := by
  intro hba
  rcases Bool.or_eq_true_iff.mp (key.allows_total a b) with hab | hab
  · exact allows_iff.mp hab hba
  · exact allows_iff.mp hab h

theorem Same.symm (h : key.Same a b) : key.Same b a := by
  cases key with
  | input => trivial
  | label | median => exact Eq.symm h

end SortKey

/-- `sorted` is the stable order of `records` by a key. -/
structure IsSorted (key : SortKey) (records sorted : List (Record Binary)) : Prop where
  perm : sorted.Perm records
  ordered : sorted.Pairwise fun a b => ¬ key.Before b a
  stable : ∀ a, sorted.filter (key.Same a) = records.filter (key.Same a)

theorem isSorted_iff {key : SortKey} {records sorted : List (Record Binary)} :
    IsSorted key records sorted ↔ sorted = sortRecords key records := by
  have hties (a : Record Binary) : key.ties a = fun b => decide (key.Same a b) :=
    funext fun b => by rw [Bool.eq_iff_iff, SortKey.ties_iff, decide_eq_true_iff]
  rw [← stableSort_iff]
  constructor
  · rintro ⟨hperm, hordered, hstable⟩
    refine ⟨hperm, hordered.imp fun h => SortKey.allows_iff.mpr h, fun a => ?_⟩
    rw [hties]
    exact hstable a
  · rintro ⟨hperm, hordered, hstable⟩
    refine ⟨hperm, hordered.imp fun h => SortKey.allows_iff.mp h, fun a => ?_⟩
    rw [← hties]
    exact hstable a

/-! ## One key after another -/

/-- Whether `a` stands in front of `b` by some keys, the first one counting most, and then by the
    places of the two in the input. -/
def Precedes : List SortKey → Record Binary × ℕ → Record Binary × ℕ → Prop
  | [], a, b => a.2 < b.2
  | key :: keys, a, b => key.Before a.1 b.1 ∨ key.Same a.1 b.1 ∧ Precedes keys a b

/-- `sorted` holds the records, with their places in the input, each in front of those that it
    precedes. -/
def IsArranged (keys : List SortKey) (records sorted : List (Record Binary)) : Prop :=
  ∃ placed : List (Record Binary × ℕ), placed.Perm records.zipIdx ∧
    placed.map Prod.fst = sorted ∧ placed.Pairwise (Precedes keys)

theorem Precedes.asymm {keys : List SortKey} {a b : Record Binary × ℕ} (h : Precedes keys a b) :
    ¬ Precedes keys b a := by
  induction keys with
  | nil => exact Nat.lt_asymm h
  | cons key keys ih =>
    rcases h with hab | ⟨hab, hrest⟩
    · -- what is in front by the first key is not behind by it, and has not the same
      rintro (hba | ⟨hba, -⟩)
      · exact hab.not_before hba
      · exact hab.not_same hba.symm
    · rintro (hba | ⟨-, hrest'⟩)
      · exact hba.not_same hab.symm
      · exact ih hrest hrest'

theorem IsArranged.unique {keys : List SortKey} {records sorted sorted' : List (Record Binary)}
    (h : IsArranged keys records sorted) (h' : IsArranged keys records sorted') :
    sorted = sorted' := by
  obtain ⟨placed, hperm, rfl, hplaced⟩ := h
  obtain ⟨placed', hperm', rfl, hplaced'⟩ := h'
  -- no two places precede each other, so there is one such order of them
  rw [List.Perm.eq_of_pairwise (fun _ _ _ _ hab hba => (hab.asymm hba).elim) hplaced hplaced'
    (hperm.trans hperm'.symm)]

/-- Sorting by one more key makes it the first one. -/
theorem IsArranged.sortRecords {keys : List SortKey} {records sorted : List (Record Binary)}
    (h : IsArranged keys records sorted) (key : SortKey) :
    IsArranged (key :: keys) records (sortRecords key sorted) := by
  obtain ⟨placed, hperm, rfl, hplaced⟩ := h
  let allows (a b : Record Binary × ℕ) : Bool := key.allows a.1 b.1
  have htrans (a b c : Record Binary × ℕ) (hab : allows a b = true) (hbc : allows b c = true) :
      allows a c = true := key.allows_trans a.1 b.1 c.1 hab hbc
  have htotal (a b : Record Binary × ℕ) : (allows a b || allows b a) = true :=
    key.allows_total a.1 b.1
  -- the records are sorted along with their places
  refine ⟨placed.mergeSort allows, (List.mergeSort_perm placed allows).trans hperm, ?_, ?_⟩
  · rw [sortRecords_eq_mergeSort]
    exact List.map_mergeSort fun _ _ _ _ => rfl
  rw [List.pairwise_iff_forall_sublist]
  intro a b hab
  have hallows : allows a b = true :=
    List.pairwise_iff_forall_sublist.mp (List.pairwise_mergeSort htrans htotal placed) hab
  rcases SortKey.before_or_same_of_allows hallows with hbefore | hsame
  · exact .inl hbefore
  · -- the two have one key, so they were in this order before
    have hab' := pair_sublist_of_mergeSort htrans htotal hab hsame.symm.allows
    exact .inr ⟨hsame, List.pairwise_iff_forall_sublist.mp hplaced hab'⟩

theorem isArranged_iff {keys : List SortKey} {records sorted : List (Record Binary)} :
    IsArranged keys records sorted ↔ sorted = keys.foldr sortRecords records := by
  have hplaces : records.zipIdx.Pairwise (Precedes []) := by
    have hrange := List.pairwise_lt_range' (s := 0) (n := records.length)
    rw [← List.zipIdx_map_snd, List.pairwise_map] at hrange
    exact hrange
  have harranged : IsArranged keys records (keys.foldr sortRecords records) := by
    induction keys with
    | nil => exact ⟨records.zipIdx, .refl _, List.zipIdx_map_fst 0 records, hplaces⟩
    | cons key keys ih => exact ih.sortRecords key
  constructor
  · exact fun h => h.unique harranged
  · rintro rfl
    exact harranged

/-- Sorting is the one stable order of a key, so sorting again changes nothing. Sorting by one key
    after another is the one order by these keys, the last one counting most, and then by the
    places in the input. What a run sorts is sorted like its bits. -/
theorem sortRecords_unique (records : List (Record Binary)) :
    (∀ key sorted, IsSorted key records sorted ↔ sorted = sortRecords key records) ∧
    sortRecords .input records = records ∧
    (∀ key, sortRecords key (sortRecords key records) = sortRecords key records) ∧
    (∀ sorted, IsArranged [.median, .label] records sorted ↔
      sorted = sortRecords .median (sortRecords .label records)) ∧
    (∀ keys sorted, IsArranged keys records sorted ↔ sorted = keys.foldr sortRecords records) ∧
    ∀ key (runs : List (Record Float)),
      (sortRecords key runs).map (Record.map Binary.ofFloat) =
        sortRecords key (runs.map (Record.map Binary.ofFloat)) :=
  ⟨fun _ _ => isSorted_iff, rfl, fun key => sortRecords_sortRecords key records,
    fun _ => isArranged_iff, fun _ _ => isArranged_iff, map_sortRecords fun _ => rfl⟩

end LatencyPlot
