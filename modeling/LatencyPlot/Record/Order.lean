/-
  LatencyPlot.Record.Order

  The order of the boxes: as read, by label, or by median. Sorting is stable.
  Labels compare by their UTF-8 bytes, medians by the total order on doubles.
-/
import LatencyPlot.Number.Binary
import LatencyPlot.Record

namespace LatencyPlot

open Number (Ranked)

/-- What the boxes are sorted by. -/
inductive SortKey where
  | input
  | label
  | median
  deriving DecidableEq, Repr

/-- The bytes that a label compares by. -/
def labelRank (label : String) : List UInt8 := label.toUTF8.toList

variable {α : Type} [Ranked α]

namespace SortKey

/-- Whether `a` may stand before `b`. -/
def allows (key : SortKey) (a b : Record α) : Bool :=
  match key with
  | .input => true
  | .label => decide (labelRank a.label ≤ labelRank b.label)
  | .median => decide (Ranked.rank a.median ≤ Ranked.rank b.median)

end SortKey

/-- The records in the order that `key` asks for; those that it does not tell apart stay in
    their order. -/
def sortRecords (key : SortKey) (records : List (Record α)) : List (Record α) :=
  match key with
  | .input => records
  | _ => records.mergeSort key.allows

/-! ## The order of a key -/

theorem SortKey.allows_total (key : SortKey) (a b : Record α) :
    (key.allows a b || key.allows b a) = true := by
  cases key with
  | input => rfl
  | label => simpa [allows] using List.le_total (labelRank a.label) (labelRank b.label)
  | median => simpa [allows] using Int.le_total (Ranked.rank a.median) (Ranked.rank b.median)

theorem SortKey.allows_trans (key : SortKey) (a b c : Record α)
    (hab : key.allows a b = true) (hbc : key.allows b c = true) : key.allows a c = true := by
  cases key with
  | input => rfl
  | label =>
    simp only [allows, decide_eq_true_eq] at *
    exact List.le_trans hab hbc
  | median =>
    simp only [allows, decide_eq_true_eq] at *
    exact Int.le_trans hab hbc

/-- Sorting loses no record and adds none. -/
theorem sortRecords_perm (key : SortKey) (records : List (Record α)) :
    (sortRecords key records).Perm records := by
  cases key
  · exact List.Perm.refl records
  · exact List.mergeSort_perm records _
  · exact List.mergeSort_perm records _

/-- After sorting no record stands before one that it must not stand before. -/
theorem pairwise_sortRecords (key : SortKey) (records : List (Record α)) :
    (sortRecords key records).Pairwise fun a b => key.allows a b = true := by
  cases key with
  | input => exact List.pairwise_of_forall fun _ _ => rfl
  | label => exact List.pairwise_mergeSort (SortKey.allows_trans _) (SortKey.allows_total _) records
  | median => exact List.pairwise_mergeSort (SortKey.allows_trans _) (SortKey.allows_total _) records

end LatencyPlot
