/-
  LatencyPlot.Proofs.Record.Sorting

  The order of sorted records: no record is lost, none stands before one that
  it must not stand before, and those that the key does not tell apart stay in
  the order that they had.
-/
import LatencyPlot.Record.Order
import Mathlib.Data.List.Basic

namespace LatencyPlot

open Number (Ranked)

variable {α : Type} [Ranked α]

/-- Whether a key does not tell two records apart. -/
def SortKey.ties (key : SortKey) (a b : Record α) : Bool := key.allows a b && key.allows b a

/-- A list is another one in the order of a key, and in its old order where the key leaves it
    open. -/
structure StableSort (key : SortKey) (records sorted : List (Record α)) : Prop where
  perm : sorted.Perm records
  ordered : sorted.Pairwise fun a b => key.allows a b = true
  stable : ∀ a, sorted.filter (key.ties a) = records.filter (key.ties a)

/-- Sorting leaves in their order what a relation does not tell apart. -/
theorem filter_mergeSort {β : Type} {le : β → β → Bool}
    (htrans : ∀ a b c, le a b = true → le b c = true → le a c = true)
    (htotal : ∀ a b, (le a b || le b a) = true) (l : List β) (a : β) :
    (l.mergeSort le).filter (fun b => le a b && le b a) =
      l.filter (fun b => le a b && le b a) := by
  have hpairwise : (l.filter fun b => le a b && le b a).Pairwise fun b c => le b c = true := by
    rw [List.pairwise_filter]
    refine List.pairwise_of_forall fun b c hb hc => ?_
    -- what ties with `a` may stand before it and behind it
    rw [Bool.and_eq_true] at hb hc
    exact htrans b a c hb.2 hc.1
  have hsublist : (l.filter fun b => le a b && le b a).Sublist (l.mergeSort le) :=
    List.sublist_mergeSort htrans htotal hpairwise List.filter_sublist
  have hfilter := hsublist.filter fun b => le a b && le b a
  rw [List.filter_filter] at hfilter
  simp only [Bool.and_self] at hfilter
  have hlength := ((List.mergeSort_perm l le).filter fun b => le a b && le b a).length_eq
  exact (hfilter.eq_of_length hlength.symm).symm

/-- Two that stand in some order after sorting, and may stand in the other one, were in that
    order before. -/
theorem pair_sublist_of_mergeSort {β : Type} {le : β → β → Bool}
    (htrans : ∀ a b c, le a b = true → le b c = true → le a c = true)
    (htotal : ∀ a b, (le a b || le b a) = true) {l : List β} {a b : β}
    (h : [a, b].Sublist (l.mergeSort le)) (hba : le b a = true) : [a, b].Sublist l := by
  have hab : le a b = true :=
    List.pairwise_iff_forall_sublist.mp (List.pairwise_mergeSort htrans htotal l) h
  have haa : le a a = true := htrans a b a hab hba
  have hfilter := h.filter fun c => le a c && le c a
  rw [filter_mergeSort htrans htotal] at hfilter
  simp only [List.filter_cons, List.filter_nil, haa, hab, hba, Bool.and_self, if_true] at hfilter
  exact hfilter.trans List.filter_sublist

theorem sortRecords_eq_mergeSort (key : SortKey) (records : List (Record α)) :
    sortRecords key records = records.mergeSort key.allows := by
  cases key with
  | input => exact (List.mergeSort_of_pairwise (List.pairwise_of_forall fun _ _ => rfl)).symm
  | label | median => rfl

/-- Records are sorted stably. -/
theorem stableSort_sortRecords (key : SortKey) (records : List (Record α)) :
    StableSort key records (sortRecords key records) where
  perm := sortRecords_perm key records
  ordered := pairwise_sortRecords key records
  stable a := by
    rw [sortRecords_eq_mergeSort]
    exact filter_mergeSort key.allows_trans key.allows_total records a

end LatencyPlot
