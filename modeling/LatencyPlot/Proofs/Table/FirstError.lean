/-
  LatencyPlot.Proofs.Table.FirstError

  The exact outcome of reading a table without a header. Lines fall apart into
  those before the first bad row, that row, and the rest:

    * where no row is bad each row gives its record (`readLines_of_good`);
    * the first bad row gives the error, whatever follows it (`readLines_of_bad`);
    * a table with a bad row has a first one (`exists_first_bad`).

  `readRecords_outcome` puts the three together, for a text in UTF-8.
-/
import LatencyPlot.Proofs.Table.Append
import LatencyPlot.Proofs.Text.Bytes
import Mathlib.Data.List.Forall2

namespace LatencyPlot.Table

/-- The rows among lines that are numbered from `number` on, each with its number. -/
def rowsFrom (number : Nat) (lines : List (List Char)) : List (List Char × Nat) :=
  (lines.zipIdx number).filter fun row => decide (IsRow row.1)

theorem rowsFrom_cons_of_isRow {text : List Char} (h : IsRow text) (number : Nat)
    (rest : List (List Char)) :
    rowsFrom number (text :: rest) = (text, number) :: rowsFrom (number + 1) rest := by
  rw [rowsFrom, List.zipIdx_cons, List.filter_cons_of_pos (by simpa using h), rowsFrom]

theorem rowsFrom_cons_of_not_isRow {text : List Char} (h : ¬ IsRow text) (number : Nat)
    (rest : List (List Char)) :
    rowsFrom number (text :: rest) = rowsFrom (number + 1) rest := by
  rw [rowsFrom, List.zipIdx_cons, List.filter_cons_of_neg (by simpa using h), rowsFrom]

/-- The numbers of the rows ascend. -/
theorem pairwise_rowsFrom (number : Nat) (lines : List (List Char)) :
    ((rowsFrom number lines).map Prod.snd).Pairwise (· < ·) := by
  -- The numbers of the rows are among those of the lines, which count up.
  have hsublist : ((rowsFrom number lines).map Prod.snd).Sublist
      ((lines.zipIdx number).map Prod.snd) := List.filter_sublist.map Prod.snd
  rw [List.zipIdx_map_snd] at hsublist
  exact List.Pairwise.sublist hsublist List.pairwise_lt_range'

/-- Whether a record is the one that a row holds. -/
def HeldBy (row : List Char × Nat) (r : Record Float) : Prop :=
  Holds row.2 (fields (content row.1)) r

theorem map_line_eq {rows : List (List Char × Nat)} {records : List (Record Float)}
    (h : List.Forall₂ HeldBy rows records) : records.map Record.line = rows.map Prod.snd := by
  induction h with
  | nil => rfl
  | cons hrow _ ih => rw [List.map_cons, List.map_cons, ih, hrow.line_eq]

/-- A record is held by one of the rows. -/
theorem exists_heldBy_of_mem {rows : List (List Char × Nat)} {records : List (Record Float)}
    (h : List.Forall₂ HeldBy rows records) {r : Record Float} (hr : r ∈ records) :
    ∃ row ∈ rows, HeldBy row r := by
  induction h with
  | nil => cases hr
  | cons hrow _ ih =>
    rcases List.mem_cons.mp hr with rfl | hr
    · exact ⟨_, List.mem_cons_self, hrow⟩
    · obtain ⟨row, hmem, hheld⟩ := ih hr
      exact ⟨row, List.mem_cons_of_mem _ hmem, hheld⟩

theorem isFinite_of_forall₂ {rows : List (List Char × Nat)} {records : List (Record Float)}
    (h : List.Forall₂ HeldBy rows records) :
    ∀ r ∈ records, ∀ x ∈ r.bounds, x.isFinite = true := by
  intro r hr
  obtain ⟨row, -, hheld⟩ := exists_heldBy_of_mem h hr
  exact hheld.isFinite

/-! ## Before and at the first bad row -/

/-- Where no row is bad there is one record for each row, in the order of the rows. -/
theorem readLines_of_good {lines : List (List Char)} (h : ∀ text ∈ lines, ¬ IsBad text)
    (number : Nat) :
    ∃ records, readLines false number lines = .ok records ∧
      List.Forall₂ HeldBy (rowsFrom number lines) records := by
  induction lines generalizing number with
  | nil => exact ⟨[], rfl, .nil⟩
  | cons text rest ih =>
    have htext : ¬ IsBad text := h text List.mem_cons_self
    obtain ⟨records, hread, hheld⟩ :=
      ih (fun t ht => h t (List.mem_cons_of_mem text ht)) (number + 1)
    by_cases hrow : IsRow text
    · have hrecord : IsRecord (fields (content text)) := by
        by_contra hnot
        exact htext ⟨hrow, hnot⟩
      obtain ⟨r, hr⟩ := exists_holds_of_isRecord number hrecord
      refine ⟨r :: records, ?_, ?_⟩
      · rw [readLines_cons_of_isRow hrow, row_eq_ok_iff.mpr hr, hread]
        rfl
      · rw [rowsFrom_cons_of_isRow hrow]
        exact .cons hr hheld
    · refine ⟨records, ?_, ?_⟩
      · rw [readLines_cons_of_not_isRow hrow, hread]
      · rw [rowsFrom_cons_of_not_isRow hrow]
        exact hheld

/-- The first bad row decides the error, whatever follows it. -/
theorem readLines_of_bad {before after : List (List Char)} {bad : List Char} {number : Nat}
    {e : RowError} (hbefore : ∀ text ∈ before, ¬ IsBad text) (hrow : IsRow bad)
    (he : Complains (number + before.length) (fields (content bad)) e) :
    readLines false number (before ++ bad :: after) = .error e := by
  obtain ⟨records, hread, -⟩ := readLines_of_good hbefore number
  -- What stands before the bad row reads well, so the reading comes to that row.
  rw [readLines_append, hread]
  simp only [headerAfter, Bool.false_and]
  rw [readLines_cons_of_isRow hrow, row_eq_error_iff.mpr he]
  rfl

/-- A table with a bad row has a first one. -/
theorem exists_first_bad {lines : List (List Char)} (h : ∃ text ∈ lines, IsBad text) :
    ∃ before bad after, lines = before ++ bad :: after ∧ (∀ text ∈ before, ¬ IsBad text) ∧
      IsBad bad := by
  obtain ⟨text, hmem, htext⟩ := h
  obtain ⟨bad, hbad⟩ : ∃ bad, lines.find? (fun t => decide (IsBad t)) = some bad := by
    rw [← Option.isSome_iff_exists, List.find?_isSome]
    exact ⟨text, hmem, decide_eq_true htext⟩
  rw [List.find?_eq_some_iff_append] at hbad
  obtain ⟨hbad, before, after, hlines, hbefore⟩ := hbad
  refine ⟨before, bad, after, hlines, fun t ht => ?_, of_decide_eq_true hbad⟩
  simpa using hbefore t ht

/-- The error of a table is the complaint about its first bad row. -/
theorem readLines_eq_error_iff {lines : List (List Char)} {number : Nat} {e : RowError} :
    readLines false number lines = .error e ↔
      ∃ before bad after, lines = before ++ bad :: after ∧ (∀ text ∈ before, ¬ IsBad text) ∧
        IsBad bad ∧ Complains (number + before.length) (fields (content bad)) e := by
  constructor
  · intro hread
    have hsome : ∃ text ∈ lines, IsBad text := by
      by_contra hnone
      obtain ⟨records, hok, -⟩ :=
        readLines_of_good (fun t ht hbad => hnone ⟨t, ht, hbad⟩) number
      rw [hok] at hread
      cases hread
    obtain ⟨before, bad, after, rfl, hbefore, hbad⟩ := exists_first_bad hsome
    obtain ⟨e', he'⟩ := exists_complains_of_not_isRecord (number + before.length) hbad.2
    rw [readLines_of_bad hbefore hbad.1 he'] at hread
    cases hread
    exact ⟨before, bad, after, rfl, hbefore, hbad, he'⟩
  · rintro ⟨before, bad, after, rfl, hbefore, hbad, he⟩
    exact readLines_of_bad hbefore hbad.1 he

/-- Tables that agree up to a bad row have the same error. -/
theorem readLines_eq_of_isBad {before after after' : List (List Char)} {bad : List Char}
    (hbad : IsBad bad) (number : Nat) :
    readLines false number (before ++ bad :: after') =
      readLines false number (before ++ bad :: after) := by
  have hsome : ∃ text ∈ before ++ [bad], IsBad text := ⟨bad, by simp, hbad⟩
  obtain ⟨first, culprit, rest, hsplit, hfirst, hculprit⟩ := exists_first_bad hsome
  obtain ⟨e, he⟩ := exists_complains_of_not_isRecord (number + first.length) hculprit.2
  -- The first bad row stands in what the two tables have in common.
  have hlines (tail : List (List Char)) :
      before ++ bad :: tail = first ++ culprit :: (rest ++ tail) := by
    rw [List.append_cons, hsplit, List.append_assoc, List.cons_append]
  rw [hlines, hlines, readLines_of_bad hfirst hculprit.1 he,
    readLines_of_bad hfirst hculprit.1 he]

/-! ## Texts -/

/-- **The exact outcome of reading a table without a header.** The reading fails iff a row is bad,
    and then with the complaint about the first such row, whatever follows it; nothing else can go
    wrong with a text. If no row is bad there is one record for each row, in their order and with
    their line numbers, which ascend, and all numbers of the records are finite. -/
theorem readRecords_outcome (text : String) :
    ((∃ e, readRecords false (.ok text.toUTF8.toList) = .error e) ↔
      ∃ line ∈ Text.lines text.toList, IsBad line) ∧
    (∀ e, readRecords false (.ok text.toUTF8.toList) = .error e ↔
      ∃ cause before bad after, e = .row cause ∧
        Text.lines text.toList = before ++ bad :: after ∧ (∀ line ∈ before, ¬ IsBad line) ∧
        IsBad bad ∧ Complains (before.length + 1) (fields (content bad)) cause) ∧
    (∀ (other : String) (before after after' : List (List Char)) (bad : List Char), IsBad bad →
      Text.lines text.toList = before ++ bad :: after →
      Text.lines other.toList = before ++ bad :: after' →
      readRecords false (.ok other.toUTF8.toList) = readRecords false (.ok text.toUTF8.toList)) ∧
    ((∀ line ∈ Text.lines text.toList, ¬ IsBad line) →
      ∃ records, readRecords false (.ok text.toUTF8.toList) = .ok records ∧
        List.Forall₂ HeldBy (rowsFrom 1 (Text.lines text.toList)) records ∧
        records.map Record.line = (rowsFrom 1 (Text.lines text.toList)).map Prod.snd ∧
        (records.map Record.line).Pairwise (· < ·) ∧
        ∀ r ∈ records, ∀ x ∈ r.bounds, x.isFinite = true) := by
  have herror (e : ReadError) : readRecords false (.ok text.toUTF8.toList) = .error e ↔
      ∃ cause, e = .row cause ∧ readLines false 1 (Text.lines text.toList) = .error cause := by
    rw [readRecords_toUTF8, read]
    cases readLines false 1 (Text.lines text.toList) with
    | error cause => simp [Except.mapError, eq_comm]
    | ok records => simp [Except.mapError]
  refine ⟨?_, ?_, ?_, ?_⟩
  · constructor
    · rintro ⟨e, he⟩
      obtain ⟨cause, -, hread⟩ := (herror e).mp he
      obtain ⟨before, bad, after, hlines, -, hbad, -⟩ := readLines_eq_error_iff.mp hread
      exact ⟨bad, by simp [hlines], hbad⟩
    · intro hsome
      obtain ⟨before, bad, after, hlines, hbefore, hbad⟩ := exists_first_bad hsome
      obtain ⟨cause, hcause⟩ := exists_complains_of_not_isRecord (1 + before.length) hbad.2
      refine ⟨.row cause, (herror _).mpr ⟨cause, rfl, ?_⟩⟩
      rw [hlines]
      exact readLines_of_bad hbefore hbad.1 hcause
  · intro e
    simp only [herror e, readLines_eq_error_iff, Nat.add_comm 1]
    constructor
    · rintro ⟨cause, he, before, bad, after, h⟩
      exact ⟨cause, before, bad, after, he, h⟩
    · rintro ⟨cause, before, bad, after, he, h⟩
      exact ⟨cause, he, before, bad, after, h⟩
  · intro other before after after' bad hbad hlines hother
    rw [readRecords_toUTF8, readRecords_toUTF8, read, read, hlines, hother,
      readLines_eq_of_isBad hbad]
  · intro hgood
    obtain ⟨records, hread, hheld⟩ := readLines_of_good hgood 1
    have hnumbers := map_line_eq hheld
    refine ⟨records, ?_, hheld, hnumbers, ?_, isFinite_of_forall₂ hheld⟩
    · rw [readRecords_toUTF8, read, hread]
      rfl
    · rw [hnumbers]
      exact pairwise_rowsFrom 1 _

end LatencyPlot.Table
