/-
  LatencyPlot.Proofs.Table.LeftOut

  The lines that a table may leave out without a word, said of the lines as they
  stand in the text (`IsLeftOut`): blank lines, comments, and tuples around
  nothing or around a comment (hollow tuples). Whether a line is left out is
  decided after its parentheses are taken off, so the last kind is left out
  though its first character is a parenthesis.

  `readRecords_keeps_rows`: of a table that is read every other line has one
  record, and the lines left out have none.
-/
import LatencyPlot.Proofs.Table.FirstError
import LatencyPlot.Proofs.Table.Tuple

namespace LatencyPlot.Table

open Text (isBlank trim trimStart)

variable {line : List Char}

/-- Whether a line is left out. -/
inductive IsLeftOut (line : List Char) : Prop where
  | blank (h : ∀ c ∈ line, isBlank c = true)
  | comment (hhash : (trimStart line).head? = some '#') (hno : ¬ IsRecord (fields (trim line)))
  | hollow {body : List Char} (htuple : IsTuple body line)
      (hbody : body = [] ∨ body.head? = some '#' ∧ ¬ IsRecord (fields body))

theorem head?_trim (line : List Char) : (trim line).head? = (trimStart line).head? := by
  rw [trim]
  cases hstart : trimStart line with
  | nil => rfl
  | cons c rest =>
    rw [Text.trimEnd_cons_of_not_blank (Text.isBlank_head_trimStart hstart), List.head?_cons,
      List.head?_cons]

/-- A line is a row, or it is left out. -/
theorem isRow_iff_not_isLeftOut : IsRow line ↔ ¬ IsLeftOut line := by
  constructor
  · rintro ⟨hne, hkept⟩ hout
    cases hout with
    | blank h =>
      apply hne
      rw [content_of_not_isTuple, Text.trim_eq_nil_of_blank h]
      rintro ⟨body, htuple⟩
      have hhead := htuple.head?_trim
      rw [Text.trim_eq_nil_of_blank h] at hhead
      cases hhead
    | comment hhash hno =>
      have hcontent : content line = trim line := by
        apply content_of_not_isTuple
        rintro ⟨body, htuple⟩
        have hhead := htuple.head?_trim
        rw [head?_trim, hhash] at hhead
        exact absurd hhead (by decide)
      rw [hcontent, head?_trim] at hkept
      exact hkept ⟨hhash, hno⟩
    | hollow htuple hbody =>
      rw [content_of_isTuple htuple] at hne hkept
      exact hbody.elim hne hkept
  · intro hkept
    by_cases htuple : ∃ body, IsTuple body line
    · obtain ⟨body, htuple⟩ := htuple
      rw [IsRow, content_of_isTuple htuple]
      exact ⟨fun h => hkept (.hollow htuple (.inl h)), fun h => hkept (.hollow htuple (.inr h))⟩
    · rw [IsRow, content_of_not_isTuple htuple, head?_trim]
      refine ⟨fun h => hkept (.blank ?_), fun h => hkept (.comment h.1 h.2)⟩
      exact Text.blank_of_trim_eq_nil h

/-- The numbers of the rows are those of the lines that are rows. -/
theorem mem_rowsFrom_iff {number : Nat} {lines : List (List Char)} {row : List Char × Nat} :
    row ∈ rowsFrom number lines ↔
      ∃ i, lines[i]? = some row.1 ∧ row.2 = number + i ∧ IsRow row.1 := by
  obtain ⟨text, n⟩ := row
  rw [rowsFrom, List.mem_filter, List.mem_zipIdx_iff_le_and_getElem?_sub, decide_eq_true_eq]
  constructor
  · rintro ⟨⟨hle, hget⟩, hrow⟩
    exact ⟨n - number, hget, by omega, hrow⟩
  · rintro ⟨i, hget, rfl, hrow⟩
    refine ⟨⟨Nat.le_add_right number i, ?_⟩, hrow⟩
    rwa [Nat.add_sub_cancel_left]

/-- There is one record with the number of a line, or none, as the line is a row or not. -/
theorem count_line_eq {lines : List (List Char)} {records : List (Record Float)}
    (h : List.Forall₂ HeldBy (rowsFrom 1 lines) records) {i : Nat} (hline : lines[i]? = some line) :
    (records.map Record.line).count (i + 1) = if IsRow line then 1 else 0 := by
  have hnodup : ((rowsFrom 1 lines).map Prod.snd).Nodup :=
    (pairwise_rowsFrom 1 lines).imp Nat.ne_of_lt
  have hmem : i + 1 ∈ (rowsFrom 1 lines).map Prod.snd ↔ IsRow line := by
    rw [List.mem_map]
    constructor
    · rintro ⟨row, hrow, hnumber⟩
      obtain ⟨j, hget, hj, hrow⟩ := mem_rowsFrom_iff.mp hrow
      have hij : j = i := by omega
      rw [hij, hline] at hget
      rwa [Option.some.inj hget]
    · intro hrow
      exact ⟨(line, i + 1), mem_rowsFrom_iff.mpr ⟨i, hline, Nat.add_comm i 1, hrow⟩, rfl⟩
  rw [map_line_eq h, hnodup.count]
  simp only [hmem]

/-- A table that is read has one record for each row, and no bad one. -/
theorem forall₂_of_readRecords {text : String} {records : List (Record Float)}
    (h : readRecords false (.ok text.toUTF8.toList) = .ok records) :
    List.Forall₂ HeldBy (rowsFrom 1 (Text.lines text.toList)) records := by
  have hread : readLines false 1 (Text.lines text.toList) = .ok records := by
    rw [readRecords_toUTF8, read] at h
    cases hlines : readLines false 1 (Text.lines text.toList) with
    | error e =>
      rw [hlines] at h
      cases h
    | ok found =>
      rw [hlines] at h
      cases h
      rfl
  have hgood : ∀ t ∈ Text.lines text.toList, ¬ IsBad t := by
    intro t ht hbad
    obtain ⟨before, bad, after, hlines, hbefore, hbad⟩ := exists_first_bad ⟨t, ht, hbad⟩
    obtain ⟨e, he⟩ := exists_complains_of_not_isRecord (1 + before.length) hbad.2
    rw [hlines, readLines_of_bad hbefore hbad.1 he] at hread
    cases hread
  obtain ⟨found, hfound, hheld⟩ := readLines_of_good hgood 1
  rw [hfound] at hread
  cases hread
  exact hheld

/-- **What a table leaves out.** If the reading succeeds, every line that is not left out has
    exactly one record with its number, a line that is left out has none, and each record is held
    by a line that is not left out. -/
theorem readRecords_keeps_rows (text : String) (records : List (Record Float))
    (h : readRecords false (.ok text.toUTF8.toList) = .ok records) :
    (∀ i line, (Text.lines text.toList)[i]? = some line → ¬ IsLeftOut line →
      (records.map Record.line).count (i + 1) = 1) ∧
    (∀ i line, (Text.lines text.toList)[i]? = some line → IsLeftOut line →
      (records.map Record.line).count (i + 1) = 0) ∧
    (∀ r ∈ records, ∃ i line, r.line = i + 1 ∧ (Text.lines text.toList)[i]? = some line ∧
      ¬ IsLeftOut line ∧ Holds r.line (fields (content line)) r) := by
  have hheld := forall₂_of_readRecords h
  refine ⟨?_, ?_, ?_⟩
  · intro i line hline hkept
    rw [count_line_eq hheld hline, if_pos (isRow_iff_not_isLeftOut.mpr hkept)]
  · intro i line hline hout
    rw [count_line_eq hheld hline, if_neg fun hrow => isRow_iff_not_isLeftOut.mp hrow hout]
  · intro r hr
    obtain ⟨row, hmem, hholds⟩ := exists_heldBy_of_mem hheld hr
    obtain ⟨i, hget, hnumber, hrow⟩ := mem_rowsFrom_iff.mp hmem
    have hline : r.line = row.2 := hholds.line_eq
    refine ⟨i, row.1, by omega, hget, isRow_iff_not_isLeftOut.mp hrow, ?_⟩
    rw [hline]
    exact hholds

/-- A comment and a row in a tuple: the row has its record. -/
theorem readRecords_keeps_rows_tuple :
    readRecords false (.ok "# cold\n ('a',1,2,3,4,5),\n".toUTF8.toList) =
        .ok [⟨"a", 1, 2, 3, 4, 5, 2⟩] ∧
      ¬ IsLeftOut " ('a',1,2,3,4,5),".toList ∧
      ([⟨"a", 1, 2, 3, 4, 5, 2⟩].map (Record.line (α := Float))).count 2 = 1 := by
  have hread : readRecords false (.ok "# cold\n ('a',1,2,3,4,5),\n".toUTF8.toList) =
      .ok [⟨"a", 1, 2, 3, 4, 5, 2⟩] := by
    rw [readRecords_toUTF8]
    rfl
  have hkept : ¬ IsLeftOut " ('a',1,2,3,4,5),".toList :=
    isRow_iff_not_isLeftOut.mp (by decide +kernel)
  exact ⟨hread, hkept,
    (readRecords_keeps_rows "# cold\n ('a',1,2,3,4,5),\n" _ hread).1 1 _ (by decide) hkept⟩

/-- A hollow tuple is neither blank nor a comment, and yet it is left out: the reading succeeds
    without a record for the first line. -/
theorem readRecords_drops_hollow :
    readRecords false (.ok "()\n'a',1,2,3,4,5\n".toUTF8.toList) =
        .ok [⟨"a", 1, 2, 3, 4, 5, 2⟩] ∧
      (Text.lines "()\n'a',1,2,3,4,5\n".toList)[0]? = some ['(', ')'] ∧
      (trimStart ['(', ')']).head? = some '(' ∧
      ∀ r ∈ [(⟨"a", 1, 2, 3, 4, 5, 2⟩ : Record Float)], r.line ≠ 1 := by
  refine ⟨?_, by decide, by decide, by simp⟩
  rw [readRecords_toUTF8]
  rfl

end LatencyPlot.Table
