/-
  LatencyPlot.Proofs.Table.LineEnds

  Line ends and the blanks around lines. The lines of a text are what stands
  between its line feeds, and each of them is trimmed before it is read, so blanks
  at their ends do not matter, and neither does a carriage return in front of a
  line feed. An empty line at the end is no row.
-/
import LatencyPlot.Proofs.Table.Header
import Mathlib.Data.List.Forall2

namespace LatencyPlot

namespace Table

variable {header : Bool} {number : ℕ}

/-- An empty line at the end is passed over. -/
theorem readLines_concat_nil (lines : List (List Char)) :
    readLines header number (lines ++ [[]]) = readLines header number lines := by
  rw [readLines_append]
  cases readLines header number lines with
  | error e => rfl
  | ok records =>
    rw [readLines_cons_of_not_isRow not_isRow_nil]
    exact congrArg Except.ok (List.append_nil records)

/-- Lines are read by what is left of them when they are trimmed. -/
theorem readLines_eq_of_trim_eq {lines lines' : List (List Char)}
    (h : List.Forall₂ (fun a b => Text.trim a = Text.trim b) lines lines') :
    readLines header number lines = readLines header number lines' := by
  induction h generalizing header number with
  | nil => rfl
  | @cons a b rest rest' hline _ ih =>
    -- the reading of the first line decides how the others are read, whatever it was before
    rw [readLines_cons_congr hline, ← List.singleton_append, readLines_append, ih,
      ← readLines_append, List.singleton_append]

/-- What stands between the line feeds of a text reads like its lines. -/
theorem readLines_linesOf (pieces : List (List Char)) :
    readLines header number (Text.linesOf pieces) = readLines header number pieces := by
  rcases List.eq_nil_or_concat' pieces with rfl | ⟨init, last, rfl⟩
  · rfl
  have hended : List.Forall₂ (fun a b => Text.trim a = Text.trim b)
      (init.map Text.withoutReturn) init :=
    List.forall₂_map_left_iff.mpr
      (List.forall₂_same.mpr fun piece _ => Text.trim_withoutReturn piece)
  rw [Text.linesOf_concat]
  -- the last piece has no line feed behind it, and no line is left of it if it is empty
  by_cases hlast : last = []
  · rw [if_pos hlast, hlast, List.append_nil, readLines_concat_nil, readLines_eq_of_trim_eq hended]
  · rw [if_neg hlast]
    exact readLines_eq_of_trim_eq (List.rel_append hended (.cons rfl .nil))

theorem read_eq (header : Bool) (text : String) :
    read header text = readLines header 1 (text.toList.splitOn '\n') := by
  rw [read, Text.lines, readLines_linesOf]

/-! ## Padded texts -/

/-- Blanks that stay on one line. -/
def IsGap (ws : List Char) : Prop := ∀ c ∈ ws, Text.isBlank c = true ∧ c ≠ '\n'

instance : DecidablePred IsGap :=
  List.decidableBAll fun c => Text.isBlank c = true ∧ c ≠ '\n'

/-- Whether a text is another one with blanks before and behind its lines. -/
def IsPadded (text padded : String) : Prop :=
  List.Forall₂
    (fun line other => ∃ before after, IsGap before ∧ IsGap after ∧
      other = before ++ line ++ after)
    (text.toList.splitOn '\n') (padded.toList.splitOn '\n')

/-- What is put behind a text stands behind its last line. -/
theorem forall₂_splitOn_append {behind : List Char} (h : '\n' ∉ behind) (cs : List Char) :
    List.Forall₂ (fun line other => other = line ∨ other = line ++ behind) (cs.splitOn '\n')
      ((cs ++ behind).splitOn '\n') := by
  induction cs with
  | nil =>
    rw [List.nil_append, List.splitOn_eq_singleton h]
    exact .cons (.inr rfl) .nil
  | cons c cs ih =>
    rw [List.cons_append]
    by_cases hc : c = '\n'
    · rw [hc, Text.splitOn_cons_newline, Text.splitOn_cons_newline]
      exact .cons (.inl rfl) ih
    · rw [Text.splitOn_cons_of_ne hc, Text.splitOn_cons_of_ne hc]
      cases hlines : cs.splitOn '\n' with
      | nil => exact absurd hlines (List.splitOn_ne_nil _ cs)
      | cons line lines =>
        rw [hlines] at ih
        obtain ⟨other, others, hline, hrest, hothers⟩ := List.forall₂_cons_left_iff.mp ih
        rw [hothers]
        exact .cons (hline.imp (congrArg (c :: ·)) (congrArg (c :: ·))) hrest

/-- A carriage return in front of a line feed is a blank behind a line. -/
theorem isPadded_return (before after : String) :
    IsPadded (before ++ "\n" ++ after) (before ++ "\r\n" ++ after) := by
  have hlines : (before ++ "\n" ++ after).toList = before.toList ++ '\n' :: after.toList := by
    simp
  have hothers : (before ++ "\r\n" ++ after).toList =
      (before.toList ++ ['\r']) ++ '\n' :: after.toList := by
    simp
  -- the return is put behind the last line of the text in front of the line feed
  rw [IsPadded, hlines, hothers, List.splitOn_append_cons_self, List.splitOn_append_cons_self]
  refine List.rel_append ((forall₂_splitOn_append (by decide) before.toList).imp ?_)
    (List.forall₂_same.mpr ?_)
  · rintro line other (rfl | rfl)
    · exact ⟨[], [], by decide, by decide, by simp⟩
    · exact ⟨[], ['\r'], by decide, by decide, by simp⟩
  · exact fun line _ => ⟨[], [], by decide, by decide, by simp⟩

/-! ## The theorem -/

/-- **Line ends.** Blanks at the ends of lines do not matter, a carriage return in front of a line
    feed among them, nor does a line feed at the end of the text: the same records are read, on the
    same lines, or the same error is found. -/
theorem readRecords_line_ends (header : Bool) (text : String) :
    (∀ padded, IsPadded text padded →
      readRecords header (.ok padded.toUTF8.toList) =
        readRecords header (.ok text.toUTF8.toList)) ∧
    readRecords header (.ok (text ++ "\n").toUTF8.toList) =
      readRecords header (.ok text.toUTF8.toList) ∧
    ∀ before after, text = before ++ "\n" ++ after →
      readRecords header (.ok (before ++ "\r\n" ++ after).toUTF8.toList) =
        readRecords header (.ok text.toUTF8.toList) := by
  have hpadded (padded : String) (h : IsPadded text padded) :
      readRecords header (.ok padded.toUTF8.toList) =
        readRecords header (.ok text.toUTF8.toList) := by
    rw [readRecords_toUTF8, readRecords_toUTF8, read_eq, read_eq,
      readLines_eq_of_trim_eq (h.imp ?_)]
    rintro line other ⟨before, after, hbefore, hafter, rfl⟩
    exact (Text.trim_pad (fun c hc => (hbefore c hc).1) (fun c hc => (hafter c hc).1) line).symm
  refine ⟨hpadded, ?_, ?_⟩
  · -- the line feed at the end adds one line, which is empty
    have hend : (text ++ "\n").toList.splitOn '\n' = text.toList.splitOn '\n' ++ [[]] := by
      rw [String.toList_append]
      exact List.splitOn_append_cons_self text.toList []
    rw [readRecords_toUTF8, readRecords_toUTF8, read_eq, read_eq, hend, readLines_concat_nil]
  · rintro before after rfl
    exact hpadded _ (isPadded_return before after)

/-- A table with line feeds, and one with blanks around its lines and carriage returns. -/
theorem readRecords_line_ends_blanks :
    readRecords true (.ok " l,q\r\n\t'a',1,2,3,4,5\u2003\r\n\u00A0(b".toUTF8.toList) =
      .error (.row (.tooFewFields 3 1)) := by
  have hpadded : IsPadded "l,q\n'a',1,2,3,4,5\n(b" " l,q\r\n\t'a',1,2,3,4,5\u2003\r\n\u00A0(b" :=
    .cons ⟨[' '], ['\r'], by decide, by decide, rfl⟩
      (.cons ⟨['\t'], ['\u2003', '\r'], by decide, by decide, rfl⟩
        (.cons ⟨['\u00A0'], [], by decide, by decide, rfl⟩ .nil))
  rw [(readRecords_line_ends true _).1 _ hpadded, readRecords_toUTF8]
  rfl

end Table

end LatencyPlot
