/-
  LatencyPlot.Proofs.Text.Lines

  Where the lines of a text stand in it. A text without line feeds is one line,
  a line feed ends the text before it as a line, and each line has the lines
  before it in front of it and an end of its own, or of the text, behind it.
-/
import LatencyPlot.Text.Line
import Mathlib.Data.List.Basic

namespace LatencyPlot.Text

variable {c : Char} {cs line : List Char}

/-! ## Pieces between line feeds -/

theorem splitOn_cons_newline (cs : List Char) :
    ('\n' :: cs).splitOn '\n' = [] :: cs.splitOn '\n' :=
  (List.splitOn_cons_eq_if_modifyHead '\n' cs).trans (if_pos (beq_self_eq_true '\n'))

theorem splitOn_cons_of_ne (h : c ≠ '\n') (cs : List Char) :
    (c :: cs).splitOn '\n' = (cs.splitOn '\n').modifyHead (c :: ·) :=
  (List.splitOn_cons_eq_if_modifyHead c cs).trans (if_neg (mt beq_iff_eq.mp h))

/-- The pieces of a text are made of its characters. -/
theorem mem_of_mem_splitOn {piece : List Char} (hpiece : piece ∈ cs.splitOn '\n') (hc : c ∈ piece) :
    c ∈ cs := by
  induction cs generalizing piece with
  | nil =>
    cases List.mem_singleton.mp hpiece
    exact hc
  | cons d cs ih =>
    by_cases hd : d = '\n'
    · rw [hd, splitOn_cons_newline] at hpiece
      rcases List.mem_cons.mp hpiece with rfl | hpiece
      · cases hc
      · exact List.mem_cons_of_mem d (ih hpiece hc)
    · rw [splitOn_cons_of_ne hd] at hpiece
      cases hsplit : cs.splitOn '\n' with
      | nil => exact absurd hsplit (List.splitOn_ne_nil _ cs)
      | cons first more =>
        rw [hsplit] at hpiece ih
        -- the character goes to the first piece
        rcases List.mem_cons.mp hpiece with rfl | hpiece
        · rcases List.mem_cons.mp hc with rfl | hc
          · exact List.mem_cons_self
          · exact List.mem_cons_of_mem d (ih List.mem_cons_self hc)
        · exact List.mem_cons_of_mem d (ih (List.mem_cons_of_mem first hpiece) hc)

/-! ## Lines -/

/-- A text without line feeds is one line as it is, if it is not empty. -/
theorem lines_of_not_mem (hne : cs ≠ []) (h : '\n' ∉ cs) : lines cs = [cs] := by
  rw [lines, List.splitOn_eq_singleton h, linesOf, if_neg hne]

/-- A text without line feeds is a line, if a line feed follows it. -/
theorem lines_append_cons (h : '\n' ∉ cs) (rest : List Char) :
    lines (cs ++ '\n' :: rest) = withoutReturn cs :: lines rest := by
  rw [lines, List.splitOn_append_cons_self, linesOf_append (List.splitOn_ne_nil '\n' rest),
    List.splitOn_eq_singleton h]
  rfl

/-- All pieces of a text but the last one are lines that have ended, and the last one is a line
    unless it is empty. -/
theorem linesOf_concat (init : List (List Char)) (last : List Char) :
    linesOf (init ++ [last]) = init.map withoutReturn ++ if last = [] then [] else [last] :=
  linesOf_append (List.cons_ne_nil last []) init

theorem mem_of_mem_withoutReturn (h : c ∈ withoutReturn line) : c ∈ line := by
  rw [withoutReturn] at h
  split at h
  · exact List.dropLast_subset line h
  · exact h

/-- A line is a piece of the text, but for its end. -/
theorem exists_piece_of_mem_lines (h : line ∈ lines cs) :
    ∃ piece ∈ cs.splitOn '\n', line = piece ∨ line = withoutReturn piece := by
  rw [lines] at h
  generalize cs.splitOn '\n' = pieces at h
  rcases List.eq_nil_or_concat' pieces with rfl | ⟨init, last, rfl⟩
  · cases h
  rw [linesOf_concat, List.mem_append] at h
  rcases h with h | h
  · obtain ⟨piece, hpiece, rfl⟩ := List.mem_map.mp h
    exact ⟨piece, List.mem_append_left [last] hpiece, .inr rfl⟩
  · split at h
    · cases h
    · exact ⟨last, List.mem_append_right init List.mem_cons_self, .inl (List.mem_singleton.mp h)⟩

/-- The lines of a text are made of its characters. -/
theorem mem_of_mem_lines (hline : line ∈ lines cs) (hc : c ∈ line) : c ∈ cs := by
  obtain ⟨piece, hpiece, rfl | rfl⟩ := exists_piece_of_mem_lines hline
  · exact mem_of_mem_splitOn hpiece hc
  · exact mem_of_mem_splitOn hpiece (mem_of_mem_withoutReturn hc)

/-- What ends a line: nothing at the end of the text, or a line feed, perhaps with a carriage return
    in front of it. -/
def FollowsLine (after : List Char) : Prop :=
  after = [] ∨ (∃ more, after = '\n' :: more) ∨ ∃ more, after = '\r' :: '\n' :: more

/-- The first line of a text stands at its beginning. -/
theorem exists_of_lines_eq_cons {after : List (List Char)} (h : lines cs = line :: after) :
    ∃ rest, cs = line ++ rest ∧ '\n' ∉ line ∧ FollowsLine rest := by
  by_cases hmem : '\n' ∈ cs
  · obtain ⟨first, more, rfl, hfirst⟩ := List.eq_append_cons_of_mem hmem
    rw [lines_append_cons hfirst] at h
    obtain ⟨rfl, -⟩ := List.cons.inj h
    refine ⟨if first.getLast? = some '\r' then '\r' :: '\n' :: more else '\n' :: more, ?_,
      fun hline => hfirst (mem_of_mem_withoutReturn hline), ?_⟩
    · rw [withoutReturn]
      split
      · next hreturn =>
        obtain ⟨init, rfl⟩ := List.getLast?_eq_some_iff.mp hreturn
        simp
      · rfl
    · split
      · exact .inr (.inr ⟨more, rfl⟩)
      · exact .inr (.inl ⟨more, rfl⟩)
  · have hne : cs ≠ [] := by
      rintro rfl
      cases h
    rw [lines_of_not_mem hne hmem] at h
    obtain ⟨rfl, -⟩ := List.cons.inj h
    exact ⟨[], (List.append_nil cs).symm, hmem, .inl rfl⟩

/-- Each line of a text stands somewhere in it: behind whole lines, and in front of a line end or of
    nothing. -/
theorem exists_of_lines_eq {before after : List (List Char)}
    (h : lines cs = before ++ line :: after) :
    ∃ front rest, cs = front ++ line ++ rest ∧ lines front = before ∧
      (front = [] ∨ front.getLast? = some '\n') ∧ '\n' ∉ line ∧ FollowsLine rest := by
  induction before generalizing cs with
  | nil =>
    obtain ⟨rest, rfl, hline, hrest⟩ := exists_of_lines_eq_cons h
    exact ⟨[], rest, rfl, rfl, .inl rfl, hline, hrest⟩
  | cons first before ih =>
    have hmem : '\n' ∈ cs := by
      by_contra hmem
      by_cases hne : cs = []
      · rw [hne] at h
        cases h
      · -- without a line feed there is one line only
        rw [lines_of_not_mem hne hmem] at h
        simp at h
    obtain ⟨piece, more, rfl, hpiece⟩ := List.eq_append_cons_of_mem hmem
    rw [lines_append_cons hpiece] at h
    obtain ⟨rfl, hmore⟩ := List.cons.inj h
    obtain ⟨front, rest, rfl, hfront, hends, hline, hrest⟩ := ih hmore
    refine ⟨piece ++ '\n' :: front, rest, by simp, ?_, .inr ?_, hline, hrest⟩
    · rw [lines_append_cons hpiece, hfront]
    · rcases hends with rfl | hlast
      · simp
      · simp [List.getLast?_cons, hlast]

end LatencyPlot.Text
