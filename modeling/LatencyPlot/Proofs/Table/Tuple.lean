/-
  LatencyPlot.Proofs.Table.Tuple

  Tuples, read off the line itself: a line is a tuple around some text iff,
  without the blanks at its ends, it is that text between parentheses, with or
  without a comma after them (`IsTuple`). The fields of a line are split from the
  text in the tuple (`content_of_isTuple`), or from the whole line if it is none
  (`content_of_not_isTuple`).

  Whether a line is a tuple at all shows in its characters that are not blank
  (`exists_isTuple_iff`), so blanks make no tuple and undo none.
-/
import LatencyPlot.Proofs.Text.Trim
import LatencyPlot.Table.Reader

namespace LatencyPlot.Table

open Text (isBlank trim trimStart trimEnd)

variable {line body : List Char}

/-- Whether a line is a tuple around some text. -/
inductive IsTuple (body line : List Char) : Prop where
  /-- A parenthesis ends the line. -/
  | closed (h : trim line = '(' :: (body ++ [')']))
  /-- A comma follows the closing parenthesis. -/
  | comma (gap : List Char) (hgap : ∀ c ∈ gap, isBlank c = true)
      (h : trim line = '(' :: (body ++ ')' :: (gap ++ [','])))

theorem tupleBody?_eq_some_iff {cs : List Char} :
    tupleBody? cs = some body ↔ cs = '(' :: (body ++ [')']) := by
  constructor
  · intro h
    rw [tupleBody?.eq_def] at h
    split at h
    · next rest =>
      by_cases hlast : rest.getLast? = some ')'
      · rw [if_pos hlast, Option.some.injEq] at h
        obtain ⟨init, rfl⟩ := List.getLast?_eq_some_iff.mp hlast
        rw [List.dropLast_concat] at h
        rw [h]
      · rw [if_neg hlast] at h
        cases h
    · cases h
  · rintro rfl
    rw [tupleBody?, if_pos List.getLast?_concat, List.dropLast_concat]

theorem withoutComma_concat (cs : List Char) : withoutComma (cs ++ [',']) = cs := by
  rw [withoutComma, if_pos List.getLast?_concat, List.dropLast_concat]

theorem withoutComma_of_ne {cs : List Char} (h : cs.getLast? ≠ some ',') :
    withoutComma cs = cs := by
  rw [withoutComma, if_neg h]

/-- The body of a tuple is what the reader finds between the parentheses. -/
theorem isTuple_iff :
    IsTuple body line ↔ tupleBody? (trimEnd (withoutComma (trim line))) = some body := by
  have hclose : isBlank ')' = false := by decide
  rw [tupleBody?_eq_some_iff]
  constructor
  · intro h
    have htrimEnd (gap : List Char) (hgap : ∀ c ∈ gap, isBlank c = true) :
        trimEnd ('(' :: (body ++ ')' :: gap)) = '(' :: (body ++ [')']) := by
      rw [← List.cons_append, Text.trimEnd_append_cons hclose, Text.trimEnd_eq_nil_of_blank hgap,
        List.cons_append]
    cases h with
    | closed h =>
      have hlast : ('(' :: (body ++ [')'])).getLast? ≠ some ',' := by
        rw [← List.cons_append, List.getLast?_concat]
        decide
      rw [h, withoutComma_of_ne hlast]
      exact htrimEnd [] (by simp)
    | comma gap hgap h =>
      have hsplit : '(' :: (body ++ ')' :: (gap ++ [','])) =
          '(' :: (body ++ ')' :: gap) ++ [','] := by simp
      rw [h, hsplit, withoutComma_concat]
      exact htrimEnd gap hgap
  · intro h
    by_cases hlast : (trim line).getLast? = some ','
    · obtain ⟨init, hinit⟩ := List.getLast?_eq_some_iff.mp hlast
      rw [hinit, withoutComma_concat] at h
      obtain ⟨gap, hgap, hinit'⟩ := Text.exists_trimEnd_append init
      refine .comma gap hgap ?_
      rw [hinit, hinit', h]
      simp
    · -- without a comma nothing is left to trim
      rw [withoutComma_of_ne hlast, Text.trimEnd_trim] at h
      exact .closed h

theorem content_of_isTuple (h : IsTuple body line) : content line = body := by
  rw [content]
  simp only [isTuple_iff.mp h, Option.getD_some]

theorem content_of_not_isTuple (h : ¬ ∃ body, IsTuple body line) : content line = trim line := by
  rw [content]
  cases hbody : tupleBody? (trimEnd (withoutComma (trim line))) with
  | none => rfl
  | some body => exact absurd ⟨body, isTuple_iff.mpr hbody⟩ h

/-- A tuple begins with a parenthesis. -/
theorem IsTuple.head?_trim (h : IsTuple body line) : (trim line).head? = some '(' := by
  cases h with
  | closed h => rw [h, List.head?_cons]
  | comma gap hgap h => rw [h, List.head?_cons]

/-- A text between parentheses, with blanks around them, is a tuple. -/
theorem isTuple_closed {before after : List Char} (hbefore : ∀ c ∈ before, isBlank c = true)
    (body : List Char) (hafter : ∀ c ∈ after, isBlank c = true) :
    IsTuple body (before ++ '(' :: (body ++ ')' :: after)) := by
  apply IsTuple.closed
  have hopen : isBlank '(' = false := by decide
  have hclose : isBlank ')' = false := by decide
  rw [trim, Text.trimStart_append hbefore, Text.trimStart_cons_of_not_blank hopen,
    ← List.cons_append, Text.trimEnd_append_cons hclose, Text.trimEnd_eq_nil_of_blank hafter,
    List.cons_append]

/-- So it is with a comma after the closing parenthesis. -/
theorem isTuple_comma {before gap after : List Char} (hbefore : ∀ c ∈ before, isBlank c = true)
    (body : List Char) (hgap : ∀ c ∈ gap, isBlank c = true)
    (hafter : ∀ c ∈ after, isBlank c = true) :
    IsTuple body (before ++ '(' :: (body ++ ')' :: (gap ++ ',' :: after))) := by
  apply IsTuple.comma gap hgap
  have hopen : isBlank '(' = false := by decide
  have hcomma : isBlank ',' = false := by decide
  have hsplit : '(' :: (body ++ ')' :: (gap ++ ',' :: after)) =
      ('(' :: (body ++ ')' :: gap)) ++ ',' :: after := by simp
  rw [trim, Text.trimStart_append hbefore, Text.trimStart_cons_of_not_blank hopen, hsplit,
    Text.trimEnd_append_cons hcomma, Text.trimEnd_eq_nil_of_blank hafter]
  simp

/-! ## Characters that are not blank -/

/-- The text without its blanks. -/
def solid (cs : List Char) : List Char := cs.filter fun c => !isBlank c

theorem solid_append (a b : List Char) : solid (a ++ b) = solid a ++ solid b :=
  List.filter_append ..

theorem solid_eq_nil_iff {cs : List Char} : solid cs = [] ↔ ∀ c ∈ cs, isBlank c = true := by
  simp [solid, List.filter_eq_nil_iff]

theorem solid_cons_of_not_blank {c : Char} (h : isBlank c = false) (cs : List Char) :
    solid (c :: cs) = c :: solid cs :=
  List.filter_cons_of_pos (by simp [h])

/-- Trimming takes blanks only. -/
theorem solid_trim (cs : List Char) : solid (trim cs) = solid cs := by
  obtain ⟨before, after, hbefore, hafter, hcs⟩ := Text.exists_trim_append cs
  have hsolid := congrArg solid hcs
  rw [solid_append, solid_append, solid_eq_nil_iff.mpr hbefore, solid_eq_nil_iff.mpr hafter,
    List.nil_append, List.append_nil] at hsolid
  exact hsolid.symm

theorem exists_of_solid_eq_cons {cs rest : List Char} {c : Char} (h : solid cs = c :: rest) :
    ∃ before after, (∀ d ∈ before, isBlank d = true) ∧ cs = before ++ c :: after ∧
      solid after = rest := by
  obtain ⟨before, after, hcs, hbefore, -, hafter⟩ := List.filter_eq_cons_iff.mp h
  exact ⟨before, after, fun d hd => by simpa using hbefore d hd, hcs, hafter⟩

/-- Whether a line is a tuple shows in its characters that are not blank. -/
theorem exists_isTuple_iff :
    (∃ body, IsTuple body line) ↔
      ∃ mid, solid line = '(' :: (mid ++ [')']) ∨ solid line = '(' :: (mid ++ [')', ',']) := by
  have hopen : isBlank '(' = false := by decide
  have hclose : isBlank ')' = false := by decide
  constructor
  · rintro ⟨body, h⟩
    rw [← solid_trim]
    refine ⟨solid body, ?_⟩
    cases h with
    | closed h =>
      left
      rw [h, solid_cons_of_not_blank hopen, solid_append, solid_cons_of_not_blank hclose]
      rfl
    | comma gap hgap h =>
      right
      rw [h, solid_cons_of_not_blank hopen, solid_append, solid_cons_of_not_blank hclose,
        solid_append, solid_eq_nil_iff.mpr hgap]
      rfl
  · -- a character of the line is found from the left, behind blanks
    rintro ⟨mid, h | h⟩
    · obtain ⟨before, rest, hbefore, rfl, hrest⟩ := exists_of_solid_eq_cons h
      obtain ⟨inner, close, rfl, -, hclosed⟩ := List.filter_eq_append_iff.mp hrest
      obtain ⟨gap, after, -, rfl, hafter⟩ := exists_of_solid_eq_cons hclosed
      refine ⟨inner ++ gap, ?_⟩
      have htuple := isTuple_closed hbefore (inner ++ gap) (solid_eq_nil_iff.mp hafter)
      rwa [List.append_assoc] at htuple
    · obtain ⟨before, rest, hbefore, rfl, hrest⟩ := exists_of_solid_eq_cons h
      obtain ⟨inner, close, rfl, -, hclosed⟩ := List.filter_eq_append_iff.mp hrest
      obtain ⟨gap, comma, -, rfl, hcomma⟩ := exists_of_solid_eq_cons hclosed
      obtain ⟨gap', after, hgap', rfl, hafter⟩ := exists_of_solid_eq_cons hcomma
      refine ⟨inner ++ gap, ?_⟩
      have htuple := isTuple_comma hbefore (inner ++ gap) hgap' (solid_eq_nil_iff.mp hafter)
      rwa [List.append_assoc] at htuple

end LatencyPlot.Table
