/-
  LatencyPlot.Proofs.Text.Trim

  Trimming and the first and last characters that it stops at. The carriage
  return at the end of a line is trimmed with the other blanks.
-/
import LatencyPlot.Text.Blank
import LatencyPlot.Text.Line
import Mathlib.Data.List.TakeWhile

namespace LatencyPlot.Text

variable {c : Char} {cs rest : List Char}

/-! ## Where trimming stops -/

theorem trimStart_cons_of_not_blank (h : isBlank c = false) (cs : List Char) :
    trimStart (c :: cs) = c :: cs := by
  rw [trimStart, List.dropWhile_cons_of_neg (by simp [h])]

/-- Trimming at the end leaves a beginning of the text. -/
theorem trimEnd_isPrefix (cs : List Char) : trimEnd cs <+: cs := by
  have hsuffix : cs.reverse.dropWhile isBlank <:+ cs.reverse := List.dropWhile_suffix isBlank
  have hinitial := List.reverse_prefix.mpr hsuffix
  rwa [List.reverse_reverse] at hinitial

/-- Trimming at the end stops at a character that is not blank. -/
theorem trimEnd_append_cons (h : isBlank c = false) (before after : List Char) :
    trimEnd (before ++ c :: after) = before ++ c :: trimEnd after := by
  simp only [trimEnd, List.reverse_append, List.reverse_cons, List.append_assoc,
    List.singleton_append, List.dropWhile_append]
  by_cases hafter : after.reverse.dropWhile isBlank = []
  · simp [hafter, h]
  · simp [List.isEmpty_iff, hafter]

theorem trimEnd_cons_of_not_blank (h : isBlank c = false) (cs : List Char) :
    trimEnd (c :: cs) = c :: trimEnd cs :=
  trimEnd_append_cons h [] cs

theorem trim_cons_of_not_blank (h : isBlank c = false) (cs : List Char) :
    trim (c :: cs) = c :: trimEnd cs := by
  rw [trim, trimStart_cons_of_not_blank h, trimEnd_cons_of_not_blank h]

theorem trimEnd_eq_nil_of_blank (h : ∀ c ∈ cs, isBlank c = true) : trimEnd cs = [] :=
  trimEnd_append [] h

theorem trim_eq_nil_of_blank (h : ∀ c ∈ cs, isBlank c = true) : trim cs = [] := by
  rw [trim, trimStart_eq_nil_iff.mpr h]
  rfl

theorem blank_of_trim_eq_nil (h : trim cs = []) : ∀ c ∈ cs, isBlank c = true := by
  apply trimStart_eq_nil_iff.mp
  cases hstart : trimStart cs with
  | nil => rfl
  | cons c rest =>
    rw [trim, hstart, trimEnd_cons_of_not_blank (isBlank_head_trimStart hstart)] at h
    cases h

/-- A trimmed text is empty, or begins with a character that is not blank. -/
theorem trim_eq_nil_or_cons (cs : List Char) :
    trim cs = [] ∨ ∃ c rest, isBlank c = false ∧ trim cs = c :: trimEnd rest := by
  cases hstart : trimStart cs with
  | nil =>
    rw [trim, hstart]
    exact .inl rfl
  | cons c rest =>
    have hc : isBlank c = false := isBlank_head_trimStart hstart
    refine .inr ⟨c, rest, hc, ?_⟩
    rw [trim, hstart, trimEnd_cons_of_not_blank hc]

theorem trimEnd_trimEnd (cs : List Char) : trimEnd (trimEnd cs) = trimEnd cs := by
  -- seen from its end, a text is trimmed at the start
  have hdrop : trimStart (trimStart cs.reverse) = trimStart cs.reverse := by
    cases h : trimStart cs.reverse with
    | nil => rfl
    | cons c rest => exact trimStart_cons_of_not_blank (isBlank_head_trimStart h) rest
  simp only [trimStart] at hdrop
  rw [trimEnd, trimEnd, List.reverse_reverse, hdrop]

/-- Trimming twice is trimming once. -/
theorem trim_trim (cs : List Char) : trim (trim cs) = trim cs := by
  rcases trim_eq_nil_or_cons cs with h | ⟨c, rest, hc, h⟩
  · rw [h]
    rfl
  · rw [h, trim_cons_of_not_blank hc, trimEnd_trimEnd]

/-- Blanks around a text are trimmed. -/
theorem trim_pad {before after : List Char} (hbefore : ∀ c ∈ before, isBlank c = true)
    (hafter : ∀ c ∈ after, isBlank c = true) (cs : List Char) :
    trim (before ++ cs ++ after) = trim cs := by
  rw [List.append_assoc, trim, trimStart_append hbefore]
  -- in a text of blanks only, those behind are reached from the start as well
  by_cases hcs : ∀ c ∈ cs, isBlank c = true
  · have hall : ∀ c ∈ cs ++ after, isBlank c = true := by
      intro c hc
      exact (List.mem_append.mp hc).elim (hcs c) (hafter c)
    rw [trimStart_eq_nil_iff.mpr hall, trim_eq_nil_of_blank hcs]
    rfl
  · have hne : trimStart cs ≠ [] := fun h => hcs (trimStart_eq_nil_iff.mp h)
    have hstart : trimStart (cs ++ after) = trimStart cs ++ after := by
      rw [trimStart, trimStart, List.dropWhile_append]
      simp only [trimStart] at hne
      simp [List.isEmpty_iff, hne]
    rw [hstart, trimEnd_append _ hafter, trim]

/-- What trimming takes at the end of a text is blank. -/
theorem exists_trimEnd_append (cs : List Char) :
    ∃ after, (∀ c ∈ after, isBlank c = true) ∧ cs = trimEnd cs ++ after := by
  refine ⟨(cs.reverse.takeWhile isBlank).reverse, ?_, ?_⟩
  · intro c hc
    exact List.mem_takeWhile_imp (List.mem_reverse.mp hc)
  · rw [trimEnd, ← List.reverse_append, List.takeWhile_append_dropWhile, List.reverse_reverse]

/-- What trimming takes at the ends of a text is blank. -/
theorem exists_trim_append (cs : List Char) :
    ∃ before after, (∀ c ∈ before, isBlank c = true) ∧ (∀ c ∈ after, isBlank c = true) ∧
      cs = before ++ trim cs ++ after := by
  obtain ⟨after, hafter, hcs⟩ := exists_trimEnd_append (trimStart cs)
  refine ⟨cs.takeWhile isBlank, after, fun c hc => List.mem_takeWhile_imp hc, hafter, ?_⟩
  rw [trim, List.append_assoc, ← hcs, trimStart, List.takeWhile_append_dropWhile]

theorem trimEnd_trim (cs : List Char) : trimEnd (trim cs) = trim cs :=
  trimEnd_trimEnd (trimStart cs)

theorem trim_trimEnd (cs : List Char) : trim (trimEnd cs) = trim cs := by
  obtain ⟨after, hafter, hcs⟩ := exists_trimEnd_append cs
  have hpad := trim_pad (List.forall_mem_nil _) hafter (trimEnd cs)
  rw [List.nil_append, ← hcs] at hpad
  exact hpad.symm

/-- What is left of a text when it is trimmed at the end decides what is left with a character in
    front of it. -/
theorem trimEnd_cons_congr {a b : List Char} (h : trimEnd a = trimEnd b) (c : Char) :
    trimEnd (c :: a) = trimEnd (c :: b) := by
  have hcons (cs : List Char) : trimEnd (c :: cs) = trimEnd (c :: trimEnd cs) := by
    obtain ⟨after, hafter, hcs⟩ := exists_trimEnd_append cs
    have happend := trimEnd_append (c :: trimEnd cs) hafter
    rwa [List.cons_append, ← hcs] at happend
  rw [hcons a, h, ← hcons b]

/-- A text without blanks stays as it is. -/
theorem trim_of_not_blank (h : ∀ c ∈ cs, isBlank c = false) : trim cs = cs := by
  have hself (ds : List Char) (hds : ∀ c ∈ ds, isBlank c = false) : trimStart ds = ds := by
    cases ds with
    | nil => rfl
    | cons d ds => exact trimStart_cons_of_not_blank (hds d List.mem_cons_self) ds
  have hreverse := hself cs.reverse fun c hc => h c (List.mem_reverse.mp hc)
  simp only [trimStart] at hreverse
  rw [trim, hself cs h, trimEnd, hreverse, List.reverse_reverse]

/-! ## Line ends -/

theorem trim_append_return (cs : List Char) : trim (cs ++ ['\r']) = trim cs := by
  have hreturn : ∀ c ∈ ['\r'], isBlank c = true := by
    intro c hc
    rw [List.mem_singleton.mp hc]
    rfl
  have hnone : ∀ c ∈ ([] : List Char), isBlank c = true := by simp
  exact trim_pad hnone hreturn cs

theorem trim_withoutReturn (piece : List Char) : trim (withoutReturn piece) = trim piece := by
  rw [withoutReturn]
  by_cases h : piece.getLast? = some '\r'
  · rw [if_pos h]
    obtain ⟨init, rfl⟩ := List.getLast?_eq_some_iff.mp h
    rw [List.dropLast_concat, trim_append_return]
  · rw [if_neg h]

end LatencyPlot.Text
