/-
  LatencyPlot.Markup.Escape

  Text in a document: five characters that markup uses are written as
  references, and all others stand for themselves.
-/

namespace LatencyPlot.Markup

/-- How a character is written in a document. -/
def escapeChar (c : Char) : List Char :=
  if c = '&' then ['&', 'a', 'm', 'p', ';']
  else if c = '<' then ['&', 'l', 't', ';']
  else if c = '>' then ['&', 'g', 't', ';']
  else if c = '"' then ['&', 'q', 'u', 'o', 't', ';']
  else if c = '\'' then ['&', '#', '3', '9', ';']
  else [c]

/-- How a text is written in a document. -/
def escape (cs : List Char) : List Char := cs.flatMap escapeChar

/-- How a string is written in a document. -/
def escaped (s : String) : String := String.ofList (escape s.toList)

/-- The characters that markup uses. -/
def marks : List Char := ['&', '<', '>', '"', '\'']

/-! ## Laws -/

theorem escapeChar_of_not_mem_marks {c : Char} (h : c ∉ marks) : escapeChar c = [c] := by
  simp only [marks, List.mem_cons, List.not_mem_nil, or_false, not_or] at h
  obtain ⟨hamp, hlt, hgt, hquote, happ⟩ := h
  rw [escapeChar, if_neg hamp, if_neg hlt, if_neg hgt, if_neg hquote, if_neg happ]

/-- What is written for a character holds none of the four characters that end a text or a
    value. -/
theorem not_mem_escapeChar {q : Char} (hq : q ∈ ['<', '>', '"', '\'']) (c : Char) :
    q ∉ escapeChar c := by
  by_cases hc : c ∈ marks
  · have hmarks : ∀ c ∈ marks, ∀ q ∈ ['<', '>', '"', '\''], q ∉ escapeChar c := by
      simp [marks, escapeChar]
    exact hmarks c hc q hq
  · rw [escapeChar_of_not_mem_marks hc, List.mem_singleton]
    rintro rfl
    exact hc (List.mem_cons_of_mem '&' hq)

theorem escape_cons (c : Char) (cs : List Char) : escape (c :: cs) = escapeChar c ++ escape cs :=
  List.flatMap_cons

theorem escape_append (s t : List Char) : escape (s ++ t) = escape s ++ escape t := by
  rw [escape, escape, escape, List.flatMap_append]

/-- A written text holds none of the four characters that end a text or a value. -/
theorem not_mem_escape {q : Char} (hq : q ∈ ['<', '>', '"', '\'']) (s : List Char) :
    q ∉ escape s := by
  rw [escape, List.mem_flatMap]
  rintro ⟨c, _, hc⟩
  exact not_mem_escapeChar hq c hc

theorem length_escapeChar_pos (c : Char) : 0 < (escapeChar c).length := by
  by_cases hc : c ∈ marks
  · have hmarks : ∀ c ∈ marks, 0 < (escapeChar c).length := by simp [marks, escapeChar]
    exact hmarks c hc
  · rw [escapeChar_of_not_mem_marks hc]
    exact Nat.one_pos

/-- No text gets shorter. -/
theorem length_le_length_escape (s : List Char) : s.length ≤ (escape s).length := by
  induction s with
  | nil => exact Nat.le_refl 0
  | cons c cs ih =>
    have hpos := length_escapeChar_pos c
    rw [escape_cons, List.length_append, List.length_cons]
    omega

/-- A text is written as it is just if markup uses none of its characters. -/
theorem escape_eq_self_iff {s : List Char} : escape s = s ↔ ∀ c ∈ s, c ∉ marks := by
  induction s with
  | nil => simp [escape]
  | cons c cs ih =>
    rw [escape_cons, List.forall_mem_cons]
    by_cases hc : c ∈ marks
    · -- a reference is longer than the character, and the rest gets no shorter
      have hmarks : ∀ c ∈ marks, 1 < (escapeChar c).length := by simp [marks, escapeChar]
      have hlong := hmarks c hc
      have hrest := length_le_length_escape cs
      refine iff_of_false (fun heq => ?_) (fun h => h.1 hc)
      have hsame := congrArg List.length heq
      rw [List.length_append, List.length_cons] at hsame
      omega
    · rw [escapeChar_of_not_mem_marks hc, List.singleton_append, List.cons_inj_right, ih]
      exact (and_iff_right hc).symm

theorem toList_escaped (s : String) : (escaped s).toList = escape s.toList := String.toList_ofList

theorem escaped_append (s t : String) : escaped (s ++ t) = escaped s ++ escaped t := by
  rw [escaped, String.toList_append, escape_append, String.ofList_append]
  rfl

theorem escaped_eq_self_iff {s : String} : escaped s = s ↔ ∀ c ∈ s.toList, c ∉ marks := by
  rw [← escape_eq_self_iff, ← String.toList_inj, toList_escaped]

end LatencyPlot.Markup
