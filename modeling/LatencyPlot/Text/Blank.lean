/-
  LatencyPlot.Text.Blank

  Blank characters (the Unicode property White_Space) and trimming. It holds
  the space, the tab and the characters that end a line, and also the spaces
  beyond ASCII.
-/

namespace LatencyPlot.Text

/-- The Unicode property White_Space. -/
def isBlank (c : Char) : Bool :=
  let n := c.toNat
  (9 ≤ n && n ≤ 13) || n == 0x20 || n == 0x85 || n == 0xA0 || n == 0x1680 ||
    (0x2000 ≤ n && n ≤ 0x200A) || n == 0x2028 || n == 0x2029 || n == 0x202F ||
    n == 0x205F || n == 0x3000

/-- The text without the blanks it begins with. -/
def trimStart (cs : List Char) : List Char := cs.dropWhile isBlank

/-- The text without the blanks it ends in. -/
def trimEnd (cs : List Char) : List Char := (cs.reverse.dropWhile isBlank).reverse

/-- The text without the blanks at either end. -/
def trim (cs : List Char) : List Char := trimEnd (trimStart cs)

/-! ## Blanks at the ends -/

/-- Blanks in front do not matter. -/
theorem trimStart_append {ws : List Char} (h : ∀ c ∈ ws, isBlank c = true) (cs : List Char) :
    trimStart (ws ++ cs) = trimStart cs := by
  induction ws with
  | nil => rfl
  | cons w ws ih =>
    have hw : isBlank w = true := h w List.mem_cons_self
    have hws : ∀ c ∈ ws, isBlank c = true := fun c hc => h c (List.mem_cons_of_mem w hc)
    rw [List.cons_append, trimStart, List.dropWhile_cons_of_pos hw]
    exact ih hws

/-- Blanks at the end do not matter. -/
theorem trimEnd_append (cs : List Char) {ws : List Char} (h : ∀ c ∈ ws, isBlank c = true) :
    trimEnd (cs ++ ws) = trimEnd cs := by
  have hws : ∀ c ∈ ws.reverse, isBlank c = true := fun c hc => h c (List.mem_reverse.1 hc)
  have hdrop := trimStart_append hws cs.reverse
  rw [trimStart, trimStart] at hdrop
  rw [trimEnd, trimEnd, List.reverse_append, hdrop]

/-- The first character of a trimmed text is not blank. -/
theorem isBlank_head_trimStart {cs rest : List Char} {c : Char}
    (h : trimStart cs = c :: rest) : isBlank c = false := by
  induction cs with
  | nil => simp [trimStart] at h
  | cons x xs ih =>
    cases hx : isBlank x with
    | true =>
      rw [trimStart, List.dropWhile_cons_of_pos hx] at h
      exact ih h
    | false =>
      rw [trimStart, List.dropWhile_cons_of_neg (by simp [hx])] at h
      rw [← (List.cons.inj h).1, hx]

/-- Nothing is left of a text iff it is blank. -/
theorem trimStart_eq_nil_iff {cs : List Char} :
    trimStart cs = [] ↔ ∀ c ∈ cs, isBlank c = true := by
  constructor
  · intro h c hc
    -- What is dropped is blank, and here all of it is dropped.
    induction cs with
    | nil => simp at hc
    | cons x xs ih =>
      cases hx : isBlank x with
      | true =>
        rw [trimStart, List.dropWhile_cons_of_pos hx] at h
        rcases List.mem_cons.1 hc with rfl | hc
        · exact hx
        · exact ih h hc
      | false =>
        rw [trimStart, List.dropWhile_cons_of_neg (by simp [hx])] at h
        cases h
  · intro h
    have happend := trimStart_append h []
    rw [List.append_nil] at happend
    rw [happend]
    rfl

end LatencyPlot.Text
