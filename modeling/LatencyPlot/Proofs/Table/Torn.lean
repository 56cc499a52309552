/-
  LatencyPlot.Proofs.Table.Torn

  Quoted bodies behind blanks. Their quotes are text of the field, so a body
  with a comma or a row end in it is torn at the first of these
  (`fieldsFrom_torn`). What is left of it reads as no number
  (`readFinite?_unquote_torn`), so bodies that are read as numbers are whole
  (`isWhole_of_reads`), and it has no comma in it (`not_mem_unquote_torn`).
-/
import LatencyPlot.Proofs.Table.Cells

namespace LatencyPlot.Table

open Text (isBlank trim trimEnd)

/-- Whether a character neither ends a field nor the row, outside quotes. -/
def isInside (c : Char) : Bool := c != ',' && !isRowEnd c

/-- What is left of a quoted body behind blanks: its text up to the first comma or row end. -/
def torn (before text : List Char) : List Char :=
  before ++ '\'' :: doubled (text.takeWhile isInside)

theorem isInside_iff {c : Char} : isInside c = true ↔ c ≠ ',' ∧ isRowEnd c = false := by
  simp [isInside]

theorem inside_of_mem_torn {before : List Char} (hbefore : IsPadding before) {text : List Char} :
    ∀ c ∈ torn before text, c ≠ ',' ∧ isRowEnd c = false := by
  intro c hc
  rcases List.mem_append.mp hc with hc | hc
  · exact ⟨(hbefore.isPlain c hc).1, (hbefore c hc).2⟩
  · rcases List.mem_cons.mp hc with rfl | hc
    · decide
    · exact isInside_iff.mp (List.mem_takeWhile_imp (mem_of_mem_doubled hc))

/-! ## Where a field is torn -/

/-- The text of a quoted body behind blanks ends at the first comma or row end in it. -/
theorem fieldsFrom_torn_text {before : List Char} (hbefore : IsPadding before) (hne : before ≠ [])
    {text : List Char} (h : ¬ ∀ c ∈ text, c ≠ ',' ∧ isRowEnd c = false) (rest : List Char) :
    ∃ more, fieldsFrom .opening (before ++ ('\'' :: (doubled text ++ rest))) =
      torn before text :: more ∧ (more = [] ∨ ',' ∈ text) := by
  -- the character that tears it is no quote, so it stands in the doubled text as it is
  obtain ⟨c, after, hdrop⟩ : ∃ c after, text.dropWhile isInside = c :: after := by
    refine List.exists_cons_of_ne_nil fun hnil => h fun c hc => ?_
    exact isInside_iff.mp (List.dropWhile_eq_nil_iff.mp hnil c hc)
  have hc : isInside c = false := by
    have hhead := List.head?_dropWhile_not isInside text
    simpa [hdrop] using hhead
  have hquote : c ≠ '\'' := by
    rintro rfl
    exact absurd hc (by decide)
  have htext : text = text.takeWhile isInside ++ c :: after := by
    rw [← hdrop, List.takeWhile_append_dropWhile]
  have hdoubled : doubled text = doubled (text.takeWhile isInside) ++ c :: doubled after := by
    have happend := congrArg doubled htext
    rwa [doubled, doubled, List.flatMap_append, List.flatMap_cons, if_neg hquote,
      List.singleton_append] at happend
  have hchars : before ++ '\'' :: (doubled text ++ rest) =
      torn before text ++ c :: (doubled after ++ rest) := by
    rw [hdoubled, torn]
    simp
  have hbare : fieldsFrom .opening (torn before text ++ c :: (doubled after ++ rest)) =
      fieldsFrom .bare (torn before text ++ c :: (doubled after ++ rest)) := by
    obtain ⟨b, bs, rfl⟩ := List.exists_cons_of_ne_nil hne
    exact fieldsFrom_opening_of_ne (hbefore.isPlain b List.mem_cons_self).2.2 _
  rw [hchars, hbare]
  by_cases hcomma : c = ','
  · subst hcomma
    refine ⟨_, fieldsFrom_bare_tail (inside_of_mem_torn hbefore) (some _), .inr ?_⟩
    rw [htext]
    simp
  · have hend : isRowEnd c = true := by
      simpa [isInside, hcomma] using hc
    exact ⟨[], fieldsFrom_bare_finish (inside_of_mem_torn hbefore) hcomma hend _, .inl rfl⟩

/-- **A torn field.** A body is only torn if it is quoted and stands behind blanks. There are more
    fields only if there is a comma in it. -/
theorem fieldsFrom_torn (c : Cell) (hbefore : c.before ≠ []) (h : ¬ c.body.IsWhole .inside)
    (tail : List Char) :
    ∃ text line more, c.body = .quoted text line ∧
      fieldsFrom .opening (c.chars ++ tail) = torn c.before text :: more ∧
      (more = [] ∨ ',' ∈ text) := by
  obtain ⟨before, body, rest, hpadding, _⟩ := c
  cases body with
  | bare text trimmed inside quote => exact absurd trivial h
  | quoted text line =>
    obtain ⟨more, hmore⟩ := fieldsFrom_torn_text hpadding hbefore h ('\'' :: (rest ++ tail))
    refine ⟨text, line, more, rfl, ?_⟩
    rw [Cell.chars, Body.chars]
    simpa using hmore

/-! ## What is left of it -/

theorem count_doubled (text : List Char) :
    (doubled text).count '\'' = 2 * text.count '\'' := by
  induction text with
  | nil => rfl
  | cons c text ih =>
    rw [doubled] at ih ⊢
    rw [List.flatMap_cons, List.count_append, ih]
    by_cases hc : c = '\''
    · subst hc
      rw [if_pos rfl, List.count_cons_self]
      simp
      omega
    · rw [if_neg hc, List.count_cons_of_ne hc, List.count_nil, List.count_cons_of_ne hc, Nat.zero_add]

/-- A text with a quote in it is no number. -/
theorem readFinite?_of_mem_quote {cs : List Char} (h : '\'' ∈ cs) :
    Number.readFinite? cs = none := by
  cases hread : Number.readFinite? cs with
  | none => rfl
  | some x =>
    have hnumeral := Number.isNumeral_of_readFinite? hread _ h
    rw [not_isNumeral (by simp)] at hnumeral
    cases hnumeral

theorem unquote_torn {before : List Char} (h : IsPadding before) (text : List Char) :
    unquote (torn before text) =
      relieve ('\'' :: trimEnd (doubled (text.takeWhile isInside))) := by
  have hpad := unquote_pad h (List.forall_mem_nil _) ('\'' :: doubled (text.takeWhile isInside))
  rw [List.append_nil] at hpad
  rw [torn, hpad, unquote_eq_relieve, Text.trim_cons_of_not_blank (by decide)]

/-- What is left of a torn body is no number: an odd number of quotes is in its field, and at most
    two of them are taken away. -/
theorem readFinite?_unquote_torn {before : List Char} (h : IsPadding before) (text : List Char) :
    Number.readFinite? (unquote (torn before text)) = none := by
  rw [unquote_torn h, relieve]
  split
  · next hclosed =>
    obtain ⟨init, hinit⟩ := List.getLast?_eq_some_iff.mp hclosed.2
    obtain ⟨after, hafter, hdoubled⟩ :=
      Text.exists_trimEnd_append (doubled (text.takeWhile isInside))
    have hblank : after.count '\'' = 0 :=
      List.count_eq_zero_of_not_mem fun hmem => absurd (hafter _ hmem) (by decide)
    have heven := count_doubled (text.takeWhile isInside)
    -- the quotes of the text are even in number and one of them is taken away, so one is left
    rw [hdoubled, hinit, List.count_append, List.count_append, hblank,
      List.count_singleton_self] at heven
    rw [hinit, List.dropLast_concat]
    exact readFinite?_of_mem_quote (List.count_pos_iff.mp (by omega))
  · exact readFinite?_of_mem_quote List.mem_cons_self

/-- Only blanks and quotes are taken off a field. -/
theorem mem_unquote {c : Char} {cs : List Char} (hc : c ∈ cs) (hblank : isBlank c = false)
    (hsingle : c ≠ '\'') (hdouble : c ≠ '"') : c ∈ unquote cs := by
  obtain ⟨before, after, hbefore, hafter, hcs⟩ := Text.exists_trim_append cs
  have htrim : c ∈ trim cs := by
    rw [hcs, List.mem_append, List.mem_append] at hc
    rcases hc with (hc | hc) | hc
    · exact absurd (hbefore c hc) (by simp [hblank])
    · exact hc
    · exact absurd (hafter c hc) (by simp [hblank])
  rw [unquote_eq_relieve]
  cases hrest : trim cs with
  | nil =>
    rw [hrest] at htrim
    cases htrim
  | cons q rest =>
    rw [hrest, List.mem_cons] at htrim
    rw [relieve]
    split
    · next hclosed =>
      obtain ⟨init, rfl⟩ := List.getLast?_eq_some_iff.mp hclosed.2
      have hq : c ≠ q := by
        rintro rfl
        exact hclosed.1.elim hsingle hdouble
      rw [List.dropLast_concat]
      simpa [hq] using htrim
    · exact List.mem_cons.mpr htrim

theorem mem_of_mem_unquote {c : Char} {cs : List Char} (hc : c ∈ unquote cs) : c ∈ cs := by
  obtain ⟨before, after, -, -, hcs⟩ := Text.exists_trim_append cs
  have htrim : c ∈ trim cs := by
    rw [unquote_eq_relieve] at hc
    cases hrest : trim cs with
    | nil =>
      rw [hrest] at hc
      cases hc
    | cons q rest =>
      rw [hrest, relieve] at hc
      split at hc
      · exact List.mem_cons_of_mem q (List.dropLast_subset _ hc)
      · exact hc
  rw [hcs]
  simp [htrim]

/-- There is no comma in what is left of a torn body. -/
theorem not_mem_unquote_torn {before : List Char} (h : IsPadding before) (text : List Char) :
    ',' ∉ unquote (torn before text) :=
  fun hmem => (inside_of_mem_torn h _ (mem_of_mem_unquote hmem)).1 rfl

/-! ## Fields with commas between them -/

/-- Bodies that are read as numbers are whole. -/
theorem isWhole_of_reads {n : Nat} {cells : List Cell}
    (h : ∀ i < n, ((fieldsFrom .opening (joined cells)).map unquote)[i]?.bind Number.readFinite? ≠
      none) : ∀ c ∈ cells.take n, c.body.IsWhole c.place := by
  induction n generalizing cells with
  | zero => simp
  | succ n ih =>
    cases cells with
    | nil => simp
    | cons c cells =>
      have hwhole : c.body.IsWhole c.place := by
        -- a body that is not whole is torn, and the first number would be missing
        by_contra hwhole
        obtain ⟨hbefore, htorn⟩ : c.before ≠ [] ∧ ¬ c.body.IsWhole .inside := by
          rw [Cell.place] at hwhole
          split at hwhole
          · exact absurd (by cases c.body <;> trivial) hwhole
          · next hbefore => exact ⟨hbefore, hwhole⟩
        obtain ⟨text, line, more, -, hfields, -⟩ :=
          fieldsFrom_torn c hbefore htorn (tailChars (moreChars cells))
        refine h 0 (Nat.succ_pos n) ?_
        rw [joined_cons, hfields]
        exact readFinite?_unquote_torn c.before_padding text
      obtain ⟨field, hfields, -⟩ := fieldsFrom_cell c hwhole (moreChars cells)
      rw [List.take_succ_cons, List.forall_mem_cons]
      refine ⟨hwhole, ?_⟩
      cases cells with
      | nil => simp
      | cons d cells =>
        apply ih
        intro i hi
        have hnext := h (i + 1) (Nat.succ_lt_succ hi)
        rwa [joined_cons, hfields, List.map_cons, List.getElem?_cons_succ] at hnext

end LatencyPlot.Table
