/-
  LatencyPlot.Proofs.Table.Cells

  Fields with blanks around them. A field is written from a body, bare or between
  quotes, and what is read from it depends on the body and on where it stands
  (`Place`), and on nothing else:

    * at the start of the row a byte order mark is passed over and a quote counts;
    * at the start of a later field a quote counts;
    * behind blanks a quote is text like any other. Then the reader takes the
      outer quotes away, but leaves those inside doubled, and it takes a comma
      inside for the end of the field.

  `fieldsFrom_cell` is the law of one field, `fieldsFrom_joined` that of fields
  with commas between them.
-/
import LatencyPlot.Proofs.Table.Writing

namespace LatencyPlot.Table

open Text (isBlank trim trimStart trimEnd)

/-! ## Fields as they are written -/

/-- What a field is written from. -/
inductive Body where
  /-- A text by itself. It does not begin with a quote, nor with a byte order mark and a quote. -/
  | bare (text : List Char) (trimmed : trim text = text)
      (inside : ∀ c ∈ text, c ≠ ',' ∧ isRowEnd c = false)
      (quote : (withoutMark text).head? ≠ some '\'')
  /-- A text between quotes, with every quote in it doubled. -/
  | quoted (text : List Char) (line : '\n' ∉ text)

/-- Where the body of a field stands. -/
inductive Place where
  /-- At the start of the row. -/
  | first
  /-- At the start of a later field. -/
  | start
  /-- Behind blanks. -/
  | inside
  deriving DecidableEq

/-- Whether a text is made of blanks that end no row. -/
def IsPadding (ws : List Char) : Prop := ∀ c ∈ ws, isBlank c = true ∧ isRowEnd c = false

instance : DecidablePred IsPadding :=
  List.decidableBAll fun c => isBlank c = true ∧ isRowEnd c = false

/-- A field: a body with blanks around it. -/
structure Cell where
  before : List Char
  body : Body
  after : List Char
  before_padding : IsPadding before
  after_padding : IsPadding after

/-- A body as it is written. -/
def Body.chars : Body → List Char
  | .bare text _ _ _ => text
  | .quoted text _ => '\'' :: (doubled text ++ ['\''])

/-- A field as it is written. -/
def Cell.chars (c : Cell) : List Char := c.before ++ (c.body.chars ++ c.after)

/-- Where the body of a field stands behind a comma. -/
def Cell.place (c : Cell) : Place := if c.before = [] then .start else .inside

/-- Fields with commas between them. -/
def joined : List Cell → List Char
  | [] => []
  | [c] => c.chars
  | c :: d :: cells => c.chars ++ ',' :: joined (d :: cells)

/-! ## What is read -/

/-- What is read from a body at some place. -/
def Body.reading : Place → Body → List Char
  | .first, .bare text _ _ _ => unquote (withoutMark text)
  | _, .bare text _ _ _ => unquote text
  | .inside, .quoted text _ => doubled text
  | _, .quoted text _ => unquote text

/-- Whether a body is read as one field: behind blanks no comma stands between its quotes, and
    nothing that ends the row. -/
def Body.IsWhole : Place → Body → Prop
  | .inside, .quoted text _ => ∀ c ∈ text, c ≠ ',' ∧ isRowEnd c = false
  | _, _ => True

/-- Whether a body is read alike wherever it stands. -/
def Body.IsSteady (b : Body) : Prop := ∀ p q : Place, b.reading p = b.reading q

/-- The text of the fields after the first one. -/
def moreChars : List Cell → Option (List Char)
  | [] => none
  | c :: cells => some (joined (c :: cells))

/-- A bare body is steady unless it begins with a byte order mark. -/
theorem Body.isSteady_bare {text : List Char} (trimmed : trim text = text)
    (inside : ∀ c ∈ text, c ≠ ',' ∧ isRowEnd c = false)
    (quote : (withoutMark text).head? ≠ some '\'') (h : withoutMark text = text) :
    (Body.bare text trimmed inside quote).IsSteady := by
  have hreading (p : Place) : (Body.bare text trimmed inside quote).reading p = unquote text := by
    cases p with
    | first => rw [reading, h]
    | start => rfl
    | inside => rfl
  intro p q
  rw [hreading p, hreading q]

theorem joined_cons (c : Cell) (cells : List Cell) :
    joined (c :: cells) = c.chars ++ tailChars (moreChars cells) := by
  cases cells with
  | nil => exact (List.append_nil _).symm
  | cons d cells => rfl

theorem IsPadding.isBlank {ws : List Char} (h : IsPadding ws) : ∀ c ∈ ws, isBlank c = true :=
  fun c hc => (h c hc).1

theorem IsPadding.isPlain {ws : List Char} (h : IsPadding ws) : ∀ c ∈ ws, IsPlain c :=
  fun c hc => isPlain_of_blank (h c hc)

/-- A padding is text of its field, and begins with no quote. -/
theorem IsPadding.head?_ne {ws : List Char} (h : IsPadding ws) : ws.head? ≠ some '\'' :=
  fun hquote => (h.isPlain _ (List.mem_of_mem_head? hquote)).2.2 rfl

theorem unquote_pad {before after : List Char} (hbefore : IsPadding before)
    (hafter : IsPadding after) (cs : List Char) :
    unquote (before ++ (cs ++ after)) = unquote cs := by
  rw [unquote_eq_relieve, unquote_eq_relieve, ← List.append_assoc,
    Text.trim_pad hbefore.isBlank hafter.isBlank]

theorem unquote_append {after : List Char} (hafter : IsPadding after) (cs : List Char) :
    unquote (cs ++ after) = unquote cs :=
  unquote_pad (List.forall_mem_nil _) hafter cs

/-- One pair of quotes is taken away where the text between them is not read for quotes. -/
theorem unquote_enclosed (text : List Char) : unquote ('\'' :: (text ++ ['\''])) = text := by
  have hquote : isBlank '\'' = false := by decide
  have htrim : trim ('\'' :: (text ++ ['\''])) = '\'' :: (text ++ ['\'']) := by
    rw [Text.trim_cons_of_not_blank hquote, Text.trimEnd_append_cons hquote]
    rfl
  rw [unquote_eq_relieve, htrim, relieve, if_pos ⟨.inl rfl, List.getLast?_concat⟩,
    List.dropLast_concat]

/-- A text that may stand by itself does not begin with a quote. -/
theorem head?_ne_of_withoutMark {text : List Char} (h : (withoutMark text).head? ≠ some '\'') :
    text.head? ≠ some '\'' := by
  cases text with
  | nil => exact h
  | cons c cs =>
    intro hquote
    rw [List.head?_cons, Option.some.injEq] at hquote
    subst hquote
    exact h rfl

theorem head?_append_ne {a b : List Char} {q : Char} (ha : a.head? ≠ some q)
    (hb : b.head? ≠ some q) : (a ++ b).head? ≠ some q := by
  cases a with
  | nil => exact hb
  | cons c cs => exact ha

theorem fieldsFrom_opening_quote (cs : List Char) :
    fieldsFrom .opening ('\'' :: cs) = fieldsFrom .quoted cs := rfl

theorem fieldsFrom_opening_of_ne {c : Char} (hc : c ≠ '\'') (cs : List Char) :
    fieldsFrom .opening (c :: cs) = fieldsFrom .bare (c :: cs) := by
  rw [fieldsFrom, fieldsFrom, fieldStep_of_ne (by decide) hc, fieldStep]

/-- Outside quotes a row end ends the last field. -/
theorem fieldsFrom_bare_finish {cs : List Char} (h : ∀ c ∈ cs, c ≠ ',' ∧ isRowEnd c = false)
    {c : Char} (hcomma : c ≠ ',') (hc : isRowEnd c = true) (rest : List Char) :
    fieldsFrom .bare (cs ++ c :: rest) = [cs] := by
  induction cs with
  | nil =>
    rw [List.nil_append, fieldsFrom, fieldStep, outsideStep, if_neg hcomma, hc]
    rfl
  | cons d cs ih =>
    obtain ⟨hd, hend⟩ := h d List.mem_cons_self
    rw [List.cons_append, fieldsFrom, fieldStep, outsideStep, if_neg hd, hend]
    simp only [Bool.false_eq_true, if_false]
    rw [ih fun x hx => h x (List.mem_cons_of_mem d hx), push]

/-- **One field.** It ends at the next comma, and its body reads as it does at its place. -/
theorem fieldsFrom_cell (c : Cell) (hwhole : c.body.IsWhole c.place) (tail : Option (List Char)) :
    ∃ field, fieldsFrom .opening (c.chars ++ tailChars tail) = field :: tailFields tail ∧
      unquote field = c.body.reading c.place := by
  obtain ⟨before, body, after, hbefore, hafter⟩ := c
  cases body with
  | bare text trimmed inside quote =>
    refine ⟨before ++ (text ++ after), ?_, ?_⟩
    · apply fieldsFrom_outside_tail (by decide)
      · intro c hc
        simp only [Cell.chars, Body.chars, List.mem_append] at hc
        rcases hc with hc | hc | hc
        · exact ⟨(hbefore.isPlain c hc).1, (hbefore c hc).2⟩
        · exact inside c hc
        · exact ⟨(hafter.isPlain c hc).1, (hafter c hc).2⟩
      · exact head?_append_ne hbefore.head?_ne
          (head?_append_ne (head?_ne_of_withoutMark quote) hafter.head?_ne)
    · rw [unquote_pad hbefore hafter, Cell.place]
      split <;> rfl
  | quoted text line =>
    cases before with
    | nil =>
      have hchars : Cell.chars ⟨[], .quoted text line, after, hbefore, hafter⟩ ++ tailChars tail =
          '\'' :: (doubled text ++ '\'' :: (after ++ tailChars tail)) := by
        simp [Cell.chars, Body.chars]
      refine ⟨text ++ after, ?_, unquote_append hafter text⟩
      rw [hchars, fieldsFrom_opening_quote, fieldsFrom_quoted text hafter.isPlain]
    | cons b bs =>
      -- the blank before it makes the quote text of a bare field
      have hinside : ∀ c ∈ text, c ≠ ',' ∧ isRowEnd c = false := hwhole
      refine ⟨(b :: bs) ++ ('\'' :: (doubled text ++ ['\'']) ++ after), ?_, ?_⟩
      · apply fieldsFrom_outside_tail (by decide)
        · intro c hc
          simp only [Cell.chars, Body.chars, List.mem_append, List.mem_cons, List.not_mem_nil,
            or_false] at hc
          rcases hc with hc | (rfl | hc | rfl) | hc
          · exact ⟨(hbefore.isPlain c (List.mem_cons.mpr hc)).1, (hbefore c (List.mem_cons.mpr hc)).2⟩
          · decide
          · exact hinside c (mem_of_mem_doubled hc)
          · decide
          · exact ⟨(hafter.isPlain c hc).1, (hafter c hc).2⟩
        · exact hbefore.head?_ne
      · rw [unquote_pad hbefore hafter, unquote_enclosed]
        rfl

/-- **Fields with commas between them.** As long as they are whole each of them reads by itself. -/
theorem fieldsFrom_joined {n : Nat} {cells : List Cell} (hn : n ≤ cells.length)
    (hwhole : ∀ c ∈ cells.take n, c.body.IsWhole c.place) :
    ∃ more, (fieldsFrom .opening (joined cells)).map unquote =
      (cells.take n).map (fun c => c.body.reading c.place) ++ more := by
  induction n generalizing cells with
  | zero => exact ⟨_, rfl⟩
  | succ n ih =>
    cases cells with
    | nil => cases hn
    | cons c cells =>
      rw [List.take_succ_cons] at hwhole ⊢
      obtain ⟨field, hfields, hreading⟩ :=
        fieldsFrom_cell c (hwhole c List.mem_cons_self) (moreChars cells)
      have hrest : ∃ more, (tailFields (moreChars cells)).map unquote =
          (cells.take n).map (fun c => c.body.reading c.place) ++ more := by
        cases cells with
        | nil => exact ⟨[], by simp [moreChars, tailFields]⟩
        | cons d cells =>
          exact ih (Nat.le_of_succ_le_succ hn) fun c hc => hwhole c (List.mem_cons_of_mem _ hc)
      obtain ⟨more, hmore⟩ := hrest
      refine ⟨more, ?_⟩
      rw [joined_cons, hfields, List.map_cons, List.map_cons, hreading, hmore, List.cons_append]

/-! ## The first field of a row -/

theorem unquote_trim (field : List Char) : unquote (trim field) = unquote field := by
  rw [unquote_eq_relieve, unquote_eq_relieve, Text.trim_trim]

theorem map_unquote_map_trim (fs : List (List Char)) :
    (fs.map trim).map unquote = fs.map unquote := by
  rw [List.map_map]
  exact List.map_congr_left fun field _ => unquote_trim field

/-- What stands before the first comma of a row ends no row, so the row begins there. -/
theorem fields_of_withoutMark {cs before rest : List Char}
    (hmark : withoutMark cs = before ++ ',' :: rest) (hbefore : ∀ c ∈ before, isRowEnd c = false) :
    fields cs = (fieldsFrom .opening (before ++ ',' :: rest)).map trim := by
  have hdrop : (before ++ ',' :: rest).dropWhile isRowEnd = before ++ ',' :: rest := by
    cases before with
    | nil => rfl
    | cons c before =>
      rw [List.cons_append, List.dropWhile_cons_of_neg]
      rw [hbefore c List.mem_cons_self]
      exact Bool.false_ne_true
  rw [fields, hmark, hdrop]
  cases before <;> rfl

theorem withoutMark_append {a b : List Char} (hb : b.head? ≠ some '\uFEFF') :
    withoutMark (a ++ b) = withoutMark a ++ b := by
  cases a with
  | nil =>
    cases b with
    | nil => rfl
    | cons c cs => exact if_neg fun h => hb (by rw [h, List.head?_cons])
  | cons c cs =>
    rw [List.cons_append, withoutMark, withoutMark]
    split <;> rfl

theorem mem_of_mem_withoutMark {c : Char} {cs : List Char} (h : c ∈ withoutMark cs) : c ∈ cs := by
  cases cs with
  | nil => exact h
  | cons d ds =>
    rw [withoutMark] at h
    split at h
    · exact List.mem_cons_of_mem d h
    · exact h

theorem ne_mark_of_blank {c : Char} (h : isBlank c = true) : c ≠ '\uFEFF' := by
  rintro rfl
  exact absurd h (by decide)

/-- A body at the start of the row, with blanks and a comma after it. -/
theorem fields_first (b : Body) {after : List Char} (hafter : IsPadding after)
    (rest : List Char) :
    (fields (b.chars ++ (after ++ ',' :: rest))).map unquote =
      b.reading .first :: (fieldsFrom .opening rest).map unquote := by
  cases b with
  | bare text trimmed inside quote =>
    have hmark : withoutMark (text ++ (after ++ ',' :: rest)) =
        (withoutMark text ++ after) ++ ',' :: rest := by
      rw [withoutMark_append, List.append_assoc]
      refine head?_append_ne ?_ (by simp)
      exact fun hhead => ne_mark_of_blank (hafter _ (List.mem_of_mem_head? hhead)).1 rfl
    have hinside : ∀ c ∈ withoutMark text ++ after, c ≠ ',' ∧ isRowEnd c = false := by
      intro c hc
      rcases List.mem_append.mp hc with hc | hc
      · exact inside c (mem_of_mem_withoutMark hc)
      · exact ⟨(hafter.isPlain c hc).1, (hafter c hc).2⟩
    have hfields := fieldsFrom_outside_tail (s := .opening) (by decide) hinside
      (head?_append_ne quote hafter.head?_ne) (some rest)
    rw [tailChars] at hfields
    rw [Body.chars, fields_of_withoutMark hmark fun c hc => (hinside c hc).2, map_unquote_map_trim,
      hfields, List.map_cons, unquote_append hafter]
    rfl
  | quoted text line =>
    have hchars : Body.chars (.quoted text line) ++ (after ++ ',' :: rest) =
        '\'' :: (doubled text ++ '\'' :: (after ++ tailChars (some rest))) := by
      simp [Body.chars, tailChars]
    rw [hchars, fields_cons (by decide) (by decide), map_unquote_map_trim, fieldsFrom_opening_quote,
      fieldsFrom_quoted text hafter.isPlain, List.map_cons, unquote_append hafter]
    rfl

/-- A row that begins with blanks begins there. -/
theorem map_unquote_fields_of_padded (c : Cell) (hbefore : c.before ≠ []) (rest : List Char) :
    (fields (c.chars ++ rest)).map unquote =
      (fieldsFrom .opening (c.chars ++ rest)).map unquote := by
  obtain ⟨b, bs, hb⟩ := List.exists_cons_of_ne_nil hbefore
  have hpadding : isBlank b = true ∧ isRowEnd b = false := by
    apply c.before_padding
    rw [hb]
    exact List.mem_cons_self
  have hchars : c.chars ++ rest = b :: (bs ++ (c.body.chars ++ c.after) ++ rest) := by
    rw [Cell.chars, hb]
    simp
  rw [hchars, fields_cons (ne_mark_of_blank hpadding.1) hpadding.2, map_unquote_map_trim]

/-- A field that begins with blanks, at the start of the row, with a comma after it. -/
theorem fields_inside (c : Cell) (hbefore : c.before ≠ []) (hwhole : c.body.IsWhole .inside)
    (rest : List Char) :
    (fields (c.chars ++ ',' :: rest)).map unquote =
      c.body.reading .inside :: (fieldsFrom .opening rest).map unquote := by
  have hplace : c.place = .inside := if_neg hbefore
  obtain ⟨field, hfields, hreading⟩ := fieldsFrom_cell c (hplace ▸ hwhole) (some rest)
  rw [tailChars] at hfields
  rw [map_unquote_fields_of_padded c hbefore, hfields, List.map_cons, hreading, hplace]
  rfl

end LatencyPlot.Table
