/-
  LatencyPlot.Proofs.Table.Outcome

  What becomes of a row and of a line, said of their fields: a row is a record
  iff it has six fields or more and its second to sixth read as finite numbers
  (`IsRecord`). Then it `Holds` one record; otherwise it has exactly one
  complaint (`Complains`), about the number of its fields or about the leftmost
  column that does not read. A line is left out, or it is a row (`IsRow`).

  `row_eq_ok_iff`, `row_eq_error_iff` and `Line.read_eq` are all that the laws of
  whole tables need to know of `row` and `Line.read`.
-/
import LatencyPlot.Table.Reader
import Mathlib.Data.List.Basic

namespace LatencyPlot.Table

variable {line : Nat} {fs : List (List Char)} {r : Record Float} {e : RowError}

/-! ## Columns -/

/-- The place of a column among the fields of a row; the label is at place 0. -/
def Column.place : Column → Nat
  | .low => 1
  | .p25 => 2
  | .median => 3
  | .p75 => 4
  | .high => 5

/-- The boundary of a record that a column gives. -/
def Column.value {α : Type} (r : Record α) : Column → α
  | .low => r.low
  | .p25 => r.p25
  | .median => r.median
  | .p75 => r.p75
  | .high => r.high

theorem Column.place_inj {c d : Column} (h : c.place = d.place) : c = d := by
  cases c <;> cases d <;> first | rfl | (simp [place] at h)

theorem Column.place_le_five (c : Column) : 1 ≤ c.place ∧ c.place ≤ 5 := by
  cases c <;> decide

/-- Each place from the second to the sixth belongs to a column. -/
theorem Column.exists_place_eq {i : Nat} (hi : i < 5) : ∃ c : Column, c.place = i + 1 := by
  match i, hi with
  | 0, _ => exact ⟨.low, rfl⟩
  | 1, _ => exact ⟨.p25, rfl⟩
  | 2, _ => exact ⟨.median, rfl⟩
  | 3, _ => exact ⟨.p75, rfl⟩
  | 4, _ => exact ⟨.high, rfl⟩

/-- Each boundary of a record belongs to a column. -/
theorem Column.exists_value_eq {α : Type} {r : Record α} {x : α} (hx : x ∈ r.bounds) :
    ∃ c : Column, c.value r = x := by
  simp only [Record.bounds, List.mem_cons, List.not_mem_nil, or_false] at hx
  rcases hx with rfl | rfl | rfl | rfl | rfl
  · exact ⟨.low, rfl⟩
  · exact ⟨.p25, rfl⟩
  · exact ⟨.median, rfl⟩
  · exact ⟨.p75, rfl⟩
  · exact ⟨.high, rfl⟩

/-! ## Rows -/

/-- The fields that hold the numbers of a row: the second to the sixth. -/
def numberFields (fs : List (List Char)) : List (List Char) := (fs.drop 1).take 5

/-- Whether a field, without its quotes, is the text of a finite number. -/
def IsFinite (field : List Char) : Prop := (Number.readFinite? (unquote field)).isSome = true

instance : DecidablePred IsFinite := fun _ => inferInstanceAs (Decidable (_ = true))

/-- Whether fields make up a record. -/
def IsRecord (fs : List (List Char)) : Prop :=
  6 ≤ fs.length ∧ ∀ field ∈ numberFields fs, IsFinite field

instance : DecidablePred IsRecord := fun _ => inferInstanceAs (Decidable (_ ∧ _))

/-- The record that a row with some fields holds. -/
structure Holds (line : Nat) (fs : List (List Char)) (r : Record Float) : Prop where
  line_eq : r.line = line
  label_eq : fs[0]?.map (fun field => String.ofList (unquote field)) = some r.label
  value_eq : ∀ c : Column, ∃ field, fs[c.place]? = some field ∧
    Number.readFinite? (unquote field) = some (c.value r)

/-- The complaint about a row with some fields: about their number if they are fewer than six,
    else about the leftmost column that is no finite number. -/
inductive Complains (line : Nat) (fs : List (List Char)) : RowError → Prop where
  | tooFewFields (h : fs.length < 6) : Complains line fs (.tooFewFields line fs.length)
  | invalidNumber {c : Column} {field : List Char} (h : 6 ≤ fs.length)
      (hfield : fs[c.place]? = some field) (hbad : ¬ IsFinite field)
      (hleft : ∀ d : Column, d.place < c.place → ∀ f, fs[d.place]? = some f → IsFinite f) :
      Complains line fs (.invalidNumber line c (String.ofList (unquote field)))

theorem mem_numberFields_iff {field : List Char} :
    field ∈ numberFields fs ↔ ∃ c : Column, fs[c.place]? = some field := by
  simp only [numberFields, List.mem_iff_getElem?, List.getElem?_take, List.getElem?_drop]
  constructor
  · rintro ⟨i, hi⟩
    have hlt : i < 5 := by
      by_contra hge
      simp [hge] at hi
    obtain ⟨c, hc⟩ := Column.exists_place_eq hlt
    refine ⟨c, ?_⟩
    rw [hc, Nat.add_comm]
    simpa [hlt] using hi
  · rintro ⟨c, hc⟩
    obtain ⟨hpos, hle⟩ := c.place_le_five
    refine ⟨c.place - 1, ?_⟩
    rw [if_pos (by omega), Nat.add_sub_cancel' hpos]
    exact hc

/-- Six fields or more are a label, five fields for numbers, and others. -/
theorem exists_fields_of_le (h : 6 ≤ fs.length) :
    ∃ label low p25 median p75 high rest,
      fs = label :: low :: p25 :: median :: p75 :: high :: rest := by
  match fs, h with
  | label :: low :: p25 :: median :: p75 :: high :: rest, _ =>
    exact ⟨label, low, p25, median, p75, high, rest, rfl⟩

theorem row_of_length_lt (line : Nat) (h : fs.length < 6) :
    row line fs = .error (.tooFewFields line fs.length) := by
  unfold row
  split
  · simp only [List.length_cons] at h
    omega
  · rfl

theorem number_of_eq_some {c : Column} {field : List Char} {x : Float}
    (h : Number.readFinite? (unquote field) = some x) : number line c field = .ok x := by
  rw [number]
  simp only [h]

theorem isFinite_of_eq_some {field : List Char} {x : Float}
    (h : Number.readFinite? (unquote field) = some x) : IsFinite field := by
  rw [IsFinite, h]
  rfl

/-- The number of a field is read, or the field is what the error tells of. -/
theorem number_spec (line : Nat) (c : Column) (field : List Char) :
    (∃ x, number line c field = .ok x ∧ Number.readFinite? (unquote field) = some x) ∨
      (number line c field = .error (.invalidNumber line c (String.ofList (unquote field))) ∧
        ¬ IsFinite field) := by
  cases hread : Number.readFinite? (unquote field) with
  | some x => exact .inl ⟨x, number_of_eq_some hread, rfl⟩
  | none =>
    right
    rw [number, IsFinite, hread]
    exact ⟨rfl, Bool.false_ne_true⟩

/-- A complaint about a column, when the fields between the label and that column are finite. -/
theorem complains_of_left (c : Column) {field : List Char} (hge : 6 ≤ fs.length)
    (hfield : fs[c.place]? = some field) (hbad : ¬ IsFinite field)
    (hleft : ∀ f ∈ (fs.take c.place).drop 1, IsFinite f) :
    Complains line fs (.invalidNumber line c (String.ofList (unquote field))) := by
  refine .invalidNumber hge hfield hbad ?_
  intro d hd f hf
  apply hleft f
  rw [List.mem_iff_getElem?]
  refine ⟨d.place - 1, ?_⟩
  rw [List.getElem?_drop, Nat.add_sub_cancel' d.place_le_five.1, List.getElem?_take_of_lt hd, hf]

/-- A row holds a record that is read, or has a complaint that is reported. -/
theorem row_spec (line : Nat) (fs : List (List Char)) :
    (∃ r, row line fs = .ok r ∧ Holds line fs r) ∨
      ∃ e, row line fs = .error e ∧ Complains line fs e := by
  rcases Nat.lt_or_ge fs.length 6 with hlt | hge
  · exact .inr ⟨_, row_of_length_lt line hlt, .tooFewFields hlt⟩
  obtain ⟨label, low, p25, median, p75, high, rest, rfl⟩ := exists_fields_of_le hge
  -- The columns are read from the left; the first that does not read is the one reported.
  rcases number_spec line .low low with ⟨x₁, h₁, hlow⟩ | ⟨h₁, hbad⟩
  case inr =>
    refine .inr ⟨_, ?_, complains_of_left .low hge rfl hbad (by simp [Column.place])⟩
    rw [row, h₁]
    rfl
  have finite₁ := isFinite_of_eq_some hlow
  rcases number_spec line .p25 p25 with ⟨x₂, h₂, hp25⟩ | ⟨h₂, hbad⟩
  case inr =>
    refine .inr ⟨_, ?_, complains_of_left .p25 hge rfl hbad (by simp [Column.place, finite₁])⟩
    rw [row, h₁, h₂]
    rfl
  have finite₂ := isFinite_of_eq_some hp25
  rcases number_spec line .median median with ⟨x₃, h₃, hmedian⟩ | ⟨h₃, hbad⟩
  case inr =>
    refine .inr ⟨_, ?_, complains_of_left .median hge rfl hbad
      (by simp [Column.place, finite₁, finite₂])⟩
    rw [row, h₁, h₂, h₃]
    rfl
  have finite₃ := isFinite_of_eq_some hmedian
  rcases number_spec line .p75 p75 with ⟨x₄, h₄, hp75⟩ | ⟨h₄, hbad⟩
  case inr =>
    refine .inr ⟨_, ?_, complains_of_left .p75 hge rfl hbad
      (by simp [Column.place, finite₁, finite₂, finite₃])⟩
    rw [row, h₁, h₂, h₃, h₄]
    rfl
  have finite₄ := isFinite_of_eq_some hp75
  rcases number_spec line .high high with ⟨x₅, h₅, hhigh⟩ | ⟨h₅, hbad⟩
  case inr =>
    refine .inr ⟨_, ?_, complains_of_left .high hge rfl hbad
      (by simp [Column.place, finite₁, finite₂, finite₃, finite₄])⟩
    rw [row, h₁, h₂, h₃, h₄, h₅]
    rfl
  refine .inl ⟨⟨String.ofList (unquote label), x₁, x₂, x₃, x₄, x₅, line⟩, ?_, rfl, rfl, ?_⟩
  · rw [row, h₁, h₂, h₃, h₄, h₅]
    rfl
  · intro c
    cases c with
    | low => exact ⟨low, rfl, hlow⟩
    | p25 => exact ⟨p25, rfl, hp25⟩
    | median => exact ⟨median, rfl, hmedian⟩
    | p75 => exact ⟨p75, rfl, hp75⟩
    | high => exact ⟨high, rfl, hhigh⟩

/-- A row holds one record at most. -/
theorem Holds.unique {r' : Record Float} (h : Holds line fs r) (h' : Holds line fs r') :
    r = r' := by
  have hvalue : ∀ c : Column, c.value r = c.value r' := by
    intro c
    obtain ⟨field, hfield, hx⟩ := h.value_eq c
    obtain ⟨field', hfield', hx'⟩ := h'.value_eq c
    rw [hfield] at hfield'
    cases hfield'
    exact Option.some.inj (hx.symm.trans hx')
  have hlabel : r.label = r'.label := Option.some.inj (h.label_eq.symm.trans h'.label_eq)
  have hline : r.line = r'.line := h.line_eq.trans h'.line_eq.symm
  cases r
  cases r'
  simp only [Record.mk.injEq]
  exact ⟨hlabel, hvalue .low, hvalue .p25, hvalue .median, hvalue .p75, hvalue .high, hline⟩

/-- A row has one complaint at most: of two bad columns only one can be the leftmost. -/
theorem Complains.unique {e' : RowError} (h : Complains line fs e) (h' : Complains line fs e') :
    e = e' := by
  cases h with
  | tooFewFields hlt =>
    cases h' with
    | tooFewFields => rfl
    | invalidNumber hge => omega
  | @invalidNumber c field hge hfield hbad hleft =>
    cases h' with
    | tooFewFields hlt => omega
    | @invalidNumber d field' _ hfield' hbad' hleft' =>
      -- Each of the two columns is bad, so neither can stand to the left of the other.
      have hplace : c.place = d.place := by
        rcases Nat.lt_trichotomy c.place d.place with hlt | heq | hgt
        · exact absurd (hleft' c hlt field hfield) hbad
        · exact heq
        · exact absurd (hleft d hgt field' hfield') hbad'
      cases Column.place_inj hplace
      rw [hfield] at hfield'
      cases hfield'
      rfl

/-- What holds a record is one. -/
theorem Holds.isRecord (h : Holds line fs r) : IsRecord fs := by
  constructor
  · obtain ⟨field, hfield, -⟩ := h.value_eq .high
    obtain ⟨hlt, -⟩ := List.getElem?_eq_some_iff.mp hfield
    exact hlt
  · intro field hmem
    obtain ⟨c, hc⟩ := mem_numberFields_iff.mp hmem
    obtain ⟨field', hfield', hx⟩ := h.value_eq c
    rw [hc] at hfield'
    cases hfield'
    exact isFinite_of_eq_some hx

/-- What has a complaint is no record. -/
theorem Complains.not_isRecord (h : Complains line fs e) : ¬ IsRecord fs := by
  rintro ⟨hge, hall⟩
  cases h with
  | tooFewFields hlt => omega
  | invalidNumber _ hfield hbad _ => exact hbad (hall _ (mem_numberFields_iff.mpr ⟨_, hfield⟩))

theorem row_eq_ok_iff : row line fs = .ok r ↔ Holds line fs r := by
  rcases row_spec line fs with ⟨r', hrow, hr'⟩ | ⟨e', hrow, he'⟩
  · rw [hrow, Except.ok.injEq]
    exact ⟨fun h => h ▸ hr', fun h => hr'.unique h⟩
  · rw [hrow]
    constructor
    · intro h
      cases h
    · intro h
      exact absurd h.isRecord he'.not_isRecord

theorem row_eq_error_iff : row line fs = .error e ↔ Complains line fs e := by
  rcases row_spec line fs with ⟨r', hrow, hr'⟩ | ⟨e', hrow, he'⟩
  · rw [hrow]
    constructor
    · intro h
      cases h
    · intro h
      exact absurd hr'.isRecord h.not_isRecord
  · rw [hrow, Except.error.injEq]
    exact ⟨fun h => h ▸ he', fun h => he'.unique h⟩

theorem exists_holds_of_isRecord (line : Nat) (h : IsRecord fs) : ∃ r, Holds line fs r := by
  rcases row_spec line fs with ⟨r, -, hr⟩ | ⟨e, -, he⟩
  · exact ⟨r, hr⟩
  · exact absurd h he.not_isRecord

theorem exists_complains_of_not_isRecord (line : Nat) (h : ¬ IsRecord fs) :
    ∃ e, Complains line fs e := by
  rcases row_spec line fs with ⟨r, -, hr⟩ | ⟨e, -, he⟩
  · exact absurd hr.isRecord h
  · exact ⟨e, he⟩

/-- All numbers of a record that a row holds are finite. -/
theorem Holds.isFinite (h : Holds line fs r) : ∀ x ∈ r.bounds, x.isFinite = true := by
  intro x hx
  obtain ⟨c, rfl⟩ := Column.exists_value_eq hx
  obtain ⟨field, -, hread⟩ := h.value_eq c
  rw [Number.readFinite?, Option.filter_eq_some_iff] at hread
  exact hread.2

/-! ## Lines -/

/-- Blanks around a line do not matter. -/
theorem content_congr {a b : List Char} (h : Text.trim a = Text.trim b) :
    content a = content b := by
  rw [content, content, h]

theorem Line.read_congr {a b : List Char} (h : content a = content b) (number : Nat) :
    Line.read number a = Line.read number b := by
  rw [Line.read, Line.read, h]

/-- Whether a line is a row: something is left of it, and it is no comment. A comment begins with a
    hash mark and holds no record. -/
def IsRow (text : List Char) : Prop :=
  content text ≠ [] ∧ ¬ ((content text).head? = some '#' ∧ ¬ IsRecord (fields (content text)))

instance : DecidablePred IsRow := fun _ => inferInstanceAs (Decidable (_ ∧ _))

/-- Whether a line is a row that holds no record. -/
def IsBad (text : List Char) : Prop := IsRow text ∧ ¬ IsRecord (fields (content text))

instance : DecidablePred IsBad := fun _ => inferInstanceAs (Decidable (_ ∧ _))

/-- A line is read as a row, or left out. -/
theorem Line.read_eq (number : Nat) (text : List Char) :
    Line.read number text =
      if IsRow text then .row (Table.row number (fields (content text))) else .pass := by
  unfold Line.read
  by_cases hempty : content text = []
  · rw [if_pos hempty, if_neg fun h => h.1 hempty]
  simp only [if_neg hempty]
  cases hrow : Table.row number (fields (content text)) with
  | ok r =>
    have hrecord : IsRecord (fields (content text)) := (row_eq_ok_iff.mp hrow).isRecord
    rw [if_pos ⟨hempty, fun h => h.2 hrecord⟩]
  | error e =>
    -- Only a hash mark saves a line that is no record.
    have hrecord : ¬ IsRecord (fields (content text)) := (row_eq_error_iff.mp hrow).not_isRecord
    by_cases hhash : (content text).head? = some '#'
    · rw [if_neg fun h => h.2 ⟨hhash, hrecord⟩]
      exact if_pos hhash
    · rw [if_pos ⟨hempty, fun h => hhash h.1⟩]
      exact if_neg hhash

/-- A line gives a record iff its fields hold it. -/
theorem Line.read_eq_ok_iff {number : Nat} {text : List Char} :
    Line.read number text = .row (.ok r) ↔ Holds number (fields (content text)) r := by
  rw [Line.read_eq, ← row_eq_ok_iff]
  constructor
  · intro h
    split at h
    · exact Line.row.inj h
    · cases h
  · intro h
    have hrecord : IsRecord (fields (content text)) := (row_eq_ok_iff.mp h).isRecord
    have hne : content text ≠ [] := by
      intro hnil
      have hsix := hrecord.1
      rw [hnil] at hsix
      exact absurd hsix (by decide)
    rw [if_pos ⟨hne, fun hcomment => hcomment.2 hrecord⟩, h]

end LatencyPlot.Table
