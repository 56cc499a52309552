/-
  LatencyPlot.Proofs.Table.Writing

  Writing a table and reading it back. A row is written as its label between
  quotes, every quote in it doubled, and five numbers with blanks around them,
  either plainly, with more text after another comma, or as a tuple. Blank lines
  and comments may stand between the rows.

  A label passes three layers, and each has its lemma: the tuple around the row
  (`content_plain`, `content_extra`, `content_tuple`), the quotes of a field
  (`fieldsFrom_quoted`), and one more pair of quotes (`unquote_eq_relieve`).
  `readRecords_document` is the round trip.
-/
import LatencyPlot.Proofs.Number.Numeral
import LatencyPlot.Proofs.Table.Append
import LatencyPlot.Proofs.Table.Tuple
import LatencyPlot.Proofs.Text.Lines

namespace LatencyPlot.Table

open Text (isBlank trim trimEnd)

/-! ## What is written -/

/-- The text of a finite number, with blanks around it that end no row. -/
structure Numeral where
  before : List Char
  text : List Char
  after : List Char
  value : Float
  before_blank : ∀ c ∈ before, isBlank c = true ∧ isRowEnd c = false
  after_blank : ∀ c ∈ after, isBlank c = true ∧ isRowEnd c = false
  reads : Number.readFinite? text = some value

/-- A label, which may hold anything but a line feed, and five numbers. -/
structure Entry where
  label : List Char
  low : Numeral
  p25 : Numeral
  median : Numeral
  p75 : Numeral
  high : Numeral
  label_line : '\n' ∉ label

/-- How a row is written. -/
inductive Form where
  /-- By itself, or with a comma and more text after it. -/
  | plain (extra : Option (List Char)) (line : ∀ text ∈ extra, '\n' ∉ text)
  /-- Between parentheses, with or without a comma after them. -/
  | tuple (comma : Bool)

/-- What stands on a line. -/
inductive Item where
  | row (entry : Entry) (form : Form)
  | blank (text : List Char) (blank : ∀ c ∈ text, isBlank c = true ∧ c ≠ '\n')
  | comment (text : List Char) (line : '\n' ∉ text) (comma : ',' ∉ text)

/-- A text with every quote in it written twice. -/
def doubled (text : List Char) : List Char :=
  text.flatMap fun c => if c = '\'' then ['\'', '\''] else [c]

/-- A number as it is written. -/
def Numeral.chars (n : Numeral) : List Char := n.before ++ n.text ++ n.after

/-- The numbers of an entry, in the order of their columns. -/
def Entry.numbers (e : Entry) : List Numeral := [e.low, e.p25, e.median, e.p75, e.high]

/-- The six fields of an entry, with commas between them. -/
def Entry.chars (e : Entry) : List Char :=
  '\'' :: (doubled e.label ++ '\'' :: e.numbers.flatMap fun n => ',' :: n.chars)

/-- What follows the sixth field: nothing, or a comma and more text. -/
def tailChars : Option (List Char) → List Char
  | none => []
  | some text => ',' :: text

/-- A row as it is written. -/
def Form.chars (e : Entry) : Form → List Char
  | .plain extra _ => e.chars ++ tailChars extra
  | .tuple comma => '(' :: (e.chars ++ ')' :: if comma then [','] else [])

/-- A line as it is written. -/
def Item.chars : Item → List Char
  | .row entry form => form.chars entry
  | .blank text _ => text
  | .comment text _ _ => '#' :: text

/-- A line with its end: a line feed, with or without a carriage return before it. -/
structure WrittenLine where
  item : Item
  hasReturn : Bool

/-- The characters of a line up to its line feed. -/
def WrittenLine.chars (line : WrittenLine) : List Char :=
  line.item.chars ++ if line.hasReturn then ['\r'] else []

/-- The text of some lines. It is `closed` if the last line has its line feed too. -/
def document (closed : Bool) : List WrittenLine → List Char
  | [] => []
  | [line] => line.chars ++ if closed then ['\n'] else []
  | line :: next :: rest => line.chars ++ '\n' :: document closed (next :: rest)

/-! ## What is read -/

/-- A text without one pair of equal quotes around it, if it has one. -/
def relieve : List Char → List Char
  | [] => []
  | q :: rest =>
    if (q = '\'' ∨ q = '"') ∧ rest.getLast? = some q then rest.dropLast else q :: rest

/-- The record of an entry that is written on some line. -/
def Entry.record (e : Entry) (line : Nat) : Record Float :=
  { label := String.ofList (relieve (trim e.label)), low := e.low.value, p25 := e.p25.value,
    median := e.median.value, p75 := e.p75.value, high := e.high.value, line }

/-- The record of a line, if a row is written on it. -/
def Item.record? (number : Nat) : Item → Option (Record Float)
  | .row entry _ => some (entry.record number)
  | .blank _ _ => none
  | .comment _ _ _ => none

/-- The records of lines that are numbered from `number` on. -/
def recordsFrom (number : Nat) (lines : List WrittenLine) : List (Record Float) :=
  (lines.zipIdx number).filterMap fun line => line.1.item.record? line.2

/-! ## Quotes around a value -/

/-- A value is read without the blanks around it, and then without one pair of quotes. -/
theorem unquote_eq_relieve (field : List Char) : unquote field = relieve (trim field) := by
  rw [unquote]
  cases trim field with
  | nil => rfl
  | cons q rest =>
    cases rest with
    | nil => simp [isEnclosedBy, relieve]
    | cons c rest =>
      have hlength : 2 ≤ (q :: c :: rest).length := by
        rw [List.length_cons, List.length_cons]
        omega
      simp only [isEnclosedBy, hlength, decide_true, Bool.true_and, List.head?_cons,
        List.getLast?_cons_cons, List.tail_cons, relieve, Bool.or_eq_true, Bool.and_eq_true,
        beq_iff_eq, Option.some.injEq]
      by_cases hq : q = '\''
      · subst hq
        simp
      · by_cases hq' : q = '"'
        · subst hq'
          simp
        · simp [hq, hq']

theorem relieve_of_not_quote {cs : List Char} (h : ∀ c ∈ cs, c ≠ '\'' ∧ c ≠ '"') :
    relieve cs = cs := by
  cases cs with
  | nil => rfl
  | cons c rest =>
    obtain ⟨hsingle, hdouble⟩ := h c List.mem_cons_self
    rw [relieve, if_neg]
    rintro ⟨hc | hc, -⟩
    · exact hsingle hc
    · exact hdouble hc

/-! ## Fields -/

/-- Whether a character is text of any field that does not begin with a quote. -/
def IsPlain (c : Char) : Prop := c ≠ ',' ∧ isRowEnd c = false ∧ c ≠ '\''

/-- The fields after the one that a comma, or the end of the text, closes. -/
def tailFields : Option (List Char) → List (List Char)
  | none => []
  | some text => fieldsFrom .opening text

theorem fieldsFrom_bare_tail {cs : List Char} (h : ∀ c ∈ cs, c ≠ ',' ∧ isRowEnd c = false)
    (tail : Option (List Char)) :
    fieldsFrom .bare (cs ++ tailChars tail) = cs :: tailFields tail := by
  induction cs with
  | nil => cases tail <;> rfl
  | cons c cs ih =>
    obtain ⟨hcomma, hend⟩ := h c List.mem_cons_self
    rw [List.cons_append, fieldsFrom, fieldStep, outsideStep, if_neg hcomma, hend]
    simp only [Bool.false_eq_true, if_false]
    rw [ih fun d hd => h d (List.mem_cons_of_mem c hd), push]

/-- A quote only has a meaning at the start of a field and inside quotes. -/
theorem fieldStep_of_ne {s : FieldState} (hs : s ≠ .quoted) {c : Char} (hc : c ≠ '\'') :
    fieldStep s c = outsideStep c := by
  cases s with
  | opening => exact if_neg hc
  | bare => rfl
  | quoted => exact absurd rfl hs
  | closing => exact if_neg hc

/-- Outside quotes, text that does not begin with a quote is read up to the next comma. -/
theorem fieldsFrom_outside_tail {s : FieldState} (hs : s ≠ .quoted) {cs : List Char}
    (h : ∀ c ∈ cs, c ≠ ',' ∧ isRowEnd c = false) (hquote : cs.head? ≠ some '\'')
    (tail : Option (List Char)) :
    fieldsFrom s (cs ++ tailChars tail) = cs :: tailFields tail := by
  cases cs with
  | nil =>
    cases tail with
    | none => rfl
    | some text =>
      rw [List.nil_append, tailChars, fieldsFrom, fieldStep_of_ne hs (by decide)]
      rfl
  | cons c cs =>
    obtain ⟨hcomma, hend⟩ := h c List.mem_cons_self
    have hc : c ≠ '\'' := fun heq => hquote (by rw [heq, List.head?_cons])
    rw [List.cons_append, fieldsFrom, fieldStep_of_ne hs hc, outsideStep, if_neg hcomma, hend]
    simp only [Bool.false_eq_true, if_false]
    rw [fieldsFrom_bare_tail (fun d hd => h d (List.mem_cons_of_mem c hd)), push]

/-- Text without quotes is read up to the next comma. -/
theorem fieldsFrom_plain_tail {s : FieldState} (hs : s ≠ .quoted) {cs : List Char}
    (h : ∀ c ∈ cs, IsPlain c) (tail : Option (List Char)) :
    fieldsFrom s (cs ++ tailChars tail) = cs :: tailFields tail := by
  apply fieldsFrom_outside_tail hs
  · exact fun c hc => ⟨(h c hc).1, (h c hc).2.1⟩
  · intro hquote
    exact (h _ (List.mem_of_mem_head? hquote)).2.2 rfl

/-- A quoted field is read up to its closing quote, and on to the next comma; a doubled quote in it
    is one. -/
theorem fieldsFrom_quoted (text : List Char) {after : List Char} (h : ∀ c ∈ after, IsPlain c)
    (tail : Option (List Char)) :
    fieldsFrom .quoted (doubled text ++ '\'' :: (after ++ tailChars tail)) =
      (text ++ after) :: tailFields tail := by
  induction text with
  | nil => exact fieldsFrom_plain_tail (s := .closing) (by decide) h tail
  | cons c text ih =>
    rw [doubled] at ih ⊢
    rw [List.flatMap_cons, List.append_assoc]
    by_cases hc : c = '\''
    · subst hc
      -- The first quote of the pair may close the field; the second one takes that back.
      rw [if_pos rfl, List.cons_append, List.cons_append, List.nil_append, fieldsFrom, fieldStep,
        if_pos rfl]
      simp only
      rw [fieldsFrom, fieldStep, if_pos rfl]
      simp only
      rw [ih, push, List.cons_append]
    · rw [if_neg hc, List.cons_append, List.nil_append, fieldsFrom, fieldStep, if_neg hc]
      simp only
      rw [ih, push, List.cons_append]

/-! ## Numbers -/

/-- A blank that ends no row is plain. -/
theorem isPlain_of_blank {c : Char} (h : isBlank c = true ∧ isRowEnd c = false) : IsPlain c := by
  refine ⟨?_, h.2, ?_⟩
  · rintro rfl
    exact absurd h.1 (by decide)
  · rintro rfl
    exact absurd h.1 (by decide)

/-- What may stand in the text of a number is none of the characters that a row is made of. -/
theorem not_isNumeral {c : Char} (hc : c ∈ [',', '\r', '\n', '\'', '"']) :
    Number.isNumeral c = false := by
  simp only [List.mem_cons, List.not_mem_nil, or_false] at hc
  rcases hc with rfl | rfl | rfl | rfl | rfl <;> decide

theorem not_isNumeral_of_blank {c : Char} (hc : isBlank c = true) :
    Number.isNumeral c = false := by
  cases hnumeral : Number.isNumeral c with
  | false => rfl
  | true =>
    have hnat := Number.toNat_of_isNumeral hnumeral
    simp only [isBlank, Bool.or_eq_true, Bool.and_eq_true, decide_eq_true_eq, beq_iff_eq] at hc
    omega

namespace Numeral

variable (n : Numeral)

theorem isNumeral_of_mem_text {c : Char} (hc : c ∈ n.text) : Number.isNumeral c = true :=
  Number.isNumeral_of_readFinite? n.reads c hc

theorem ne_of_mem_text {c d : Char} (hc : c ∈ n.text) (hd : d ∈ [',', '\r', '\n', '\'', '"']) :
    c ≠ d := by
  rintro rfl
  have hnumeral := n.isNumeral_of_mem_text hc
  rw [not_isNumeral hd] at hnumeral
  cases hnumeral

theorem isPlain_of_mem_chars {c : Char} (hc : c ∈ n.chars) : IsPlain c := by
  rw [chars, List.mem_append, List.mem_append] at hc
  rcases hc with (hc | hc) | hc
  · exact isPlain_of_blank (n.before_blank c hc)
  · refine ⟨n.ne_of_mem_text hc (by simp), ?_, n.ne_of_mem_text hc (by simp)⟩
    simp [isRowEnd, n.ne_of_mem_text hc (d := '\r') (by simp),
      n.ne_of_mem_text hc (d := '\n') (by simp)]
  · exact isPlain_of_blank (n.after_blank c hc)

theorem not_blank_of_mem_text {c : Char} (hc : c ∈ n.text) : isBlank c = false := by
  cases hblank : isBlank c with
  | false => rfl
  | true =>
    have hnumeral := n.isNumeral_of_mem_text hc
    rw [not_isNumeral_of_blank hblank] at hnumeral
    cases hnumeral

/-- Of a number as it is written its text is left. -/
theorem trim_chars : trim n.chars = n.text := by
  rw [chars, Text.trim_pad (fun c hc => (n.before_blank c hc).1) (fun c hc => (n.after_blank c hc).1),
    Text.trim_of_not_blank fun c hc => n.not_blank_of_mem_text hc]

theorem unquote_text : unquote n.text = n.text := by
  rw [unquote_eq_relieve, Text.trim_of_not_blank fun c hc => n.not_blank_of_mem_text hc,
    relieve_of_not_quote fun c hc => ⟨n.ne_of_mem_text hc (by simp), n.ne_of_mem_text hc (by simp)⟩]

/-- The field of a number reads as its value. -/
theorem number_text (line : Nat) (c : Column) : number line c n.text = .ok n.value := by
  apply number_of_eq_some
  rw [unquote_text, n.reads]

/-- The number without the blanks after it. -/
def trimmed : Numeral := { n with after := [], after_blank := by simp }

theorem trimEnd_append_chars (cs : List Char) : trimEnd (cs ++ n.chars) = cs ++ n.trimmed.chars := by
  obtain ⟨init, last, hlast⟩ : ∃ init last, n.text = init ++ [last] := by
    have hne : n.text ≠ [] := Number.ne_nil_of_readFinite? n.reads
    exact ⟨_, _, (List.dropLast_concat_getLast hne).symm⟩
  have hblank : isBlank last = false := n.not_blank_of_mem_text (by simp [hlast])
  have hafter : trimEnd n.after = [] :=
    Text.trimEnd_eq_nil_of_blank fun c hc => (n.after_blank c hc).1
  have hchars : cs ++ n.chars = cs ++ n.before ++ init ++ last :: n.after := by
    simp [chars, hlast]
  rw [hchars, Text.trimEnd_append_cons hblank, hafter]
  simp [chars, trimmed, hlast]

end Numeral

/-- Numbers with commas between them are read one after the other. -/
theorem fieldsFrom_numerals (n : Numeral) (more : List Numeral) (tail : Option (List Char)) :
    fieldsFrom .opening
        (n.chars ++ ((more.flatMap fun m => ',' :: m.chars) ++ tailChars tail)) =
      n.chars :: (more.map Numeral.chars ++ tailFields tail) := by
  -- Each number is closed by the comma before the next one, the last by the tail.
  induction more generalizing n with
  | nil => exact fieldsFrom_plain_tail (by decide) (fun c hc => n.isPlain_of_mem_chars hc) tail
  | cons m more ih =>
    have hplain : ∀ c ∈ n.chars, IsPlain c := fun c hc => n.isPlain_of_mem_chars hc
    have hnext := fieldsFrom_plain_tail (s := .opening) (by decide) hplain
      (some (m.chars ++ ((more.flatMap fun m => ',' :: m.chars) ++ tailChars tail)))
    rw [tailChars, tailFields, ih m] at hnext
    rw [List.flatMap_cons, List.cons_append, List.cons_append, List.append_assoc, hnext,
      List.map_cons, List.cons_append]

/-! ## Rows -/

theorem fields_cons {c : Char} (hmark : c ≠ '\uFEFF') (hend : isRowEnd c = false)
    (cs : List Char) : fields (c :: cs) = (fieldsFrom .opening (c :: cs)).map trim := by
  rw [fields, withoutMark, if_neg hmark, List.dropWhile_cons_of_neg (by simp [hend])]

/-- The fields of an entry: its label, its numbers, and what follows. -/
theorem fields_entry (e : Entry) (tail : Option (List Char)) :
    fields (e.chars ++ tailChars tail) =
      trim e.label :: (e.numbers.map Numeral.text ++ (tailFields tail).map trim) := by
  have hchars : e.chars ++ tailChars tail =
      '\'' :: (doubled e.label ++ '\'' :: ',' :: (e.low.chars ++
        (([e.p25, e.median, e.p75, e.high].flatMap fun n => ',' :: n.chars) ++ tailChars tail))) := by
    simp [Entry.chars, Entry.numbers]
  have hquote : fieldStep .opening '\'' = .skip .quoted := rfl
  rw [hchars, fields_cons (by decide) (by decide), fieldsFrom, hquote]
  simp only
  have hlabel := fieldsFrom_quoted e.label (List.forall_mem_nil IsPlain)
    (some (e.low.chars ++
      (([e.p25, e.median, e.p75, e.high].flatMap fun n => ',' :: n.chars) ++ tailChars tail)))
  rw [List.nil_append, tailChars] at hlabel
  rw [hlabel, tailFields, fieldsFrom_numerals]
  simp [Entry.numbers, Numeral.trim_chars]

/-- An entry is read as its record, whatever follows its sixth field. -/
theorem row_entry (e : Entry) (tail : Option (List Char)) (line : Nat) :
    row line (fields (e.chars ++ tailChars tail)) = .ok (e.record line) := by
  rw [fields_entry]
  simp only [Entry.numbers, List.map_cons, List.map_nil, List.cons_append, List.nil_append, row,
    Numeral.number_text, unquote_eq_relieve, Text.trim_trim]
  rfl

/-! ## Tuples -/

/-- A line that does not begin with a parenthesis is no tuple. -/
theorem content_of_ne {line rest : List Char} {c : Char} (h : trim line = c :: rest)
    (hc : c ≠ '(') : content line = c :: rest := by
  rw [content_of_not_isTuple, h]
  rintro ⟨body, htuple⟩
  have hhead := htuple.head?_trim
  rw [h] at hhead
  exact hc (Option.some.inj hhead)

theorem trim_entry (e : Entry) (cs : List Char) : trim (e.chars ++ cs) = trimEnd (e.chars ++ cs) := by
  have hquote : isBlank '\'' = false := by decide
  rw [Entry.chars, List.cons_append, Text.trim_cons_of_not_blank hquote,
    Text.trimEnd_cons_of_not_blank hquote]

/-- The entry without the blanks after its last number. -/
def Entry.trimmed (e : Entry) : Entry := { e with high := e.high.trimmed }

theorem trimEnd_entry (e : Entry) : trimEnd e.chars = e.trimmed.chars := by
  have hchars (e : Entry) : e.chars = ('\'' :: (doubled e.label ++ '\'' ::
      (([e.low, e.p25, e.median, e.p75].flatMap fun n => ',' :: n.chars) ++ [',']))) ++
        e.high.chars := by
    simp [Entry.chars, Entry.numbers]
  rw [hchars, Numeral.trimEnd_append_chars, hchars]
  rfl

theorem content_plain (e : Entry) : content e.chars = e.trimmed.chars := by
  have htrim : trim e.chars = e.trimmed.chars := by
    have h := trim_entry e []
    rw [List.append_nil, trimEnd_entry] at h
    exact h
  exact content_of_ne htrim (by decide)

theorem content_extra (e : Entry) (text : List Char) :
    content (e.chars ++ ',' :: text) = e.chars ++ ',' :: trimEnd text := by
  have htrim : trim (e.chars ++ ',' :: text) = e.chars ++ ',' :: trimEnd text := by
    rw [trim_entry, Text.trimEnd_append_cons (by decide)]
  exact content_of_ne htrim (by decide)

/-- What stands between the parentheses of a tuple is left, with or without a comma after them. -/
theorem content_tuple (e : Entry) (comma : Bool) :
    content ('(' :: (e.chars ++ ')' :: if comma then [','] else [])) = e.chars := by
  have hnone : ∀ c ∈ ([] : List Char), isBlank c = true := List.forall_mem_nil _
  cases comma with
  | true => exact content_of_isTuple (isTuple_comma hnone e.chars hnone hnone)
  | false => exact content_of_isTuple (isTuple_closed hnone e.chars hnone)

/-- However a row is written, its six fields are left of the line. -/
theorem exists_content_row (e : Entry) (form : Form) :
    ∃ (e' : Entry) (tail : Option (List Char)), content (form.chars e) = e'.chars ++ tailChars tail ∧
      ∀ line, e'.record line = e.record line := by
  cases form with
  | plain extra =>
    cases extra with
    | none =>
      refine ⟨e.trimmed, none, ?_, fun line => rfl⟩
      rw [Form.chars, tailChars, List.append_nil, List.append_nil]
      exact content_plain e
    | some text => exact ⟨e, some (trimEnd text), content_extra e text, fun line => rfl⟩
  | tuple comma =>
    refine ⟨e, none, ?_, fun line => rfl⟩
    rw [tailChars, List.append_nil]
    exact content_tuple e comma

/-! ## Lines -/

theorem not_isRow_of_blank {text : List Char} (h : trim text = []) : ¬ IsRow text := by
  intro hrow
  apply hrow.1
  rw [content, h]
  rfl

theorem length_fieldsFrom_bare {cs : List Char} (h : ',' ∉ cs) :
    (fieldsFrom .bare cs).length = 1 := by
  induction cs with
  | nil => rfl
  | cons c cs ih =>
    have hc : c ≠ ',' := fun heq => h (heq ▸ List.mem_cons_self)
    have hcs : ',' ∉ cs := fun hmem => h (List.mem_cons_of_mem c hmem)
    rw [fieldsFrom, fieldStep, outsideStep, if_neg hc]
    cases isRowEnd c with
    | true => rfl
    | false =>
      simp only [Bool.false_eq_true, if_false]
      cases hfields : fieldsFrom .bare cs with
      | nil => rfl
      | cons field more =>
        rw [← ih hcs, hfields, push]
        rfl

/-- A comment without a comma has one field, and so is no row. -/
theorem not_isRow_of_comment {text rest : List Char} (h : trim text = '#' :: rest)
    (hcomma : ',' ∉ rest) : ¬ IsRow text := by
  have hcontent : content text = '#' :: rest := content_of_ne h (by decide)
  -- One field is too few for a record, and a line that begins with a hash mark is then left out.
  have hone : (fields ('#' :: rest)).length = 1 := by
    have hstep : fieldStep .opening '#' = .keep .bare := rfl
    rw [fields_cons (by decide) (by decide), List.length_map, fieldsFrom, hstep]
    simp only
    have hbare := length_fieldsFrom_bare hcomma
    cases hfields : fieldsFrom .bare rest with
    | nil => rfl
    | cons field more =>
      rw [hfields] at hbare
      exact hbare
  rw [IsRow, hcontent]
  rintro ⟨-, hrow⟩
  apply hrow
  refine ⟨rfl, fun hrecord => ?_⟩
  have hsix := hrecord.1
  omega

/-- Each written line is read as what stands on it. -/
theorem readLines_cons_item (item : Item) (number : Nat) {text : List Char}
    (h : trim text = trim item.chars) (rest : List (List Char)) :
    readLines false number (text :: rest) =
      (readLines false (number + 1) rest).map ((item.record? number).toList ++ ·) := by
  have hmap (outcome : Except RowError (List (Record Float))) :
      outcome.map ([] ++ ·) = outcome := by
    cases outcome <;> rfl
  cases item with
  | row e form =>
    obtain ⟨e', tail, hform, hrecord⟩ := exists_content_row e form
    have hcontent : content text = e'.chars ++ tailChars tail := (content_congr h).trans hform
    have hread := row_entry e' tail number
    rw [hrecord] at hread
    -- A row is no comment: what is left of it begins with a quote, and holds a record.
    have hrow : IsRow text := by
      rw [IsRow, hcontent]
      refine ⟨by simp [Entry.chars], fun hcomment => hcomment.2 ?_⟩
      exact (row_eq_ok_iff.mp hread).isRecord
    rw [readLines_cons_of_isRow hrow, hcontent, hread]
    rfl
  | blank blanks hblank =>
    have hnil : trim text = [] := h.trans (Text.trim_eq_nil_of_blank fun c hc => (hblank c hc).1)
    rw [readLines_cons_of_not_isRow (not_isRow_of_blank hnil)]
    exact (hmap _).symm
  | comment comment hline hcomma =>
    have hhash : trim text = '#' :: trimEnd comment :=
      h.trans (Text.trim_cons_of_not_blank (by decide) comment)
    have hnone : ',' ∉ trimEnd comment := fun hmem => hcomma ((Text.trimEnd_isPrefix _).subset hmem)
    rw [readLines_cons_of_not_isRow (not_isRow_of_comment hhash hnone)]
    exact (hmap _).symm

theorem Numeral.not_mem_chars (n : Numeral) : '\n' ∉ n.chars := by
  intro hmem
  exact absurd (n.isPlain_of_mem_chars hmem).2.1 (by decide)

/-- A quote is all that is doubled. -/
theorem mem_of_mem_doubled {c : Char} {text : List Char} (h : c ∈ doubled text) : c ∈ text := by
  obtain ⟨d, hd, hc⟩ := List.mem_flatMap.mp h
  split at hc
  · next hquote => simp_all
  · rw [List.mem_singleton.mp hc]
    exact hd

theorem Entry.not_mem_chars (e : Entry) : '\n' ∉ e.chars := by
  have hlabel : '\n' ∉ doubled e.label := fun hmem => e.label_line (mem_of_mem_doubled hmem)
  simp [Entry.chars, Entry.numbers, hlabel, Numeral.not_mem_chars]

/-- A written line is one line. -/
theorem Item.not_mem_chars (item : Item) : '\n' ∉ item.chars := by
  cases item with
  | row e form =>
    cases form with
    | plain extra hextra =>
      cases extra with
      | none => simpa [chars, Form.chars, tailChars] using e.not_mem_chars
      | some text => simpa [chars, Form.chars, tailChars, e.not_mem_chars] using hextra text rfl
    | tuple comma => cases comma <;> simp [chars, Form.chars, e.not_mem_chars]
  | blank text hblank => exact fun hmem => (hblank _ hmem).2 rfl
  | comment text hline hcomma => simpa [chars] using hline

theorem WrittenLine.not_mem_chars (line : WrittenLine) : '\n' ∉ line.chars := by
  cases h : line.hasReturn <;> simp [chars, h, line.item.not_mem_chars]

/-- The carriage return at the end of a line does not matter. -/
theorem WrittenLine.trim_chars (line : WrittenLine) : trim line.chars = trim line.item.chars := by
  rw [chars]
  cases line.hasReturn with
  | false => simp
  | true => exact Text.trim_append_return _

/-- Nor does it if it is a part of the line end. -/
theorem WrittenLine.trim_withoutReturn (line : WrittenLine) :
    trim (Text.withoutReturn line.chars) = trim line.item.chars :=
  (Text.trim_withoutReturn line.chars).trans line.trim_chars

/-! ## The round trip -/

theorem recordsFrom_cons (number : Nat) (line : WrittenLine) (rest : List WrittenLine) :
    recordsFrom number (line :: rest) =
      (line.item.record? number).toList ++ recordsFrom (number + 1) rest := by
  rw [recordsFrom, List.zipIdx_cons, List.filterMap_cons, recordsFrom]
  cases line.item.record? number <;> rfl

/-- Only a row stands on a line with a record, and a row is not empty. -/
theorem Item.record?_of_chars_eq_nil {item : Item} (h : item.chars = []) (number : Nat) :
    item.record? number = none := by
  cases item with
  | row e form => cases form <;> simp [chars, Form.chars, Entry.chars] at h
  | blank => rfl
  | comment => rfl

/-- The last line of a document reads as itself, with its line feed or without. -/
theorem readLines_last (closed : Bool) (line : WrittenLine) (number : Nat) :
    readLines false number (Text.lines (line.chars ++ if closed then ['\n'] else [])) =
      .ok (line.item.record? number).toList := by
  have hread (chars : List Char) (hchars : trim chars = trim line.item.chars) :
      readLines false number [chars] = .ok (line.item.record? number).toList := by
    rw [readLines_cons_item line.item number hchars]
    exact congrArg Except.ok (List.append_nil _)
  cases closed with
  | true =>
    rw [if_pos rfl, Text.lines_append_cons line.not_mem_chars]
    exact hread _ line.trim_withoutReturn
  | false =>
    rw [if_neg Bool.false_ne_true, List.append_nil]
    by_cases hnil : line.chars = []
    · -- without its line feed an empty line is no line, but then it is no row either
      have hchars : line.item.chars = [] := (List.append_eq_nil_iff.mp hnil).1
      rw [hnil, Item.record?_of_chars_eq_nil hchars]
      rfl
    · rw [Text.lines_of_not_mem hnil line.not_mem_chars]
      exact hread _ line.trim_chars

theorem readLines_document (closed : Bool) (lines : List WrittenLine) (number : Nat) :
    readLines false number (Text.lines (document closed lines)) =
      .ok (recordsFrom number lines) := by
  fun_induction document closed lines generalizing number with
  | case1 => rfl
  | case2 line =>
    rw [readLines_last, recordsFrom_cons]
    exact congrArg Except.ok (List.append_nil _).symm
  | case3 line next rest ih =>
    rw [Text.lines_append_cons line.not_mem_chars,
      readLines_cons_item line.item number line.trim_withoutReturn, ih, recordsFrom_cons number]
    rfl

/-- **Writing a table and reading it back.** There is one record for each row, in their order, with
    its numbers, the number of its line, and its label without the blanks around it and without one
    pair of quotes after that. -/
theorem readRecords_document (closed : Bool) (lines : List WrittenLine) :
    readRecords false (.ok (String.ofList (document closed lines)).toUTF8.toList) =
      .ok (recordsFrom 1 lines) := by
  rw [readRecords_toUTF8, read, String.toList_ofList, readLines_document closed lines 1]
  rfl

example :
    (readRecords false (.ok "# no row\n('it''s, \"1\"', 1,2 ,3,4,5),\n".toUTF8.toList)).map
      (·.map fun r => (r.label, r.line)) = .ok [("it's, \"1\"", 2)] := by
  decide +kernel

end LatencyPlot.Table
