/-
  LatencyPlot.Proofs.Markup.Elements

  What the tags of a document amount to: whether they nest, which classes they
  have, and which elements of a name hold a text alone. All of it is told by
  the tokens that the document was written from, line by line.
-/
import LatencyPlot.Proofs.Markup.Reading

namespace LatencyPlot.Markup

variable {α : Type}

/-! ## Tags -/

/-- The value of the attribute that tells the class of an element. -/
def classOf (attributes : List Attribute) : Option String :=
  (attributes.find? (·.name == "class")).map (·.value)

namespace Token

/-- The name of a tag. -/
def name? : Token → Option String
  | .opening name _ | .closing name | .empty name _ => some name
  | _ => none

/-- The class of an element, at the tag that begins it. -/
def class? : Token → Option String
  | .opening _ attributes | .empty _ attributes => classOf attributes
  | _ => none

end Token

/-- How many tags begin an element of a class. -/
def countClass (c : String) (tags : List Token) : Nat := tags.countP (·.class? == some c)

/-- Every tag that begins an element is followed by the one that ends it, and between them the tags
    nest as well. -/
inductive Nested : List Token → Prop
  | nil : Nested []
  | empty (name : String) (attributes : List Attribute) {rest : List Token} :
      Nested rest → Nested (.empty name attributes :: rest)
  | element (name : String) (attributes : List Attribute) {inner rest : List Token} :
      Nested inner → Nested rest →
      Nested (.opening name attributes :: (inner ++ .closing name :: rest))

/-- Tags that nest still do with others that nest behind them. -/
theorem Nested.append {xs ys : List Token} (hx : Nested xs) (hy : Nested ys) :
    Nested (xs ++ ys) := by
  induction hx with
  | nil => exact hy
  | empty name attributes _ ih => exact .empty name attributes ih
  | element name attributes hinner _ _ ih =>
    rw [List.cons_append, List.append_assoc, List.cons_append]
    exact .element name attributes hinner ih

theorem Nested.flatten {parts : List (List Token)} (h : ∀ part ∈ parts, Nested part) :
    Nested parts.flatten := by
  induction parts with
  | nil => exact .nil
  | cons part rest ih =>
    rw [List.flatten_cons]
    exact (h part List.mem_cons_self).append
      (ih fun other hmem => h other (List.mem_cons_of_mem part hmem))

/-! ## Elements -/

/-- The class of an element, and what is written in it if that holds no tag. -/
structure Element where
  class? : Option String
  written? : Option (List Char)
  deriving DecidableEq, Repr

namespace Element

/-- The text of an element. -/
def text? (e : Element) : Option (List Char) := e.written?.map unescape

/-- An element that holds a text. -/
def holding (c : Option String) (text : String) : Element := ⟨c, some (escape text.toList)⟩

/-- The text of an element is the one that was meant, whatever it holds. -/
theorem text?_holding (c : Option String) (text : String) :
    (holding c text).text? = some text.toList :=
  congrArg some (unescape_escape text.toList)

end Element

/-- The elements of a name, in the order of their beginnings. -/
def elements (name : String) : List (Chunk Token) → List Element
  | [] => []
  | ⟨.opening other attributes, text⟩ :: rest =>
    if other = name then
      let endsHere := (rest.head?.map Chunk.tag) = some (.closing name)
      ⟨classOf attributes, if endsHere then some text else none⟩ :: elements name rest
    else elements name rest
  | _ :: rest => elements name rest

/-! ## Tables -/

/-- The class of a row, and its cells. -/
structure Row where
  class? : Option String
  cells : List Element
  deriving DecidableEq, Repr

/-- The rows of a table; a heading has no cells. -/
def rows : List (Chunk Token) → List Row
  | [] => []
  | ⟨.opening name attributes, _⟩ :: rest =>
    if name = "tr" then
      ⟨classOf attributes, elements "td" (rest.takeWhile (·.tag != .closing "tr"))⟩ :: rows rest
    else rows rest
  | _ :: rest => rows rest

/-! ## Written tokens -/

/-- The tags among some tokens. -/
def tagsOf (tokens : List Token) : List Token := tokens.filter Token.isTag

/-- The elements of a name that some tokens are written for. -/
def elementsOf (name : String) (tokens : List Token) : List Element :=
  elements name (outline tokens).chunks

/-- A tag begins a chunk of its own. -/
theorem outline_cons_of_tag {t : Token} (h : t.isTag = true) (rest : List Token) :
    outline (t :: rest) = (outline rest).tagged t := if_pos h

/-- The tags that are read are the ones that were written. -/
theorem tags_outline (tokens : List Token) : (outline tokens).tags = tagsOf tokens := by
  induction tokens with
  | nil => rfl
  | cons t rest ih =>
    rw [outline, tagsOf, List.filter_cons]
    cases t.isTag with
    | true => exact congrArg (t :: ·) ih
    | false => exact ih

theorem tagsOf_append (xs ys : List Token) : tagsOf (xs ++ ys) = tagsOf xs ++ tagsOf ys :=
  List.filter_append xs ys

theorem tagsOf_flatten (parts : List (List Token)) :
    tagsOf parts.flatten = (parts.map tagsOf).flatten :=
  List.filter_flatten

/-- The end of a line is no tag. -/
theorem tagsOf_line (tokens : List Token) : tagsOf (line tokens) = tagsOf tokens := by
  rw [line, tagsOf_append, show tagsOf [lineEnd] = [] from rfl, List.append_nil]

theorem tagsOf_textLine (name : String) (attributes : List Attribute) (content : String) :
    tagsOf (textLine name attributes content) = [.opening name attributes, .closing name] := by
  rw [textLine, tagsOf_line]
  rfl

theorem tagsOf_emptyLine (name : String) (attributes : List Attribute) :
    tagsOf (emptyLine name attributes) = [.empty name attributes] := by
  rw [emptyLine, tagsOf_line]
  rfl

/-- A text in front of a tag is in no element that begins there or later. -/
theorem elementsOf_cons_of_not_tag {t : Token} (h : t.isTag = false) (name : String)
    (rest : List Token) : elementsOf name (t :: rest) = elementsOf name rest := by
  rw [elementsOf, outline, if_neg (by rw [h]; decide)]
  rfl

/-- Tags of other names are passed over. -/
theorem elementsOf_cons_of_ne {t : Token} {name : String} (h : t.name? ≠ some name)
    (rest : List Token) : elementsOf name (t :: rest) = elementsOf name rest := by
  cases htag : t.isTag with
  | false => exact elementsOf_cons_of_not_tag htag name rest
  | true =>
    rw [elementsOf, outline_cons_of_tag htag, Layout.tagged]
    cases t with
    | opening other attributes =>
      rw [elements, if_neg (fun heq => h (congrArg some heq))]
      rfl
    | closing | empty | text | verbatim => rfl

theorem elementsOf_append_of_ne {tokens : List Token} {name : String}
    (h : ∀ t ∈ tokens, t.name? ≠ some name) (rest : List Token) :
    elementsOf name (tokens ++ rest) = elementsOf name rest := by
  induction tokens with
  | nil => rfl
  | cons t tokens ih =>
    obtain ⟨ht, htokens⟩ := List.forall_mem_cons.mp h
    rw [List.cons_append, elementsOf_cons_of_ne ht, ih htokens]

/-- Lines without the name are passed over. -/
theorem elementsOf_line_append {tokens : List Token} {name : String}
    (h : ∀ t ∈ tokens, t.name? ≠ some name) (rest : List Token) :
    elementsOf name (line tokens ++ rest) = elementsOf name rest := by
  rw [line, List.append_assoc, elementsOf_append_of_ne h]
  exact elementsOf_cons_of_not_tag rfl name rest

/-- Without tags, all that is written stands before the next tag. -/
theorem outline_append_of_not_tag {inner : List Token} (h : ∀ t ∈ inner, t.isTag = false)
    (rest : List Token) :
    outline (inner ++ rest) = (outline rest).before (inner.flatMap Token.chars) := by
  induction inner with
  | nil => rfl
  | cons t inner ih =>
    obtain ⟨ht, hinner⟩ := List.forall_mem_cons.mp h
    rw [List.cons_append, outline, ht, ih hinner, List.flatMap_cons]
    simp [Layout.before]

/-- An element that holds no tag holds what is written in it. -/
theorem elementsOf_element_append {inner : List Token} (h : ∀ t ∈ inner, t.isTag = false)
    (name : String) (attributes : List Attribute) (rest : List Token) :
    elementsOf name (.opening name attributes :: (inner ++ .closing name :: rest)) =
      ⟨classOf attributes, some (inner.flatMap Token.chars)⟩ :: elementsOf name rest := by
  have hrest : elementsOf name (.closing name :: rest) = elementsOf name rest := rfl
  rw [← hrest, elementsOf, outline_cons_of_tag rfl, outline_append_of_not_tag h]
  simp [elementsOf, outline, Token.isTag, Layout.tagged, Layout.before, elements]

/-- A line with a text is one element that holds it. -/
theorem elementsOf_textLine_append (name : String) (attributes : List Attribute) (content : String)
    (rest : List Token) :
    elementsOf name (textLine name attributes content ++ rest) =
      .holding (classOf attributes) content :: elementsOf name rest := by
  have hend : elementsOf name (lineEnd :: rest) = elementsOf name rest :=
    elementsOf_cons_of_not_tag rfl name rest
  have htext : ∀ t ∈ [Token.text content], t.isTag = false := by simp [Token.isTag]
  have helement := elementsOf_element_append htext name attributes (lineEnd :: rest)
  rw [hend] at helement
  simpa [textLine, line, Token.chars, Element.holding] using helement

/-- A line with a text is an element of its name, and of no other one. -/
theorem elementsOf_textLine_append_ite (name other : String) (attributes : List Attribute)
    (content : String) (rest : List Token) :
    elementsOf name (textLine other attributes content ++ rest) =
      (if other = name then [.holding (classOf attributes) content] else []) ++
        elementsOf name rest := by
  split
  · next heq =>
    subst heq
    exact elementsOf_textLine_append other attributes content rest
  · next hne =>
    refine elementsOf_line_append ?_ rest
    intro t ht
    simp only [List.mem_cons, List.not_mem_nil, or_false] at ht
    rcases ht with rfl | rfl | rfl <;> simp [Token.name?, hne]

theorem elementsOf_emptyLine_append {name other : String} (h : other ≠ name)
    (attributes : List Attribute) (rest : List Token) :
    elementsOf name (emptyLine other attributes ++ rest) = elementsOf name rest := by
  refine elementsOf_line_append ?_ rest
  intro t ht
  rw [List.mem_singleton] at ht
  subst ht
  exact fun heq => h (Option.some.inj heq)

/-! ## Lines -/

theorem nested_textLine (name : String) (attributes : List Attribute) (content : String) :
    Nested (tagsOf (textLine name attributes content)) := by
  rw [tagsOf_textLine]
  exact .element name attributes .nil .nil

theorem nested_emptyLine (name : String) (attributes : List Attribute) :
    Nested (tagsOf (emptyLine name attributes)) := by
  rw [tagsOf_emptyLine]
  exact .empty name attributes .nil

theorem countClass_append (c : String) (xs ys : List Token) :
    countClass c (xs ++ ys) = countClass c xs + countClass c ys :=
  List.countP_append

/-- Parts with as many of a class each have as many of it as there are parts, times that. -/
theorem countClass_flatten {c : String} {k : Nat} {parts : List (List Token)}
    (h : ∀ part ∈ parts, countClass c part = k) :
    countClass c parts.flatten = parts.length * k := by
  induction parts with
  | nil => simp [countClass]
  | cons part rest ih =>
    obtain ⟨hpart, hrest⟩ := List.forall_mem_cons.mp h
    rw [List.flatten_cons, countClass_append, hpart, ih hrest, List.length_cons, Nat.succ_mul,
      Nat.add_comm]

/-- A class is counted among the classes of the tags. -/
theorem countClass_eq_count (c : String) (tags : List Token) :
    countClass c tags = (tags.map Token.class?).count (some c) := by
  rw [List.count, List.countP_map]
  rfl

/-! ## Rows -/

/-- The rows that some tokens are written for. -/
def rowsOf (tokens : List Token) : List Row := rows (outline tokens).chunks

theorem rowsOf_cons_of_ne {t : Token} (h : t.name? ≠ some "tr") (rest : List Token) :
    rowsOf (t :: rest) = rowsOf rest := by
  cases htag : t.isTag with
  | false =>
    rw [rowsOf, outline, htag]
    rfl
  | true =>
    rw [rowsOf, outline_cons_of_tag htag, Layout.tagged]
    cases t with
    | opening name attributes =>
      rw [rows, if_neg (fun heq => h (congrArg some heq))]
      rfl
    | closing | empty | text | verbatim => rfl

/-- What begins and ends no row is passed over. -/
theorem rowsOf_append_of_ne {tokens : List Token} (h : ∀ t ∈ tokens, t.name? ≠ some "tr")
    (rest : List Token) : rowsOf (tokens ++ rest) = rowsOf rest := by
  induction tokens with
  | nil => rfl
  | cons t tokens ih =>
    obtain ⟨ht, htokens⟩ := List.forall_mem_cons.mp h
    rw [List.cons_append, rowsOf_cons_of_ne ht, ih htokens]

/-- Where nothing stands before the first tag the chunks go on as they are. -/
theorem outline_append_of_lead {ys : List Token} (h : (outline ys).lead = []) (xs : List Token) :
    outline (xs ++ ys) = ⟨(outline xs).lead, (outline xs).chunks ++ (outline ys).chunks⟩ := by
  induction xs with
  | nil =>
    rw [List.nil_append, outline, ← h]
    rfl
  | cons t xs ih =>
    rw [List.cons_append, outline, outline, ih]
    cases t.isTag <;> rfl

/-- No tag is read that was not written. -/
theorem tag_mem_of_mem_outline {tokens : List Token} {c : Chunk Token}
    (h : c ∈ (outline tokens).chunks) : c.tag ∈ tokens := by
  have hmem : c.tag ∈ (outline tokens).tags := List.mem_map_of_mem h
  rw [tags_outline] at hmem
  exact List.mem_of_mem_filter hmem

/-- A row is read with the cells between its tags, whatever follows it. -/
theorem rowsOf_row_append {inner : List Token} (h : ∀ t ∈ inner, t.name? ≠ some "tr")
    (attributes : List Attribute) (rest : List Token) :
    rowsOf (.opening "tr" attributes :: (inner ++ .closing "tr" :: rest)) =
      ⟨classOf attributes, elementsOf "td" inner⟩ :: rowsOf rest := by
  have hrest : rowsOf (inner ++ .closing "tr" :: rest) = rowsOf rest := by
    rw [rowsOf_append_of_ne h]
    rfl
  have hend : (outline (.closing "tr" :: rest)).lead = [] := rfl
  have hne : ∀ c ∈ (outline inner).chunks, (c.tag != Token.closing "tr") = true := by
    intro c hc
    rw [bne_iff_ne]
    intro heq
    exact h c.tag (tag_mem_of_mem_outline hc) (by rw [heq]; rfl)
  have htake : (outline (inner ++ .closing "tr" :: rest)).chunks.takeWhile
      (·.tag != .closing "tr") = (outline inner).chunks := by
    rw [outline_append_of_lead hend, List.takeWhile_append_of_pos hne]
    simp [outline, Token.isTag, Layout.tagged]
  rw [rowsOf, outline_cons_of_tag rfl, Layout.tagged, rows, if_pos rfl, htake, ← hrest]
  rfl

/-- A row on a line of its own holds the cells between its tags. -/
theorem rowsOf_rowLine_append {inner : List Token} (h : ∀ t ∈ inner, t.name? ≠ some "tr")
    (attributes : List Attribute) (rest : List Token) :
    rowsOf (line (.opening "tr" attributes :: (inner ++ [.closing "tr"])) ++ rest) =
      ⟨classOf attributes, elementsOf "td" inner⟩ :: rowsOf rest := by
  have hend : rowsOf (lineEnd :: rest) = rowsOf rest :=
    rowsOf_cons_of_ne (by simp [lineEnd, Token.name?]) rest
  have hrow := rowsOf_row_append h attributes (lineEnd :: rest)
  rw [hend] at hrow
  simpa [line] using hrow

end LatencyPlot.Markup
