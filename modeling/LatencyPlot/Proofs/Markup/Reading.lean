/-
  LatencyPlot.Proofs.Markup.Reading

  Reading a written document gives back its tags, with the text behind each of
  them (`read_render`). All that the tokens have to observe is that names are
  names and that what is written as it is holds no tag; titles, labels and the
  values of attributes may be any text.
-/
import LatencyPlot.Proofs.Markup.Reader
import Mathlib.Data.List.Basic

namespace LatencyPlot.Markup

/-! ## References -/

theorem unescape_cons_of_ne {c : Char} (h : c ≠ '&') (cs : List Char) :
    unescape (c :: cs) = c :: unescape cs := by
  rw [unescape] <;> simp_all

theorem unescape_escapeChar_append (c : Char) (cs : List Char) :
    unescape (escapeChar c ++ cs) = c :: unescape cs := by
  by_cases hc : c ∈ marks
  · simp only [marks, List.mem_cons, List.not_mem_nil, or_false] at hc
    rcases hc with rfl | rfl | rfl | rfl | rfl <;> rfl
  · rw [escapeChar_of_not_mem_marks hc, List.singleton_append]
    exact unescape_cons_of_ne (fun heq => hc (by rw [heq]; decide)) cs

/-- A written text stands for itself. -/
theorem unescape_escape (s : List Char) : unescape (escape s) = s := by
  induction s with
  | nil => rfl
  | cons c cs ih => rw [escape_cons, unescape_escapeChar_append, ih]

/-! ## Tags and texts -/

theorem scan_append {text : List Char} (h : '<' ∉ text) (cs : List Char) :
    scan (text ++ cs) = (scan cs).map (.before text) := by
  induction text with
  | nil =>
    cases hscan : scan cs <;> simp [hscan, Layout.before]
  | cons c text ih =>
    rw [List.mem_cons, not_or] at h
    rw [List.cons_append, scan, if_neg (Ne.symm h.1), ih h.2]
    cases scan cs <;> simp [Layout.before]

theorem scanTag_append {inner : List Char} (h : '>' ∉ inner) (read cs : List Char) :
    scanTag read (inner ++ '>' :: cs) = (scan cs).map (.tagged (read ++ inner)) := by
  induction inner generalizing read with
  | nil => rw [List.nil_append, scanTag, if_pos rfl, List.append_nil]
  | cons c inner ih =>
    rw [List.mem_cons, not_or] at h
    rw [List.cons_append, scanTag, if_neg (Ne.symm h.1), ih h.2, List.append_assoc,
      List.singleton_append]

theorem scan_tag {inner : List Char} (h : '>' ∉ inner) (cs : List Char) :
    scan ('<' :: (inner ++ '>' :: cs)) = (scan cs).map (.tagged inner) := by
  rw [scan, if_pos rfl, scanTag_append h]
  rfl

theorem read_append {text : List Char} (h : '<' ∉ text) (cs : List Char) :
    read (text ++ cs) = (read cs).map (.before text) := by
  rw [read, scan_append h, read]
  cases scan cs with
  | none => rfl
  | some raw =>
    simp only [Option.map_some, Option.bind_eq_bind, Option.bind_some, Layout.before]
    cases raw.chunks.mapM fun chunk =>
      (readTag chunk.tag).map (⟨·, chunk.text⟩ : Token → Chunk Token) <;> rfl

theorem read_tag {inner : List Char} {tag : Token} (h : '>' ∉ inner)
    (htag : readTag inner = some tag) (cs : List Char) :
    read ('<' :: (inner ++ '>' :: cs)) = (read cs).map (.tagged tag) := by
  rw [read, scan_tag h, read]
  cases scan cs with
  | none => rfl
  | some raw =>
    simp only [Option.map_some, Option.bind_eq_bind, Option.bind_some, Layout.tagged,
      List.mapM_cons, htag]
    cases raw.chunks.mapM fun chunk =>
      (readTag chunk.tag).map (⟨·, chunk.text⟩ : Token → Chunk Token) <;> rfl

/-! ## Inside a tag -/

/-- A name that ends where it should. -/
def IsNameText (s : String) : Prop := s ≠ "" ∧ ∀ c ∈ s.toList, isNameChar c = true

-- the characters of the text are tried, not all characters
instance : DecidablePred IsNameText := fun s =>
  decidable_of_iff (s ≠ "" ∧ s.toList.all isNameChar = true) (and_congr_right' List.all_eq_true)

theorem IsNameText.not_mem {s : String} (h : IsNameText s) {c : Char}
    (hc : isNameChar c = false) : c ∉ s.toList := by
  intro hmem
  rw [h.2 c hmem] at hc
  cases hc

theorem IsNameText.takeWhile_append {s : String} (h : IsNameText s) {c : Char}
    (hc : isNameChar c = false) (cs : List Char) :
    (s.toList ++ c :: cs).takeWhile isNameChar = s.toList ∧
    (s.toList ++ c :: cs).dropWhile isNameChar = c :: cs := by
  rw [List.takeWhile_append_of_pos h.2, List.dropWhile_append_of_pos h.2]
  simp [hc]

/-- The text between the brackets of a tag behind its name. -/
def attributesText (attributes : List Attribute) (last : List Char) : List Char :=
  attributes.flatMap Attribute.chars ++ last

theorem readAttributes_attributesText {attributes : List Attribute} {last : List Char}
    (h : ∀ a ∈ attributes, IsNameText a.name) (hlast : last = [] ∨ last = ['/']) :
    readAttributes ((attributesText attributes last).splitOn '"') =
      some (attributes, decide (last = ['/'])) := by
  induction attributes with
  | nil => rcases hlast with rfl | rfl <;> rfl
  | cons a rest ih =>
    obtain ⟨ha, hrest⟩ := List.forall_mem_cons.mp h
    have hkey : '"' ∉ ' ' :: (a.name.toList ++ ['=']) := by
      have hname := ha.not_mem (show isNameChar '"' = false by decide)
      simp [hname]
    have hvalue : '"' ∉ escape a.value.toList := not_mem_escape (by decide) _
    have htext : attributesText (a :: rest) last =
        (' ' :: (a.name.toList ++ ['='])) ++ '"' :: (escape a.value.toList ++ '"' ::
          attributesText rest last) := by
      simp [attributesText, Attribute.chars]
    -- the quotes of the first attribute part its name, its value and the rest
    obtain ⟨htake, hdrop⟩ := ha.takeWhile_append (show isNameChar '=' = false by decide) []
    rw [htext, List.splitOn_append_cons_self, List.splitOn_append_cons_self,
      List.splitOn_eq_singleton hkey, List.splitOn_eq_singleton hvalue]
    simp only [List.singleton_append, readAttributes, htake, hdrop, ih hrest]
    simp [unescape_escape, ha.1]

theorem takeWhile_name_attributesText {name : String} (hname : IsNameText name)
    (attributes : List Attribute) {last : List Char} (hlast : last = [] ∨ last = ['/']) :
    (name.toList ++ attributesText attributes last).takeWhile isNameChar = name.toList ∧
    (name.toList ++ attributesText attributes last).dropWhile isNameChar =
      attributesText attributes last := by
  rw [List.takeWhile_append_of_pos hname.2, List.dropWhile_append_of_pos hname.2]
  -- a blank or a slash comes behind the name, if anything does
  cases attributes with
  | nil => rcases hlast with rfl | rfl <;> simp [attributesText, isNameChar]
  | cons a rest => simp [attributesText, Attribute.chars, isNameChar]

theorem IsNameText.exists_cons {s : String} (h : IsNameText s) :
    ∃ c cs, s.toList = c :: cs ∧ isNameChar c = true := by
  cases hlist : s.toList with
  | nil => exact absurd (String.toList_eq_nil_iff.mp hlist) h.1
  | cons c cs => exact ⟨c, cs, rfl, h.2 c (by simp [hlist])⟩

theorem readTag_named {name : String} {attributes : List Attribute} {last : List Char}
    (hname : IsNameText name) (h : ∀ a ∈ attributes, IsNameText a.name)
    (hlast : last = [] ∨ last = ['/']) :
    readTag (name.toList ++ attributesText attributes last) =
      some (if last = ['/'] then .empty name attributes else .opening name attributes) := by
  obtain ⟨htake, hdrop⟩ := takeWhile_name_attributesText hname attributes hlast
  have hattributes := readAttributes_attributesText h hlast
  obtain ⟨c, cs, hcons, hc⟩ := hname.exists_cons
  unfold readTag
  -- a name begins neither like a declaration nor like the end of an element
  split
  · next heq =>
    rw [hcons] at heq
    cases heq
    cases hc
  · next heq =>
    rw [hcons] at heq
    cases heq
    cases hc
  · simp only [htake, hdrop, hattributes]
    rcases hlast with rfl | rfl <;> simp [hname.1]

theorem readTag_closing {name : String} (hname : IsNameText name) :
    readTag ('/' :: name.toList) = some (.closing name) := by
  have hall : name.toList.all isNameChar = true := List.all_eq_true.mpr hname.2
  simp [readTag, hall, hname.1]

/-! ## Tokens -/

/-- Whether a text is one tag that declares something. -/
def isDeclaration : List Char → Bool
  | '<' :: '!' :: cs => cs.getLast? == some '>' && !cs.dropLast.contains '>'
  | _ => false

/-- Whether a token can be told from what is beside it. -/
def Token.isSound : Token → Bool
  | .opening name attributes | .empty name attributes =>
    decide (IsNameText name) && attributes.all fun a => decide (IsNameText a.name)
  | .closing name => decide (IsNameText name)
  | .text _ => true
  | .verbatim content => !content.toList.contains '<' || isDeclaration content.toList

theorem exists_inner_of_isDeclaration {cs : List Char} (h : isDeclaration cs = true) :
    ∃ inner, cs = '<' :: '!' :: (inner ++ ['>']) ∧ '>' ∉ inner := by
  unfold isDeclaration at h
  split at h
  · next cs =>
    rw [Bool.and_eq_true, beq_iff_eq, List.getLast?_eq_some_iff] at h
    obtain ⟨⟨inner, rfl⟩, hinner⟩ := h
    exact ⟨inner, rfl, by simpa using hinner⟩
  · cases h

theorem isNameText_of_isSound {name : String} {attributes : List Attribute}
    (h : (decide (IsNameText name) && attributes.all fun a => decide (IsNameText a.name)) = true) :
    IsNameText name ∧ ∀ a ∈ attributes, IsNameText a.name := by
  rw [Bool.and_eq_true, List.all_eq_true] at h
  exact ⟨of_decide_eq_true h.1, fun a ha => of_decide_eq_true (h.2 a ha)⟩

/-- Whether a token is a tag. -/
def Token.isTag : Token → Bool
  | .opening _ _ | .closing _ | .empty _ _ => true
  | .text _ => false
  | .verbatim content => content.toList.head? == some '<'

/-- How a document is laid out by its tokens. -/
def outline : List Token → Layout Token
  | [] => ⟨[], []⟩
  | t :: rest => if t.isTag then (outline rest).tagged t else (outline rest).before t.chars

theorem Attribute.not_mem_chars {a : Attribute} (h : IsNameText a.name) : '>' ∉ a.chars := by
  have hname := h.not_mem (show isNameChar '>' = false by decide)
  have hvalue : '>' ∉ escape a.value.toList := not_mem_escape (by decide) _
  simp [Attribute.chars, hname, hvalue]

theorem not_mem_named {name : String} {attributes : List Attribute} {last : List Char}
    (hname : IsNameText name) (h : ∀ a ∈ attributes, IsNameText a.name) (hlast : '>' ∉ last) :
    '>' ∉ name.toList ++ attributesText attributes last := by
  have hchars : '>' ∉ attributes.flatMap Attribute.chars := by
    rw [List.mem_flatMap]
    rintro ⟨a, ha, hmem⟩
    exact Attribute.not_mem_chars (h a ha) hmem
  simp [attributesText, hname.not_mem, hchars, hlast, isNameChar]

/-- A tag is read as what it is. -/
theorem Token.exists_inner {t : Token} (h : t.isSound = true) (htag : t.isTag = true) :
    ∃ inner, t.chars = '<' :: (inner ++ ['>']) ∧ '>' ∉ inner ∧ readTag inner = some t := by
  cases t with
  | opening name attributes =>
    obtain ⟨hname, hattributes⟩ := isNameText_of_isSound h
    refine ⟨name.toList ++ attributesText attributes [], ?_,
      not_mem_named hname hattributes (by decide), ?_⟩
    · simp [chars, attributesText]
    · rw [readTag_named hname hattributes (.inl rfl)]
      rfl
  | closing name =>
    have hname : IsNameText name := of_decide_eq_true h
    refine ⟨'/' :: name.toList, by simp [chars], ?_, readTag_closing hname⟩
    have hmem := hname.not_mem (show isNameChar '>' = false by decide)
    simp [hmem]
  | empty name attributes =>
    obtain ⟨hname, hattributes⟩ := isNameText_of_isSound h
    refine ⟨name.toList ++ attributesText attributes ['/'], ?_,
      not_mem_named hname hattributes (by decide), ?_⟩
    · simp [chars, attributesText]
    · rw [readTag_named hname hattributes (.inr rfl), if_pos rfl]
  | text content => cases htag
  | verbatim content =>
    -- what is written as it is and begins with a bracket is a declaration
    have hmem : '<' ∈ content.toList := List.mem_of_head? (beq_iff_eq.mp htag)
    rw [isSound, Bool.or_eq_true] at h
    rcases h with hno | hdeclaration
    · simp [hmem] at hno
    · obtain ⟨inner, hinner, hend⟩ := exists_inner_of_isDeclaration hdeclaration
      refine ⟨'!' :: inner, ?_, by simp [hend], ?_⟩
      · simp [chars, hinner]
      · rw [readTag, ← hinner, String.ofList_toList]

theorem Token.not_mem_chars {t : Token} (h : t.isSound = true) (htag : t.isTag = false) :
    '<' ∉ t.chars := by
  cases t with
  | opening | closing | empty => cases htag
  | text content => exact not_mem_escape (by decide) _
  | verbatim content =>
    rw [isSound, Bool.or_eq_true] at h
    rcases h with hno | hdeclaration
    · simpa [chars] using hno
    · obtain ⟨inner, hinner, -⟩ := exists_inner_of_isDeclaration hdeclaration
      simp [isTag, hinner] at htag

/-- **A written document is read as it is meant.** Its tags are those of its tokens, with their
    attributes, whatever the texts and the values between them hold. -/
theorem read_render {tokens : List Token} (h : tokens.all Token.isSound = true) :
    read (render tokens).toList = some (outline tokens) := by
  rw [render, String.toList_ofList]
  induction tokens with
  | nil => rfl
  | cons t rest ih =>
    rw [List.all_cons, Bool.and_eq_true] at h
    obtain ⟨ht, hrest⟩ := h
    rw [List.flatMap_cons, outline]
    cases htag : t.isTag with
    | true =>
      obtain ⟨inner, hchars, hinner, hread⟩ := Token.exists_inner ht htag
      rw [hchars, List.cons_append, List.append_assoc, List.singleton_append,
        read_tag hinner hread, ih hrest]
      rfl
    | false =>
      rw [read_append (Token.not_mem_chars ht htag), ih hrest]
      rfl

example : read "a<p x=\"1 &gt; &amp;lt;\">b</p><br/>".toList =
    some ⟨['a'], [⟨.opening "p" [⟨"x", "1 > &lt;"⟩], ['b']⟩, ⟨.closing "p", []⟩,
      ⟨.empty "br" [], []⟩]⟩ := by
  decide +kernel

end LatencyPlot.Markup
