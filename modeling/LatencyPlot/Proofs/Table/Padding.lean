/-
  LatencyPlot.Proofs.Table.Padding

  Blanks in a row. Two rows with the same bodies give the same record iff these
  are read alike at the places they have in the two, so blanks matter exactly
  where they change that: they move a quote off the start of its field, and the
  text between the quotes has a comma, quotes, or blanks at its ends, or they move
  a byte order mark off the start of the row.

  A text that is no tuple also reads as it does between parentheses, whatever its
  fields are, if nothing comes between its first character and the start of the
  row, or if that character is neither a quote nor a byte order mark.
-/
import LatencyPlot.Proofs.Table.Layout

namespace LatencyPlot.Table

open Text (isBlank trim trimStart trimEnd)

/-! ## Two rows with the same bodies -/

/-- Only blanks and what stands around the fields tell rows with the same bodies apart. -/
theorem solid_joined_congr {cells cells' : List Cell}
    (h : cells.map Cell.body = cells'.map Cell.body) :
    solid (joined cells) = solid (joined cells') := by
  have hcell (c : Cell) : solid c.chars = solid c.body.chars := by
    rw [Cell.chars, solid_append, solid_append, solid_eq_nil_iff.mpr c.before_padding.isBlank,
      solid_eq_nil_iff.mpr c.after_padding.isBlank, List.nil_append, List.append_nil]
  induction cells generalizing cells' with
  | nil => rw [List.map_eq_nil_iff.mp h.symm]
  | cons c cells ih =>
    cases cells' with
    | nil => cases h
    | cons c' cells' =>
      obtain ⟨hbody, hrest⟩ := List.cons.inj h
      have htail : solid (tailChars (moreChars cells)) = solid (tailChars (moreChars cells')) := by
        cases cells with
        | nil => rw [List.map_eq_nil_iff.mp hrest.symm]
        | cons d ds =>
          cases cells' with
          | nil => cases hrest
          | cons d' ds' =>
            have hcomma : isBlank ',' = false := by decide
            rw [moreChars, moreChars, tailChars, tailChars, solid_cons_of_not_blank hcomma,
              solid_cons_of_not_blank hcomma, ih hrest]
      rw [joined_cons, joined_cons, solid_append, solid_append, hcell, hcell, hbody, htail]

/-- Blanks make no tuple of a row. -/
theorem Layout.IsProper.congr {w w' : Layout} (h : w.IsProper) (hbodies : w.bodies = w'.bodies)
    (hform : w'.enclosure = .plain → w.enclosure = .plain) : w'.IsProper := by
  intro hplain
  have hnot := h (hform hplain)
  rw [exists_isTuple_iff] at hnot ⊢
  rwa [← solid_joined_congr hbodies]

theorem doubled_of_not_mem {text : List Char} (h : '\'' ∉ text) : doubled text = text := by
  induction text with
  | nil => rfl
  | cons c text ih =>
    have hc : c ≠ '\'' := fun heq => h (heq ▸ List.mem_cons_self)
    have htext := ih fun hmem => h (List.mem_cons_of_mem c hmem)
    rw [doubled] at htext ⊢
    rw [List.flatMap_cons, if_neg hc, htext]
    rfl

/-- A number between quotes has no quotes in it to double, nor blanks to trim. -/
theorem doubled_eq_unquote {text : List Char} {x : Float}
    (h : Number.readFinite? (doubled text) = some x) : doubled text = unquote text := by
  let n : Numeral := ⟨[], doubled text, [], x, by simp, by simp, h⟩
  have hquote : '\'' ∉ text := by
    intro hmem
    have hdoubled : '\'' ∈ doubled text :=
      List.mem_flatMap.mpr ⟨'\'', hmem, by rw [if_pos rfl]; exact List.mem_cons_self⟩
    rw [readFinite?_of_mem_quote hdoubled] at h
    cases h
  have hsame : doubled text = text := doubled_of_not_mem hquote
  have hunquote : unquote (doubled text) = doubled text := n.unquote_text
  rw [hsame] at hunquote ⊢
  exact hunquote.symm

/-- Where a body is read as a number its place does not matter. -/
theorem Body.reading_eq_of_reads (b : Body) {p q : Place} (hp : p ≠ .first) (hq : q ≠ .first)
    {x y : Float} (hx : Number.readFinite? (b.reading p) = some x)
    (hy : Number.readFinite? (b.reading q) = some y) : b.reading p = b.reading q := by
  cases b with
  | bare text trimmed inside quote =>
    cases p <;> cases q <;> first | rfl | exact absurd rfl hp | exact absurd rfl hq
  | quoted text line =>
    cases p with
    | first => exact absurd rfl hp
    | start =>
      cases q with
      | first => exact absurd rfl hq
      | start => rfl
      | inside => exact (doubled_eq_unquote hy).symm
    | inside =>
      cases q with
      | first => exact absurd rfl hq
      | start => exact doubled_eq_unquote hx
      | inside => rfl

theorem Cell.place_ne_first (c : Cell) : c.place ≠ .first := by
  rw [place]
  split <;> decide

/-- A field of a row is read at the place it has behind a comma. -/
theorem Layout.getElem?_readings {w : Layout} {i : Nat} (hi : i < 5) :
    w.readings[i + 1]? = w.others[i]?.map fun c => c.body.reading c.place := by
  rw [readings, List.getElem?_cons_succ, List.getElem?_map, List.getElem?_take_of_lt hi]

/-- Rows with the same bodies that give one record are read alike. -/
theorem Layout.readings_eq_of_told {w w' : Layout} {r : Record Float}
    (hbodies : w.bodies = w'.bodies) (h : Says w.readings r) (h' : Says w'.readings r) :
    w.readings = w'.readings := by
  obtain ⟨-, hothers⟩ := List.cons.inj hbodies
  apply List.ext_getElem?
  intro i
  match i with
  | 0 =>
    have hlabel := h.label_eq.trans h'.label_eq.symm
    rw [readings, readings, List.getElem?_cons_zero, List.getElem?_cons_zero] at hlabel ⊢
    rw [String.ofList_injective (Option.some.inj hlabel)]
  | i + 1 =>
    rcases Nat.lt_or_ge i 5 with hi | hi
    · -- both fields are read as the number that the record has in this column
      obtain ⟨column, hcolumn⟩ := Column.exists_place_eq hi
      have hx := h.value_eq column
      have hy := h'.value_eq column
      rw [hcolumn, getElem?_readings hi] at hx hy
      rw [getElem?_readings hi, getElem?_readings hi]
      obtain ⟨v, hv, hx⟩ := Option.bind_eq_some_iff.mp hx
      obtain ⟨v', hv', hy⟩ := Option.bind_eq_some_iff.mp hy
      obtain ⟨c, hc, rfl⟩ := Option.map_eq_some_iff.mp hv
      obtain ⟨c', hc', rfl⟩ := Option.map_eq_some_iff.mp hv'
      have hbody : c.body = c'.body := by
        have hget := congrArg (·[i]?) hothers
        simp only [List.getElem?_map, hc, hc', Option.map_some, Option.some.injEq] at hget
        exact hget
      rw [hv, hv']
      rw [hbody] at hx ⊢
      rw [c'.body.reading_eq_of_reads c.place_ne_first c'.place_ne_first hx hy]
    · rw [List.getElem?_eq_none (by rw [length_readings]; omega),
        List.getElem?_eq_none (by rw [length_readings]; omega)]

/-- Rows with the same bodies that give one record: if the bodies of one are whole, so are those of
    the other. -/
theorem Layout.IsWhole.of_same_record {w w' : Layout} (hwhole : w.IsWhole) (hproper : w.IsProper)
    (hproper' : w'.IsProper) (hbodies : w.bodies = w'.bodies) {number : Nat} {r : Record Float}
    (h : Line.read number w.chars = .row (.ok r))
    (h' : Line.read number w'.chars = .row (.ok r)) : w'.IsWhole := by
  refine w'.isWhole_of_read hproper' ?_ h'
  by_contra htorn
  obtain ⟨text, line, hbody, hcomma, hlost⟩ := w'.label_of_torn htorn h'
  have hfirst : w.label.body = .quoted text line := (List.cons.inj hbodies).1.trans hbody
  exact hlost (w.mem_label hproper hfirst hwhole.1 hcomma h)

/-- Whether each of the first six bodies of a row keeps its place in another row, or is steady. -/
def Layout.KeepsPlaces (w w' : Layout) : Prop :=
  (w.labelPlace = w'.labelPlace ∨ w.label.body.IsSteady) ∧
    ∀ i < 5, ∀ c c', w.others[i]? = some c → w'.others[i]? = some c' →
      c.place = c'.place ∨ c.body.IsSteady

/-- Blanks that move no quote off the start of its field, or only those of steady bodies, do not
    change what is read. -/
theorem Layout.KeepsPlaces.readings_eq {w w' : Layout} (h : w.KeepsPlaces w')
    (hbodies : w.bodies = w'.bodies) : w.readings = w'.readings := by
  obtain ⟨hlabel, hothers⟩ := h
  obtain ⟨hfirst, hrest⟩ := List.cons.inj hbodies
  have hreading {b : Body} {p q : Place} (h : p = q ∨ b.IsSteady) : b.reading p = b.reading q := by
    rcases h with rfl | h
    · rfl
    · exact h p q
  have hlabels : w.label.body.reading w.labelPlace = w'.label.body.reading w'.labelPlace := by
    rw [hreading hlabel, hfirst]
  rw [readings, readings, hlabels]
  congr 1
  apply List.ext_getElem?
  intro i
  rw [List.getElem?_map, List.getElem?_map, List.getElem?_take, List.getElem?_take]
  by_cases hi : i < 5
  · rw [if_pos hi, if_pos hi]
    have hget := congrArg (·[i]?) hrest
    simp only [List.getElem?_map] at hget
    cases hc : w.others[i]? with
    | none =>
      rw [hc, Option.map_none] at hget
      rw [Option.map_eq_none_iff.mp hget.symm]
    | some c =>
      rw [hc, Option.map_some] at hget
      obtain ⟨c', hc', hbody⟩ := Option.map_eq_some_iff.mp hget.symm
      rw [hc', Option.map_some, Option.map_some, hbody, hreading (hothers i hi c c' hc hc')]
  · rw [if_neg hi, if_neg hi]

/-! ## Texts -/

/-- A text of one line that gives a record. -/
theorem readRecords_singleton_iff {line : List Char} (hne : line ≠ []) (hline : '\n' ∉ line)
    {r : Record Float} :
    readRecords false (.ok (String.ofList line).toUTF8.toList) = .ok [r] ↔
      Line.read 1 line = .row (.ok r) := by
  rw [readRecords_toUTF8, read, String.toList_ofList, Text.lines_of_not_mem hne hline, readLines]
  cases Line.read 1 line with
  | pass => simp [readLines, Except.mapError]
  | row outcome =>
    cases outcome with
    | error e => simp [Except.mapError]
    | ok r' => simp [readLines, Except.mapError, Except.map]

theorem IsPadding.not_mem {ws : List Char} (h : IsPadding ws) : '\n' ∉ ws :=
  fun hmem => absurd (h _ hmem).2 (by decide)

theorem not_mem_joined (cells : List Cell) : '\n' ∉ joined cells := by
  have hbody (b : Body) : '\n' ∉ b.chars := by
    cases b with
    | bare text trimmed inside quote => exact fun hmem => absurd (inside _ hmem).2 (by decide)
    | quoted text line =>
      have htext : '\n' ∉ doubled text := fun hmem => line (mem_of_mem_doubled hmem)
      simp [Body.chars, htext]
  have hcell (c : Cell) : '\n' ∉ c.chars := by
    simp [Cell.chars, hbody, c.before_padding.not_mem, c.after_padding.not_mem]
  fun_induction joined cells with
  | case1 => exact List.not_mem_nil
  | case2 c => exact hcell c
  | case3 c d cells ih => simp [hcell, ih]

/-- A row is one line. -/
theorem Layout.not_mem_chars (w : Layout) : '\n' ∉ w.chars := by
  have hjoined := not_mem_joined w.cells
  rw [chars]
  cases w.enclosure with
  | plain => exact hjoined
  | closed before after hbefore hafter => simp [hjoined, hbefore.not_mem, hafter.not_mem]
  | comma before gap after hbefore hgap hafter =>
    simp [hjoined, hbefore.not_mem, hgap.not_mem, hafter.not_mem]

theorem Layout.chars_ne_nil (w : Layout) : w.chars ≠ [] := by
  rw [chars]
  cases w.enclosure with
  | plain => simp [joined_cells]
  | closed => simp
  | comma => simp

theorem Layout.readRecords_text_iff {w : Layout} (hproper : w.IsProper) (hwhole : w.IsWhole)
    {r : Record Float} :
    readRecords false (.ok w.text.toUTF8.toList) = .ok [r] ↔ r.line = 1 ∧ Says w.readings r := by
  rw [text, readRecords_singleton_iff w.chars_ne_nil w.not_mem_chars,
    w.read_eq_ok_iff hproper hwhole]

/-! ## A row between parentheses -/

/-- Whether nothing comes between the start of a row and its first character, or that is neither a
    quote nor a byte order mark and has its meaning anywhere. -/
def KeepsHead (ws line : List Char) : Prop :=
  (ws ++ line).takeWhile isBlank = [] ∨
    ∀ c, (trimStart line).head? = some c → c ≠ '\'' ∧ c ≠ '\uFEFF'

/-- The blanks that a row begins with, from the first one on that ends no row. -/
def leading (line : List Char) : List Char := (line.takeWhile isBlank).dropWhile isRowEnd

theorem isBlank_of_mem_leading {line : List Char} {c : Char} (h : c ∈ leading line) :
    isBlank c = true :=
  List.mem_takeWhile_imp ((List.dropWhile_sublist isRowEnd).subset h)

/-- What a row with blanks around it begins with. -/
theorem fields_leading {before after line : List Char} (hbefore : ∀ c ∈ before, isBlank c = true)
    (hafter : ∀ c ∈ after, isBlank c = true) (hhead : KeepsHead before line) :
    fields (before ++ line ++ after) =
      fields (leading (before ++ line) ++ (trimStart line ++ after)) := by
  have hdrop := Text.trimStart_append hbefore line
  rw [trimStart] at hdrop
  have hlead : before ++ line = (before ++ line).takeWhile isBlank ++ trimStart line := by
    rw [← hdrop, List.takeWhile_append_dropWhile]
  rw [leading]
  rcases hhead with hnone | hfirst
  · rw [hnone, List.nil_append] at hlead
    rw [hnone, hlead]
    rfl
  · nth_rewrite 1 [hlead]
    rw [List.append_assoc]
    apply fields_dropWhile fun c hc => List.mem_takeWhile_imp hc
    refine head?_append_ne (fun h => (hfirst _ h).2 rfl) fun h => ?_
    exact ne_mark_of_blank (hafter _ (List.mem_of_mem_head? h)) rfl

/-- Blanks around a row that has fields do not change them, if they do not end it. -/
theorem fields_pad {before after line : List Char} (hbefore : ∀ c ∈ before, isBlank c = true)
    (hafter : ∀ c ∈ after, isBlank c = true) (hhead : KeepsHead before line)
    (hpadding : IsPadding (leading (before ++ line))) (hfields : fields (trim line) ≠ []) :
    fields (before ++ line ++ after) = fields (trim line) := by
  obtain ⟨gap, hgap, hend⟩ := Text.exists_trimEnd_append (trimStart line)
  -- what is trimmed off the end, and what follows it, is blank
  have hbehind : fields (trimStart line ++ after) = fields (trim line) := by
    rw [hend, List.append_assoc]
    apply fields_append_blank hfields
    intro c hc
    exact (List.mem_append.mp hc).elim (hgap c) (hafter c)
  rw [fields_leading hbefore hafter hhead, ← hbehind]
  rcases hhead with hnone | hfirst
  · rw [leading, hnone]
    rfl
  · cases hstart : trimStart line with
    | nil =>
      rw [trim, hstart] at hfields
      exact absurd rfl hfields
    | cons c rest =>
      obtain ⟨hquote, hmark⟩ := hfirst c (by rw [hstart, List.head?_cons])
      rw [List.cons_append, fields_append_padding hpadding (Text.isBlank_head_trimStart hstart)
        hquote hmark]

/-- Otherwise they end it at its first field. -/
theorem length_fields_pad {before after line : List Char} (hbefore : ∀ c ∈ before, isBlank c = true)
    (hafter : ∀ c ∈ after, isBlank c = true) (hhead : KeepsHead before line)
    (hpadding : ¬ IsPadding (leading (before ++ line))) :
    (fields (before ++ line ++ after)).length = 1 := by
  rw [fields_leading hbefore hafter hhead]
  apply length_fields_of_not_isPadding (fun c hc => isBlank_of_mem_leading hc) hpadding
  intro c hc
  have hfirst := List.head?_dropWhile_not isRowEnd ((before ++ line).takeWhile isBlank)
  rw [leading] at hc
  simpa [hc] using hfirst

/-! ## The theorem -/

/-- **Blanks in a row.** A row with a label that is read as one field gives a record. Written with
    other blanks around its fields or its parentheses, or put between parentheses, it gives the same
    record iff its first six bodies are read as one field each, and as they were. They are read as
    they were if the blanks move no quote off the start of its field, or only those of steady bodies,
    and then the one row may stand for the other in any text. Between parentheses an accepted text
    that is no tuple gives its record with any blanks around it that do not end the row, if its first
    character keeps its meaning. -/
theorem readRecords_repadded (w w' : Layout) (line before after : List Char) (r : Record Float) :
    (w.bodies = w'.bodies → (w'.enclosure = .plain → w.enclosure = .plain) → w.IsProper →
      w.label.body.IsWhole w.labelPlace →
      readRecords false (.ok w.text.toUTF8.toList) = .ok [r] →
      (readRecords false (.ok w'.text.toUTF8.toList) = .ok [r] ↔
        w'.IsWhole ∧ w.readings = w'.readings) ∧
      (w.KeepsPlaces w' → w.readings = w'.readings) ∧
      (w'.IsWhole → w.readings = w'.readings → ∀ (header : Bool) (text other : String)
        (above below : List (List Char)),
        Text.lines text.toList = above ++ w.chars :: below →
        Text.lines other.toList = above ++ w'.chars :: below →
        readRecords header (.ok other.toUTF8.toList) =
          readRecords header (.ok text.toUTF8.toList))) ∧
    ((∀ c ∈ before, isBlank c = true) → (∀ c ∈ after, isBlank c = true) →
      '\n' ∉ before ++ line ++ after → KeepsHead before line → (¬ ∃ body, IsTuple body line) →
      readRecords false (.ok (String.ofList line).toUTF8.toList) = .ok [r] →
      (readRecords false
        (.ok (String.ofList ('(' :: (before ++ line ++ after ++ [')']))).toUTF8.toList) =
          .ok [r] ↔ IsPadding (leading (before ++ line)))) := by
  constructor
  · intro hbodies hform hproper hlabel hread
    have hproper' := hproper.congr hbodies hform
    have hrow := (readRecords_singleton_iff w.chars_ne_nil w.not_mem_chars).mp hread
    have hwhole := w.isWhole_of_read hproper hlabel hrow
    obtain ⟨hline, htold⟩ := (w.read_eq_ok_iff hproper hwhole).mp hrow
    refine ⟨?_, fun hkeeps => hkeeps.readings_eq hbodies, ?_⟩
    · constructor
      · intro hread'
        have hrow' := (readRecords_singleton_iff w'.chars_ne_nil w'.not_mem_chars).mp hread'
        have hwhole' := hwhole.of_same_record hproper hproper' hbodies hrow hrow'
        obtain ⟨-, htold'⟩ := (w'.read_eq_ok_iff hproper' hwhole').mp hrow'
        exact ⟨hwhole', Layout.readings_eq_of_told hbodies htold htold'⟩
      · rintro ⟨hwhole', hreadings⟩
        rw [Layout.readRecords_text_iff hproper' hwhole']
        exact ⟨hline, hreadings ▸ htold⟩
    · intro hwhole' hreadings header text other above below htext hother
      have hsame (number : Nat) : Line.read number w'.chars = Line.read number w.chars := by
        have h : Line.read number w.chars = .row (.ok { r with line := number }) :=
          (w.read_eq_ok_iff hproper hwhole).mpr ⟨rfl, htold.withLine number⟩
        have h' : Line.read number w'.chars = .row (.ok { r with line := number }) :=
          (w'.read_eq_ok_iff hproper' hwhole').mpr ⟨rfl, hreadings ▸ htold.withLine number⟩
        rw [h, h']
      rw [readRecords_toUTF8, readRecords_toUTF8, read, read, htext, hother, readLines_congr hsame]
  · -- between the parentheses the text is not trimmed, so its blanks come to the fields
    intro hbefore hafter hnewline hhead htuple hread
    have hne : line ≠ [] := by
      rintro rfl
      rw [readRecords_toUTF8] at hread
      cases hread
    have hline : '\n' ∉ line := fun hmem => hnewline (by simp [hmem])
    have hholds := Line.read_eq_ok_iff.mp ((readRecords_singleton_iff hne hline).mp hread)
    rw [content_of_not_isTuple htuple] at hholds
    have hsix := hholds.isRecord.1
    have hcontent : content ('(' :: (before ++ line ++ after ++ [')'])) = before ++ line ++ after :=
      content_of_isTuple (isTuple_closed (List.forall_mem_nil _) _ (List.forall_mem_nil _))
    rw [readRecords_singleton_iff (List.cons_ne_nil _ _) (by simpa using hnewline),
      Line.read_eq_ok_iff, hcontent]
    constructor
    · intro hpadded
      by_contra hpadding
      have hone := length_fields_pad hbefore hafter hhead hpadding
      have hsix' := hpadded.isRecord.1
      omega
    · intro hpadding
      rw [fields_pad hbefore hafter hhead hpadding fun hnil => by simp [hnil] at hsix]
      exact hholds

/-- The body of a digit. -/
def Body.digit (d : Fin 10) : Body :=
  .bare [Nat.digitChar d] (by revert d; decide)
    (List.forall_mem_singleton.mpr (by revert d; decide)) (by revert d; decide)

theorem Body.isSteady_digit (d : Fin 10) : (Body.digit d).IsSteady :=
  Body.isSteady_bare _ _ _ (by revert d; decide)

/-- A row with the label `a, b` and the numbers from one to five, with blanks in front of the numbers
    and after every field. -/
def Layout.counting (blank : List Char) (hblank : IsPadding blank) (enclosure : Enclosure) :
    Layout where
  label := ⟨[], .quoted "a, b".toList (by decide), blank, by decide, hblank⟩
  others := [1, 2, 3, 4, 5].map fun d => ⟨blank, .digit d, blank, hblank, hblank⟩
  enclosure := enclosure
  five_le := by simp

theorem Layout.counting_isWhole (blank : List Char) (hblank : IsPadding blank)
    (enclosure : Enclosure) : (Layout.counting blank hblank enclosure).IsWhole := by
  constructor
  · rw [counting, labelPlace]
    cases enclosure <;> trivial
  · intro c hc
    obtain ⟨d, -, rfl⟩ := List.mem_map.mp (List.mem_of_mem_take hc)
    rw [Cell.place]
    split <;> trivial

/-- A row and a tuple of it with more blanks, and a bare row between parentheses. -/
theorem readRecords_repadded_tuple :
    readRecords false (.ok "\t('a, b' , 1 , 2 , 3 , 4 , 5 ) ,".toUTF8.toList) =
        .ok [⟨"a, b", 1, 2, 3, 4, 5, 1⟩] ∧
      readRecords false (.ok "(\t a,1,2,3,4,5 )".toUTF8.toList) =
        .ok [⟨"a", 1, 2, 3, 4, 5, 1⟩] := by
  let w := Layout.counting [] (by decide) .plain
  let w' := Layout.counting [' '] (by decide)
    (.comma ['\t'] [' '] [] (by decide) (by decide) (by decide))
  have hproper : w.IsProper := by
    rintro - ⟨body, htuple⟩
    exact absurd htuple.head?_trim (by decide)
  have hread : readRecords false (.ok w.text.toUTF8.toList) = .ok [⟨"a, b", 1, 2, 3, 4, 5, 1⟩] := by
    have htext : w.text = "'a, b',1,2,3,4,5" := by decide
    rw [htext, readRecords_toUTF8]
    rfl
  constructor
  · obtain ⟨hiff, hkeeps, -⟩ := (readRecords_repadded w w' [] [] [] _).1 rfl (fun _ => rfl) hproper
      (Layout.counting_isWhole _ _ _).1 hread
    refine hiff.mpr ⟨Layout.counting_isWhole _ _ _, hkeeps ⟨.inl rfl, ?_⟩⟩
    -- the label begins with its quote in both rows, and a digit may stand anywhere
    intro i hi c c' hc hc'
    obtain ⟨d, -, rfl⟩ := List.mem_map.mp (List.mem_of_getElem? hc)
    exact .inr (Body.isSteady_digit d)
  · have hline : readRecords false (.ok (String.ofList "a,1,2,3,4,5".toList).toUTF8.toList) =
        .ok [⟨"a", 1, 2, 3, 4, 5, 1⟩] := by
      rw [readRecords_toUTF8]
      rfl
    have hhead : KeepsHead ['\t', ' '] "a,1,2,3,4,5".toList := by
      refine .inr fun c hc => ?_
      obtain rfl : 'a' = c := Option.some.inj hc
      decide
    have htuple : ¬ ∃ body, IsTuple body "a,1,2,3,4,5".toList := by
      rintro ⟨body, htuple⟩
      exact absurd htuple.head?_trim (by decide)
    exact ((readRecords_repadded w w' "a,1,2,3,4,5".toList ['\t', ' '] [' '] _).2
      (List.all_eq_true.mp rfl) (List.all_eq_true.mp rfl) (by decide) hhead htuple hline).mpr
      (by decide)

/-- A blank that moves a quote off the start of its field matters: the comma in the label ends a
    field, and a doubled quote stays doubled. -/
theorem readRecords_padding_matters :
    readRecords false (.ok "('a, b',1,2,3,4,5)".toUTF8.toList) =
        .ok [⟨"a, b", 1, 2, 3, 4, 5, 1⟩] ∧
      readRecords false (.ok "( 'a, b',1,2,3,4,5)".toUTF8.toList) =
        .error (.row (.invalidNumber 1 .low "b'")) ∧
      readRecords false (.ok "('it''s',1,2,3,4,5)".toUTF8.toList) =
        .ok [⟨"it's", 1, 2, 3, 4, 5, 1⟩] ∧
      readRecords false (.ok "( 'it''s',1,2,3,4,5)".toUTF8.toList) =
        .ok [⟨"it''s", 1, 2, 3, 4, 5, 1⟩] := by
  simp only [readRecords_toUTF8]
  exact ⟨rfl, rfl, rfl, rfl⟩

end LatencyPlot.Table
