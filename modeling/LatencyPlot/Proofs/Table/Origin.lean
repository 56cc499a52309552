/-
  LatencyPlot.Proofs.Table.Origin

  Where records come from. Each record of an input is held by a line of the text
  that the input is; so its numbers are finite, and its label is made of
  characters of that text.
-/
import LatencyPlot.Proofs.Table.Torn
import LatencyPlot.Proofs.Text.Bytes
import LatencyPlot.Proofs.Text.Lines

namespace LatencyPlot

namespace Text

theorem mem_of_mem_trimEnd {c : Char} {cs : List Char} (h : c ∈ trimEnd cs) : c ∈ cs :=
  (trimEnd_isPrefix cs).subset h

theorem mem_of_mem_trim {c : Char} {cs : List Char} (h : c ∈ trim cs) : c ∈ cs :=
  (List.dropWhile_suffix isBlank).subset (mem_of_mem_trimEnd h)

end Text

namespace Table

/-! ## Fields -/

theorem mem_of_mem_fieldsFrom {c : Char} {field cs : List Char} {state : FieldState}
    (hfield : field ∈ fieldsFrom state cs) (hc : c ∈ field) : c ∈ cs := by
  induction cs generalizing state field with
  | nil =>
    rw [fieldsFrom, List.mem_singleton] at hfield
    subst hfield
    cases hc
  | cons d cs ih =>
    rw [fieldsFrom] at hfield
    split at hfield
    · next next _ =>
      -- what is kept goes to the first field
      cases hfields : fieldsFrom next cs with
      | nil => exact absurd hfields (fieldsFrom_ne_nil next cs)
      | cons first more =>
        rw [hfields, push] at hfield
        rcases List.mem_cons.mp hfield with rfl | hfield
        · rcases List.mem_cons.mp hc with rfl | hc
          · exact List.mem_cons_self
          · exact List.mem_cons_of_mem d (ih (hfields ▸ List.mem_cons_self) hc)
        · exact List.mem_cons_of_mem d (ih (hfields ▸ List.mem_cons_of_mem first hfield) hc)
    · exact List.mem_cons_of_mem d (ih hfield hc)
    · rcases List.mem_cons.mp hfield with rfl | hfield
      · cases hc
      · exact List.mem_cons_of_mem d (ih hfield hc)
    · rw [List.mem_singleton] at hfield
      subst hfield
      cases hc

theorem mem_of_mem_fields {c : Char} {field text : List Char} (hfield : field ∈ fields text)
    (hc : c ∈ field) : c ∈ text := by
  rw [fields] at hfield
  split at hfield
  · cases hfield
  · obtain ⟨raw, hraw, rfl⟩ := List.mem_map.mp hfield
    have hdrop := mem_of_mem_fieldsFrom hraw (Text.mem_of_mem_trim hc)
    exact mem_of_mem_withoutMark ((List.dropWhile_suffix isRowEnd).subset hdrop)

/-! ## Lines -/

theorem mem_of_mem_withoutComma {c : Char} {cs : List Char} (h : c ∈ withoutComma cs) :
    c ∈ cs := by
  rw [withoutComma] at h
  split at h
  · exact List.dropLast_subset cs h
  · exact h

theorem mem_of_mem_content {c : Char} {line : List Char} (h : c ∈ content line) : c ∈ line := by
  apply Text.mem_of_mem_trim
  rw [content] at h
  cases hbody : tupleBody? (Text.trimEnd (withoutComma (Text.trim line))) with
  | none =>
    rw [hbody] at h
    exact h
  | some body =>
    rw [hbody] at h
    apply mem_of_mem_withoutComma
    apply Text.mem_of_mem_trimEnd
    rw [tupleBody?_eq_some_iff.mp hbody]
    exact List.mem_cons_of_mem '(' (List.mem_append_left [')'] h)

/-- The label of a record is made of characters of the line that holds it. -/
theorem Holds.mem_of_mem_label {line : List Char} {number : Nat} {r : Record Float}
    (h : Holds number (fields (content line)) r) : ∀ c ∈ r.label.toList, c ∈ line := by
  intro c hc
  obtain ⟨field, hfield, hlabel⟩ := Option.map_eq_some_iff.mp h.label_eq
  rw [← hlabel, String.toList_ofList] at hc
  exact mem_of_mem_content
    (mem_of_mem_fields (List.mem_of_getElem? hfield) (mem_of_mem_unquote hc))

/-- Each record that is read is held by one of the lines. -/
theorem exists_holds_of_readLines {header : Bool} {number : Nat} {lines : List (List Char)}
    {records : List (Record Float)} (h : readLines header number lines = .ok records) :
    ∀ r ∈ records, ∃ line ∈ lines, ∃ n, Holds n (fields (content line)) r := by
  induction lines generalizing header number records with
  | nil =>
    cases h
    exact fun r hr => nomatch hr
  | cons line rest ih =>
    have hlater : ∀ {header records}, readLines header (number + 1) rest = .ok records →
        ∀ r ∈ records, ∃ line' ∈ line :: rest, ∃ n, Holds n (fields (content line')) r := by
      intro header records hrest r hr
      obtain ⟨line', hline', hheld⟩ := ih hrest r hr
      exact ⟨line', List.mem_cons_of_mem line hline', hheld⟩
    rw [readLines] at h
    split at h
    · exact hlater h
    · split at h
      · exact hlater h
      · split at h
        · cases h
        · next first hfirst =>
          cases hrest : readLines false (number + 1) rest with
          | error e =>
            rw [hrest] at h
            cases h
          | ok later =>
            rw [hrest] at h
            cases h
            intro r hr
            rcases List.mem_cons.mp hr with rfl | hr
            · exact ⟨line, List.mem_cons_self, number, Line.read_eq_ok_iff.mp hfirst⟩
            · exact hlater hrest r hr

end Table

/-! ## Inputs -/

/-- An input that holds records is a text, each record is held by one of its lines, its label is
    made of characters of the text, and its numbers are finite. -/
theorem origin_of_readRecords {header : Bool} {stream : Except StreamError (List UInt8)}
    {records : List (Record Float)} (h : readRecords header stream = .ok records) :
    ∃ text : String, stream = .ok text.toUTF8.toList ∧
      (∀ r ∈ records, ∀ c ∈ r.label.toList, c ∈ text.toList) ∧
      ∀ r ∈ records, ∀ x ∈ r.bounds, x.isFinite = true := by
  cases stream with
  | error e => cases h
  | ok bytes =>
    rw [readRecords] at h
    cases hdecoded : String.fromUTF8? (ByteArray.mk bytes.toArray) with
    | none =>
      simp only [hdecoded] at h
      cases h
    | some text =>
      simp only [hdecoded] at h
      have hbytes : bytes = text.toUTF8.toList := by
        rw [String.fromUTF8?] at hdecoded
        split at hdecoded
        · cases hdecoded
          rw [Text.toList_bytes]
          rfl
        · cases hdecoded
      have hread : Table.readLines header 1 (Text.lines text.toList) = .ok records := by
        rw [Table.read] at h
        cases hlines : Table.readLines header 1 (Text.lines text.toList) with
        | error e =>
          rw [hlines] at h
          cases h
        | ok found =>
          rw [hlines] at h
          cases h
          rfl
      refine ⟨text, congrArg Except.ok hbytes, fun r hr => ?_, fun r hr => ?_⟩
      · obtain ⟨line, hline, n, hheld⟩ := Table.exists_holds_of_readLines hread r hr
        exact fun c hc => Text.mem_of_mem_lines hline (hheld.mem_of_mem_label c hc)
      · obtain ⟨line, hline, n, hheld⟩ := Table.exists_holds_of_readLines hread r hr
        exact hheld.isFinite

end LatencyPlot
