/-
  LatencyPlot.Proofs.Page.Warned

  The warnings and the table of a page single out the same records: those of
  which some boundary is not at most a later one. Comparing neighbours finds them
  all, since no double is at most one that is not a number, nor at least it. A
  warning is one line whatever its label holds, and the label can be read back
  from it.
-/
import LatencyPlot.Proofs.Number.Extremes
import LatencyPlot.Proofs.Page.Structure
import LatencyPlot.Proofs.Text.Quoted
import LatencyPlot.Record.Warning

namespace LatencyPlot

/-- Between the elements of a list stands nothing but the separator. -/
theorem mem_of_mem_intersperse {β : Type} {x separator : β} {xs : List β}
    (h : x ∈ xs.intersperse separator) : x = separator ∨ x ∈ xs := by
  fun_induction List.intersperse separator xs with
  | case1 => exact .inr h
  | case2 head => exact .inr h
  | case3 head tail _ ih =>
    rcases List.mem_cons.mp h with rfl | h
    · exact .inr List.mem_cons_self
    rcases List.mem_cons.mp h with rfl | h
    · exact .inl rfl
    · exact (ih h).imp id (List.mem_cons_of_mem head)

/-! ## Records out of order -/

theorem ascending_iff_isChain (xs : List Float) : ascending xs = true ↔ xs.IsChain (· ≤ ·) := by
  fun_induction ascending xs with
  | case1 a b rest ih => rw [Bool.and_eq_true, decide_eq_true_iff, ih, List.isChain_cons_cons]
  | case2 xs h =>
    cases xs with
    | nil => simp
    | cons a rest =>
      cases rest with
      | nil => simp
      | cons b rest => exact absurd rfl (h a b rest)

namespace Record

/-- Whether some boundary of a record is not at most a later one. -/
def IsOutOfOrder (r : Record Float) : Prop :=
  ∃ i j : Fin r.bounds.length, i < j ∧ ¬ r.bounds[i] ≤ r.bounds[j]

/-- Neighbours that are in order put all boundaries in order. -/
theorem isOutOfOrder_iff {r : Record Float} : r.IsOutOfOrder ↔ r.isMonotonic = false := by
  have hpairwise : r.isMonotonic = true ↔ r.bounds.Pairwise (· ≤ ·) := by
    rw [isMonotonic, ascending_iff_isChain, List.isChain_iff_pairwise]
  -- the order of doubles is transitive, though not every double is at most itself
  rw [← Bool.not_eq_true, hpairwise, List.pairwise_iff_get, IsOutOfOrder]
  push Not
  rfl

instance : DecidablePred IsOutOfOrder := fun _ => decidable_of_iff _ isOutOfOrder_iff.symm

/-! ## The text of a warning -/

theorem toList_warning (r : Record Float) : r.warning.toList =
    "warning: line ".toList ++ Nat.toDigits 10 r.line ++ ": ".toList ++
      Text.quote r.label.toList ++ " has out-of-order percentiles [".toList ++
      ", ".toList.intercalate ((r.bounds.map Number.literal).map String.toList) ++
      "]; plotting as given".toList := by
  unfold warning
  rw [String.toList_append, String.toList_append, String.toList_append,
    String.toList_append, String.toList_append, String.toList_append, Page.toList_toString r.line,
    String.toList_intercalate, Text.toList_quoted]

/-- A warning is one line. -/
theorem not_isControl_of_mem_warning {r : Record Float} {c : Char} (h : c ∈ r.warning.toList) :
    ¬ Text.IsControl c := by
  have hnumeral {d : Char} (hd : Number.isNumeral d = true) : ¬ Text.IsControl d := by
    have hbounds := Number.toNat_of_isNumeral hd
    rw [Text.IsControl]
    omega
  have hfixed {text : String} (htext : text.toList.all fun d => !decide (Text.IsControl d))
      (hc : c ∈ text.toList) : ¬ Text.IsControl c := by
    simpa using List.all_eq_true.mp htext c hc
  -- the fixed texts, the number of the line, the label, and the boundaries with commas between
  simp only [toList_warning, List.mem_append] at h
  rcases h with (((((h | h) | h) | h) | h) | h) | h
  · exact hfixed (by decide) h
  · exact hnumeral (Number.isNumeral_of_mem_toDigits c h)
  · exact hfixed (by decide) h
  · exact Text.not_isControl_of_mem_quote h
  · exact hfixed (by decide) h
  · obtain ⟨part, hpart, h⟩ := List.mem_flatten.mp h
    rcases mem_of_mem_intersperse hpart with rfl | hpart
    · exact hfixed (by decide) h
    · rw [List.map_map] at hpart
      obtain ⟨x, -, rfl⟩ := List.mem_map.mp hpart
      exact hnumeral (Number.isNumeral_of_mem_literal x c h)
  · exact hfixed (by decide) h

/-- Reads the line and the label that a warning is about. -/
def readWarning? (text : List Char) : Option (ℕ × List Char) :=
  let rest := text.drop "warning: line ".toList.length
  let digits := rest.takeWhile Char.isDigit
  let written := (rest.drop digits.length).drop ": ".toList.length
  (Text.readQuoted? written).map fun (label, _) => (Nat.ofDigitChars 10 digits 0, label)

/-- The line and the label of a record can be read back from its warning. -/
theorem readWarning?_warning (r : Record Float) :
    readWarning? r.warning.toList = some (r.line, r.label.toList) := by
  have hdigits : ∀ c ∈ Nat.toDigits 10 r.line, c.isDigit = true :=
    fun c hc => Nat.isDigit_of_mem_toDigits (by decide) (by decide) hc
  have hcolon (rest : List Char) : (": ".toList ++ rest).takeWhile Char.isDigit = [] := by
    simp
  -- the digits end at the colon, and the label at its closing quote
  rw [toList_warning, readWarning?]
  simp only [List.append_assoc, List.drop_left, List.takeWhile_append_of_pos hdigits, hcolon,
    List.append_nil, Text.readQuoted?_quote_append, Option.map_some, Nat.ofDigitChars_ten_toDigits]

/-- Records with different labels are warned about in different words. -/
theorem label_eq_of_warning_eq {r r' : Record Float} (h : r.warning = r'.warning) :
    r.label = r'.label := by
  have hread := readWarning?_warning r
  rw [h, readWarning?_warning r', Option.some.injEq, Prod.mk.injEq] at hread
  exact (String.toList_inj.mp hread.2).symm

end Record

/-! ## The theorem -/

theorem warnings_eq (records : List (Record Float)) :
    warnings records = (records.filter (·.IsOutOfOrder)).map Record.warning := by
  have hfilter (r : Record Float) : (!r.isMonotonic) = decide r.IsOutOfOrder := by
    rw [Bool.eq_iff_iff, Bool.not_eq_true', decide_eq_true_iff, Record.isOutOfOrder_iff]
  rw [warnings, funext hfilter]

/-- **Warnings and flagged rows.** The warnings are about the records that are out of order, in
    their order. Each is one line, and tells the line and the label of its record so that they can
    be read back. However the records are put in order later on, the rows of those in the page are
    the ones of the class `odd`. -/
theorem warnings_match_rows (records : List (Record Float)) :
    warnings records = (records.filter (·.IsOutOfOrder)).map Record.warning ∧
    (∀ r : Record Float,
      (∀ c ∈ r.warning.toList, ¬ Text.IsControl c) ∧
      (∃ rest, r.warning.toList = "warning: line ".toList ++ Nat.toDigits 10 r.line ++
          ": ".toList ++ (Text.quote r.label.toList ++ rest) ∧
        Text.readQuoted? (Text.quote r.label.toList ++ rest) = some (r.label.toList, rest)) ∧
      Record.readWarning? r.warning.toList = some (r.line, r.label.toList) ∧
      ∀ r' : Record Float, r.label ≠ r'.label → r.warning ≠ r'.warning) ∧
    ∀ p : Page, p.records.Perm records →
      (p.records.filter (·.IsOutOfOrder)).Perm (records.filter (·.IsOutOfOrder)) ∧
      ∃ above below entries, Page.Encloses (Page.render p) p.plot above below ∧
        Markup.rows below.chunks = ⟨none, []⟩ :: entries ∧
        List.Forall₂ (fun r row => Page.RowReads r row ∧
          (row.class? = some "odd" ↔ r.IsOutOfOrder)) p.records entries := by
  refine ⟨warnings_eq records, fun r => ⟨fun c hc => Record.not_isControl_of_mem_warning hc,
    ?_, r.readWarning?_warning, fun r' hne heq => hne (Record.label_eq_of_warning_eq heq)⟩, ?_⟩
  · rw [Record.toList_warning]
    simp only [List.append_assoc]
    exact ⟨_, rfl, Text.readQuoted?_quote_append _ _⟩
  · intro p hp
    refine ⟨hp.filter _, ?_⟩
    have hreads := p.reads
    obtain ⟨entries, hrows, hentries⟩ := hreads.table
    refine ⟨p.above, p.below, entries, hreads.parts, hrows, hentries.imp fun r row hrow => ?_⟩
    exact ⟨hrow, hrow.odd.trans Record.isOutOfOrder_iff.symm⟩

/-- Two records in the other order: the first row is now the one that is flagged. -/
theorem warnings_match_rows_reversed :
    let swapped : Record Float := ⟨"a\"\n", 2.0, 1.0, 3.0, 4.0, 5.0, 2⟩
    let rising : Record Float := ⟨"b", 1.0, 2.0, 3.0, 4.0, 5.0, 1⟩
    let p : Page := ⟨"t", "runs.csv", "", [swapped, rising], ⟨1.0, 5.0⟩⟩
    p.records.Perm [rising, swapped] ∧
      ∃ above below first second, Page.Encloses (Page.render p) p.plot above below ∧
        Markup.rows below.chunks = [⟨none, []⟩, first, second] ∧
        first.class? = some "odd" ∧ second.class? ≠ some "odd" := by
  intro swapped rising p
  have hperm : p.records.Perm [rising, swapped] := .swap rising swapped []
  obtain ⟨-, above, below, entries, hpage, hrows, hentries⟩ :=
    (warnings_match_rows [rising, swapped]).2.2 p hperm
  obtain ⟨first, rest, ⟨-, hfirst⟩, hrest, rfl⟩ := List.forall₂_cons_left_iff.mp hentries
  obtain ⟨second, rest', ⟨-, hsecond⟩, hnil, rfl⟩ := List.forall₂_cons_left_iff.mp hrest
  rw [List.forall₂_nil_left_iff.mp hnil] at hrows
  rw [Record.isOutOfOrder_iff] at hfirst hsecond
  have hswapped : swapped.isMonotonic = false := by decide
  have hrising : ¬ rising.isMonotonic = false := by decide
  exact ⟨hperm, above, below, first, second, hpage, hrows, hfirst.mpr hswapped,
    fun hodd => hrising (hsecond.mp hodd)⟩

end LatencyPlot
