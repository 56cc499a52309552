/-
  LatencyPlot.Proofs.Table.Blanks

  Blanks at the ends of the text of a row. Those at its end only lengthen its
  last field (`fields_append_blank`). Those at its start are trimmed from its
  first field, unless it begins with a quote or a byte order mark, which would
  have a meaning without them (`fields_append_padding`).
-/
import LatencyPlot.Proofs.Table.Cells

namespace LatencyPlot.Table

open Text (isBlank trim trimStart trimEnd)

/-! ## At the end -/

theorem isRowEnd_of_not_blank {c : Char} (h : isBlank c = false) : isRowEnd c = false := by
  cases hend : isRowEnd c with
  | false => rfl
  | true =>
    rw [isRowEnd, Bool.or_eq_true, beq_iff_eq, beq_iff_eq] at hend
    rcases hend with rfl | rfl <;> exact absurd h (by decide)

theorem map_trimEnd_push {fs gs : List (List Char)} (h : fs.map trimEnd = gs.map trimEnd)
    (c : Char) : (push c fs).map trimEnd = (push c gs).map trimEnd := by
  cases fs with
  | nil => rw [List.map_eq_nil_iff.mp h.symm]
  | cons f fs =>
    cases gs with
    | nil => cases h
    | cons g gs =>
      rw [List.map_cons, List.map_cons, List.cons.injEq] at h
      rw [push, push, List.map_cons, List.map_cons, Text.trimEnd_cons_congr h.1, h.2]

/-- Blanks are one blank field, whatever the state. -/
theorem map_trimEnd_fieldsFrom_blank (s : FieldState) {ws : List Char}
    (hws : ∀ c ∈ ws, isBlank c = true) : (fieldsFrom s ws).map trimEnd = [[]] := by
  induction ws generalizing s with
  | nil => rfl
  | cons c ws ih =>
    have hc : isBlank c = true := hws c List.mem_cons_self
    have hnext (s : FieldState) : (push c (fieldsFrom s ws)).map trimEnd = [[]] := by
      have hpush : (push c (fieldsFrom s ws)).map trimEnd = (push c [[]]).map trimEnd :=
        map_trimEnd_push (ih s fun d hd => hws d (List.mem_cons_of_mem c hd)) c
      rw [hpush]
      exact congrArg (fun f => [f]) (Text.trimEnd_eq_nil_of_blank (by simpa using hc))
    have hcomma : c ≠ ',' := by
      rintro rfl
      exact absurd hc (by decide)
    have hquote : c ≠ '\'' := by
      rintro rfl
      exact absurd hc (by decide)
    have houtside : outsideStep c = .finish ∨ outsideStep c = .keep .bare := by
      rw [outsideStep, if_neg hcomma]
      cases isRowEnd c with
      | true => exact .inl rfl
      | false => exact .inr rfl
    rw [fieldsFrom]
    by_cases hs : s = .quoted
    · rw [hs, fieldStep, if_neg hquote]
      exact hnext .quoted
    · rw [fieldStep_of_ne hs hquote]
      rcases houtside with h | h
      · rw [h]
        rfl
      · rw [h]
        exact hnext .bare

/-- Blanks at the end of a text only lengthen its last field. -/
theorem map_trimEnd_fieldsFrom_append (s : FieldState) (cs : List Char) {ws : List Char}
    (hws : ∀ c ∈ ws, isBlank c = true) :
    (fieldsFrom s (cs ++ ws)).map trimEnd = (fieldsFrom s cs).map trimEnd := by
  induction cs generalizing s with
  | nil => exact map_trimEnd_fieldsFrom_blank s hws
  | cons c cs ih =>
    rw [List.cons_append, fieldsFrom, fieldsFrom]
    cases fieldStep s c with
    | keep next => exact map_trimEnd_push (ih next) c
    | skip next => exact ih next
    | divide => exact congrArg ([] :: ·) (ih .opening)
    | finish => rfl

theorem map_trim_eq {fs gs : List (List Char)} (h : fs.map trimEnd = gs.map trimEnd) :
    fs.map trim = gs.map trim := by
  have htrim (fs : List (List Char)) : fs.map trim = (fs.map trimEnd).map trim := by
    rw [List.map_map]
    exact List.map_congr_left fun f _ => (Text.trim_trimEnd f).symm
  rw [htrim fs, h, ← htrim gs]

/-- What is trimmed off the end of a text is read from none of its fields. -/
theorem map_unquote_fieldsFrom_trimEnd (s : FieldState) (cs : List Char) :
    (fieldsFrom s (trimEnd cs)).map unquote = (fieldsFrom s cs).map unquote := by
  obtain ⟨after, hafter, hcs⟩ := Text.exists_trimEnd_append cs
  have hend := map_trim_eq (map_trimEnd_fieldsFrom_append s (trimEnd cs) hafter)
  rw [← hcs] at hend
  rw [← map_unquote_map_trim, ← hend, map_unquote_map_trim]

theorem fields_append_blank {cs ws : List Char} (hcs : fields cs ≠ [])
    (hws : ∀ c ∈ ws, isBlank c = true) : fields (cs ++ ws) = fields cs := by
  have hmark : withoutMark (cs ++ ws) = withoutMark cs ++ ws :=
    withoutMark_append fun h => ne_mark_of_blank (hws _ (List.mem_of_mem_head? h)) rfl
  rw [fields] at hcs
  rw [fields, fields, hmark, List.dropWhile_append]
  cases hdrop : (withoutMark cs).dropWhile isRowEnd with
  | nil =>
    rw [hdrop] at hcs
    exact absurd rfl hcs
  | cons d ds => exact map_trim_eq (map_trimEnd_fieldsFrom_append .opening (d :: ds) hws)

/-! ## At the start -/

/-- Blanks in front of a field are trimmed from it. -/
theorem map_trim_push_blank {c : Char} (hc : isBlank c = true) (fs : List (List Char))
    (hfs : fs ≠ []) : (push c fs).map trim = fs.map trim := by
  cases fs with
  | nil => exact absurd rfl hfs
  | cons f fs =>
    have hpad : trim ([c] ++ f ++ []) = trim f :=
      Text.trim_pad (by simpa using hc) (List.forall_mem_nil _) f
    rw [List.append_nil, List.singleton_append] at hpad
    rw [push, List.map_cons, List.map_cons, hpad]

theorem map_trim_fieldsFrom_padding {ws : List Char} (hws : IsPadding ws) (cs : List Char) :
    (fieldsFrom .bare (ws ++ cs)).map trim = (fieldsFrom .bare cs).map trim := by
  induction ws with
  | nil => rfl
  | cons w ws ih =>
    obtain ⟨hblank, hend⟩ := hws w List.mem_cons_self
    have hstep : fieldStep .bare w = .keep .bare := by
      have hcomma : w ≠ ',' := (isPlain_of_blank ⟨hblank, hend⟩).1
      rw [fieldStep, outsideStep, if_neg hcomma, hend]
      rfl
    rw [List.cons_append, fieldsFrom, hstep]
    simp only
    rw [map_trim_push_blank hblank _ (fieldsFrom_ne_nil _ _)]
    exact ih fun c hc => hws c (List.mem_cons_of_mem w hc)

/-- Blanks in front of a row do not matter if it begins with neither a quote nor a byte order mark. -/
theorem fields_append_padding {ws rest : List Char} {c : Char} (hws : IsPadding ws)
    (hc : isBlank c = false) (hquote : c ≠ '\'') (hmark : c ≠ '\uFEFF') :
    fields (ws ++ c :: rest) = fields (c :: rest) := by
  have hend := isRowEnd_of_not_blank hc
  cases ws with
  | nil => rfl
  | cons w ws =>
    obtain ⟨hblank, hwend⟩ := hws w List.mem_cons_self
    have hplain := isPlain_of_blank ⟨hblank, hwend⟩
    rw [List.cons_append, fields_cons (ne_mark_of_blank hblank) hwend, fields_cons hmark hend,
      fieldsFrom_opening_of_ne hplain.2.2, fieldsFrom_opening_of_ne hquote, ← List.cons_append, map_trim_fieldsFrom_padding hws]

theorem withoutMark_of_head?_ne {cs : List Char} (h : cs.head? ≠ some '\uFEFF') :
    withoutMark cs = cs := by
  cases cs with
  | nil => rfl
  | cons c cs => exact if_neg fun hc => h (by rw [hc, List.head?_cons])

/-- Row ends in front of a row are passed over. Behind them a byte order mark is text. -/
theorem fields_dropWhile {ws cs : List Char} (hws : ∀ c ∈ ws, isBlank c = true)
    (hmark : cs.head? ≠ some '\uFEFF') :
    fields (ws ++ cs) = fields (ws.dropWhile isRowEnd ++ cs) := by
  induction ws with
  | nil => rfl
  | cons w ws ih =>
    have hblank : ∀ c ∈ ws, isBlank c = true := fun c hc => hws c (List.mem_cons_of_mem w hc)
    cases hend : isRowEnd w with
    | false => rw [List.dropWhile_cons_of_neg (by simp [hend])]
    | true =>
      have hhead : (ws ++ cs).head? ≠ some '\uFEFF' :=
        head?_append_ne (fun h => ne_mark_of_blank (hblank _ (List.mem_of_mem_head? h)) rfl) hmark
      rw [List.dropWhile_cons_of_pos hend, ← ih hblank, List.cons_append, fields, fields,
        withoutMark, if_neg (ne_mark_of_blank (hws w List.mem_cons_self)),
        List.dropWhile_cons_of_pos hend, withoutMark_of_head?_ne hhead]

/-- A row end behind other blanks ends the row at its first field. -/
theorem length_fields_of_not_isPadding {ws : List Char} (hws : ∀ c ∈ ws, isBlank c = true)
    (hpadding : ¬ IsPadding ws) (hhead : ∀ c, ws.head? = some c → isRowEnd c = false)
    (cs : List Char) : (fields (ws ++ cs)).length = 1 := by
  have hend : ∃ c ∈ ws, isRowEnd c = true := by
    by_contra hnone
    exact hpadding fun c hc => ⟨hws c hc, Bool.eq_false_iff.mpr fun h => hnone ⟨c, hc, h⟩⟩
  obtain ⟨c, hfirst⟩ := Option.isSome_iff_exists.mp (List.find?_isSome.mpr hend)
  obtain ⟨hc, front, back, rfl, hfront⟩ := List.find?_eq_some_iff_append.mp hfirst
  have hcomma {d : Char} (hd : d ∈ front ++ c :: back) : d ≠ ',' := by
    rintro rfl
    exact absurd (hws _ hd) (by decide)
  cases front with
  | nil =>
    rw [hhead c rfl] at hc
    cases hc
  | cons w front =>
    have hplain := isPlain_of_blank ⟨hws w List.mem_cons_self, hhead w rfl⟩
    have hinside : ∀ d ∈ w :: front, d ≠ ',' ∧ isRowEnd d = false := fun d hd =>
      ⟨hcomma (List.mem_append_left _ hd), by simpa using hfront d hd⟩
    have hbare := fieldsFrom_bare_finish hinside (hcomma (by simp)) hc (back ++ cs)
    rw [List.cons_append] at hbare
    rw [List.append_assoc, List.cons_append, List.cons_append,
      fields_cons (ne_mark_of_blank (hws w List.mem_cons_self)) (hhead w rfl),
      fieldsFrom_opening_of_ne hplain.2.2, hbare]
    rfl

end LatencyPlot.Table
