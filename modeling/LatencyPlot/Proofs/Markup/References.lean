/-
  LatencyPlot.Proofs.Markup.References

  The texts that escaping gives: they hold none of the four characters that end
  a text or a value, and each ampersand in them begins one of five references.
  Every text of this form is what some text is escaped to, and unescaping finds
  that text (`isEscaped_iff`). So escaping loses nothing, and it changes every
  text with a character that markup uses, also one that is escaped already.
-/
import LatencyPlot.Proofs.Markup.Reading
import Mathlib.Data.List.Infix

namespace LatencyPlot.Markup

/-- The references that stand for the characters that markup uses. -/
def references : List (List Char) :=
  ["&amp;".toList, "&lt;".toList, "&gt;".toList, "&quot;".toList, "&#39;".toList]

/-- A text that can stand between tags or between quotes, and is no markup there. -/
structure IsEscaped (cs : List Char) : Prop where
  /-- Nothing in it ends a text or a value. -/
  plain : ∀ c ∈ ['<', '>', '"', '\''], c ∉ cs
  /-- An ampersand begins a reference. -/
  reference : ∀ rest, '&' :: rest <:+ cs → ∃ r ∈ references, r <+: '&' :: rest

theorem IsEscaped.of_suffix {cs rest : List Char} (h : IsEscaped cs) (hsuffix : rest <:+ cs) :
    IsEscaped rest where
  plain c hc hmem := h.plain c hc (hsuffix.mem hmem)
  reference tail htail := h.reference tail (htail.trans hsuffix)

/-- A character that markup uses is written as a reference, which has one ampersand, at its
    start. -/
theorem escapeChar_of_mem_marks {c : Char} (hc : c ∈ marks) :
    escapeChar c ∈ references ∧ ∃ name, escapeChar c = '&' :: name ∧ '&' ∉ name := by
  simp only [marks, List.mem_cons, List.not_mem_nil, or_false] at hc
  rcases hc with rfl | rfl | rfl | rfl | rfl <;>
    exact ⟨by decide, _, rfl, by decide⟩

/-- A character that does not occur in front is found behind. -/
theorem suffix_of_suffix_append {c : Char} {front rest cs : List Char} (hfront : c ∉ front)
    (h : c :: rest <:+ front ++ cs) : c :: rest <:+ cs := by
  induction front with
  | nil => exact h
  | cons d front ih =>
    rw [List.mem_cons, not_or] at hfront
    rw [List.cons_append, List.suffix_cons_iff] at h
    rcases h with heq | h
    · exact absurd (List.cons.inj heq).1 hfront.1
    · exact ih hfront.2 h

/-- An escaped text can be spliced into a document. -/
theorem isEscaped_escape (s : List Char) : IsEscaped (escape s) where
  plain _ hc := not_mem_escape hc s
  reference rest h := by
    induction s with
    | nil => simp [escape] at h
    | cons c cs ih =>
      rw [escape_cons] at h
      by_cases hc : c ∈ marks
      · obtain ⟨hmem, name, hname, hamp⟩ := escapeChar_of_mem_marks hc
        rw [hname, List.cons_append, List.suffix_cons_iff] at h
        rcases h with heq | h
        · -- the ampersand of this character's own reference
          refine ⟨escapeChar c, hmem, ?_⟩
          rw [heq, hname]
          exact ⟨escape cs, rfl⟩
        · exact ih (suffix_of_suffix_append hamp h)
      · rw [escapeChar_of_not_mem_marks hc] at h
        have hamp : '&' ∉ [c] := fun hmem => hc (by rw [← List.mem_singleton.mp hmem]; decide)
        exact ih (suffix_of_suffix_append hamp h)

/-- A text that can be spliced is what its unescaped form is written as. -/
theorem IsEscaped.escape_unescape {cs : List Char} (h : IsEscaped cs) :
    escape (unescape cs) = cs := by
  fun_induction unescape cs with
  | case1 cs ih | case2 cs ih | case3 cs ih | case4 cs ih | case5 cs ih =>
    -- the text goes on behind the reference
    have hcs : IsEscaped cs := h.of_suffix (by simp [List.suffix_cons_iff])
    rw [escape_cons, ih hcs]
    rfl
  | case6 c cs hamp hlt hgt hquote happ ih =>
    have hc : c ∉ marks := by
      intro hmem
      rcases List.mem_cons.mp hmem with rfl | hmem
      · -- an ampersand here would begin a reference, and be read as part of it
        obtain ⟨r, hr, rest, hrest⟩ := h.reference cs (List.suffix_refl _)
        simp only [references, List.mem_cons, List.not_mem_nil, or_false] at hr
        rcases hr with rfl | rfl | rfl | rfl | rfl
        · exact hamp rest rfl (List.cons.inj hrest).2.symm
        · exact hlt rest rfl (List.cons.inj hrest).2.symm
        · exact hgt rest rfl (List.cons.inj hrest).2.symm
        · exact hquote rest rfl (List.cons.inj hrest).2.symm
        · exact happ rest rfl (List.cons.inj hrest).2.symm
      · exact h.plain c hmem List.mem_cons_self
    rw [escape_cons, escapeChar_of_not_mem_marks hc, ih (h.of_suffix (List.suffix_cons c cs))]
    rfl
  | case7 => rfl

/-- What escaping gives is just what can be spliced into a document. -/
theorem isEscaped_iff {cs : List Char} : IsEscaped cs ↔ ∃ s, escape s = cs :=
  ⟨fun h => ⟨unescape cs, h.escape_unescape⟩, fun ⟨s, hs⟩ => hs ▸ isEscaped_escape s⟩

theorem escaped_inj {s t : String} : escaped s = escaped t ↔ s = t := by
  refine ⟨fun h => ?_, congrArg escaped⟩
  have hescape : escape s.toList = escape t.toList := by rw [← toList_escaped, h, toList_escaped]
  rw [← String.toList_inj, ← unescape_escape s.toList, hescape, unescape_escape]

/-- **Escaping can be undone, and what it gives is no markup.** An escaped text can be spliced into
    a document and reads back as the text; no two texts are escaped to the same one; a text can be
    escaped piece by piece; only a text without the characters that markup uses stays as it is; and
    a text that escaping has changed is changed again by escaping it again. -/
theorem escaped_invertible (s t : String) :
    IsEscaped (escaped s).toList ∧
    unescape (escaped s).toList = s.toList ∧
    (escaped s = escaped t ↔ s = t) ∧
    escaped (s ++ t) = escaped s ++ escaped t ∧
    (escaped s = s ↔ ∀ c ∈ s.toList, c ∉ marks) ∧
    (escaped (escaped s) = escaped s ↔ escaped s = s) := by
  refine ⟨?_, ?_, escaped_inj, escaped_append s t, escaped_eq_self_iff, escaped_inj⟩
  · exact isEscaped_iff.mpr ⟨s.toList, (toList_escaped s).symm⟩
  · rw [toList_escaped]
    exact unescape_escape s.toList

example : escaped "a &lt; 'b'" = "a &amp;lt; &#39;b&#39;" := by decide

end LatencyPlot.Markup
