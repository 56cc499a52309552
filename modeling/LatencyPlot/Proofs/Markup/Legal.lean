/-
  LatencyPlot.Proofs.Markup.Legal

  Legal characters in written documents. The references are legal, so escaping
  neither adds nor takes away a character that a document may not hold: what is
  written is legal iff the names, values and texts that were meant are.
-/
import LatencyPlot.Markup.Legal
import LatencyPlot.Markup.Token
import LatencyPlot.Proofs.Number.Written

namespace LatencyPlot.Markup

/-- Whether a document may hold all characters of a text. -/
def isLegalText (s : String) : Bool := s.toList.all isLegal

theorem isLegalText_iff {s : String} : isLegalText s = true ↔ ∀ c ∈ s.toList, isLegal c = true :=
  List.all_eq_true

theorem isLegalText_append (s t : String) :
    isLegalText (s ++ t) = (isLegalText s && isLegalText t) := by
  rw [isLegalText, String.toList_append, List.all_append, isLegalText, isLegalText]

theorem isLegal_of_isNumeral {c : Char} (h : Number.isNumeral c = true) : isLegal c = true := by
  have hrange := Number.toNat_of_isNumeral h
  simp only [isLegal, Bool.or_eq_true, Bool.and_eq_true, decide_eq_true_eq, beq_iff_eq]
  omega

/-- A number is a legal text. -/
theorem isLegalText_of_isNumeral {s : String} (h : ∀ c ∈ s.toList, Number.isNumeral c = true) :
    isLegalText s = true :=
  isLegalText_iff.mpr fun c hc => isLegal_of_isNumeral (h c hc)

/-! ## Written texts -/

/-- A character is written with legal ones iff it is legal itself. -/
theorem all_escapeChar (c : Char) : (escapeChar c).all isLegal = isLegal c := by
  rw [escapeChar]
  -- one case for each of the five characters, and one for all others
  split
  · next h => rw [h]; decide
  split
  · next h => rw [h]; decide
  split
  · next h => rw [h]; decide
  split
  · next h => rw [h]; decide
  split
  · next h => rw [h]; decide
  · rw [List.all_cons, List.all_nil, Bool.and_true]

theorem all_escape (cs : List Char) : (escape cs).all isLegal = cs.all isLegal := by
  rw [escape, List.all_flatMap]
  exact congrArg (List.all cs) (funext all_escapeChar)

/-! ## Written tokens -/

/-- Whether a document may hold the name and the value of an attribute. -/
def Attribute.isLegal (a : Attribute) : Bool := isLegalText a.name && isLegalText a.value

/-- Whether a document may hold all names, values and texts of a token. -/
def Token.isLegal : Token → Bool
  | .opening name attributes | .empty name attributes =>
    isLegalText name && attributes.all Attribute.isLegal
  | .closing name => isLegalText name
  | .text content | .verbatim content => isLegalText content

theorem Attribute.isLegal_mk (name value : String) :
    Attribute.isLegal ⟨name, value⟩ = (isLegalText name && isLegalText value) := rfl

theorem Attribute.all_chars (a : Attribute) : a.chars.all Markup.isLegal = a.isLegal := by
  have hmarks : Markup.isLegal ' ' = true ∧ Markup.isLegal '=' = true ∧
      Markup.isLegal '"' = true := by decide
  simp only [Attribute.chars, List.all_cons, List.all_append, List.all_nil, all_escape, hmarks,
    Attribute.isLegal, isLegalText, Bool.true_and, Bool.and_true]

theorem Token.all_chars (t : Token) : t.chars.all Markup.isLegal = t.isLegal := by
  have hmarks : Markup.isLegal '<' = true ∧ Markup.isLegal '>' = true ∧
      Markup.isLegal '/' = true := by decide
  have hattributes (attributes : List Attribute) :
      (attributes.flatMap Attribute.chars).all Markup.isLegal =
        attributes.all Attribute.isLegal := by
    rw [List.all_flatMap]
    exact congrArg (List.all attributes) (funext Attribute.all_chars)
  cases t with
  | opening name attributes =>
    simp [Token.chars, Token.isLegal, isLegalText, hattributes, hmarks]
  | closing name => simp [Token.chars, Token.isLegal, isLegalText, hmarks]
  | empty name attributes => simp [Token.chars, Token.isLegal, isLegalText, hattributes, hmarks]
  | text content => exact all_escape content.toList
  | verbatim content => rfl

theorem all_line (tokens : List Token) :
    (line tokens).all Token.isLegal = tokens.all Token.isLegal := by
  rw [line, List.all_append, show [lineEnd].all Token.isLegal = true by decide, Bool.and_true]

theorem all_textLine {name : String} (hname : isLegalText name = true)
    (attributes : List Attribute) (content : String) :
    (textLine name attributes content).all Token.isLegal =
      (attributes.all Attribute.isLegal && isLegalText content) := by
  simp only [textLine, all_line, List.all_cons, List.all_nil, Token.isLegal, hname, Bool.true_and,
    Bool.and_true]

theorem all_emptyLine {name : String} (hname : isLegalText name = true)
    (attributes : List Attribute) :
    (emptyLine name attributes).all Token.isLegal = attributes.all Attribute.isLegal := by
  simp only [emptyLine, all_line, List.all_cons, List.all_nil, Token.isLegal, hname, Bool.true_and,
    Bool.and_true]

/-- A document is legal iff its tokens are. -/
theorem all_render (tokens : List Token) :
    (render tokens).toList.all isLegal = tokens.all Token.isLegal := by
  rw [render, String.toList_ofList, List.all_flatMap]
  exact congrArg (List.all tokens) (funext Token.all_chars)

end LatencyPlot.Markup
