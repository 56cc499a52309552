/-
  LatencyPlot.Plot.Portable

  Why a drawing cannot be made a portable document. Making one is the work of
  a converter outside this library, which reads the text of the drawing; the
  converter here stands in for it where none is at hand. It refuses what no
  converter takes, and all else it makes a document without marks.
-/
import LatencyPlot.Markup.Legal
import LatencyPlot.Number.Reader
import LatencyPlot.Text.Quoted

namespace LatencyPlot.Portable

/-- Why a drawing cannot be made a portable document. -/
inductive ConversionError where
  /-- It cannot be read as a drawing, for a reason in the words of the converter. -/
  | unreadable (reason : String)
  /-- It was read, but it cannot be converted. -/
  | failed (reason : String)
  deriving DecidableEq, Repr

/-- The messages of a conversion error, the cause last. -/
def ConversionError.messages : ConversionError → List String
  | .unreadable reason => ["plot is not valid SVG", reason]
  | .failed reason => ["PDF conversion: " ++ reason]

/-- Makes the text of a drawing the bytes of a portable document. -/
abbrev Converter := String → Except ConversionError (List UInt8)

/-- Whether a converter tells a text with an illegal character from a drawing, as all that read
    documents do. -/
def Converter.IsStrict (convert : Converter) : Prop :=
  ∀ drawing : String, (∃ c ∈ drawing.toList, Markup.isLegal c = false) →
    ∃ reason, convert drawing = .error (.unreadable reason)

/-! ## A stand-in -/

/-- Half of the least positive number in single precision; it counts as zero there. -/
def shortestSide : Float := 7.006492321624085e-46

/-- Half a step above the greatest number in single precision; it counts as infinite there. -/
def longestSide : Float := 3.4028235677973366e38

/-- Whether a page can have a side. Pages are measured in single precision, where a side must be
    neither zero nor infinite. -/
def isSide (x : Float) : Bool := shortestSide < x && x < longestSide

/-- The value of the first attribute with a name. -/
def attribute? (name drawing : String) : Option String :=
  match drawing.splitOn (" " ++ name ++ "=\"") with
  | _ :: rest :: _ => (rest.splitOn "\"").head?
  | _ => none

/-- Whether a drawing has a side that a page can have. A side that is no finite number counts as
    one of ordinary length. -/
def hasSide (name drawing : String) : Bool :=
  match (attribute? name drawing).bind fun text => Number.readFinite? text.toList with
  | some x => isSide x
  | none => true

/-- Why a text is refused at a character. -/
def illegalReason (c : Char) (place : Text.Position) : String :=
  "SVG data parsing failed cause a non-XML character '" ++ String.ofList (Text.escapeChar c) ++
    "' found at " ++ place.text

/-- A converter that makes empty documents. -/
def standIn : Converter := fun drawing =>
  match Markup.firstIllegal? drawing.toList with
  | some (c, place) => .error (.unreadable (illegalReason c place))
  | none =>
    if hasSide "width" drawing && hasSide "height" drawing then
      .ok "%PDF-1.4\n%%EOF\n".toUTF8.toList
    else .error (.unreadable "SVG has an invalid size")

theorem isStrict_standIn : standIn.IsStrict := by
  rintro drawing ⟨c, hmem, hc⟩
  rw [standIn]
  cases hfirst : Markup.firstIllegal? drawing.toList with
  | some found => exact ⟨_, rfl⟩
  | none =>
    rw [Markup.firstIllegal?_eq_none_iff.mp hfirst c hmem] at hc
    cases hc

end LatencyPlot.Portable
