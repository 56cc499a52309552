/-
  LatencyPlot.Proofs.Markup.Reader

  A document as its readers see it. A tag goes from a `<` to the next `>`, and
  what stands between tags is text. Inside a tag the attributes stand one after
  the other, each value between quotes. Five references stand for characters,
  and each is read once.
-/
import LatencyPlot.Markup.Token

namespace LatencyPlot.Markup

/-! ## References -/

/-- What a text with references stands for. -/
def unescape : List Char → List Char
  | '&' :: 'a' :: 'm' :: 'p' :: ';' :: cs => '&' :: unescape cs
  | '&' :: 'l' :: 't' :: ';' :: cs => '<' :: unescape cs
  | '&' :: 'g' :: 't' :: ';' :: cs => '>' :: unescape cs
  | '&' :: 'q' :: 'u' :: 'o' :: 't' :: ';' :: cs => '"' :: unescape cs
  | '&' :: '#' :: '3' :: '9' :: ';' :: cs => '\'' :: unescape cs
  | c :: cs => c :: unescape cs
  | [] => []

/-! ## Tags and texts -/

/-- A tag and the text between it and the next one. -/
structure Chunk (α : Type) where
  tag : α
  text : List Char
  deriving DecidableEq, Repr

/-- The text before the first tag, and the tags in their order. -/
structure Layout (α : Type) where
  lead : List Char
  chunks : List (Chunk α)
  deriving DecidableEq, Repr

namespace Layout

variable {α : Type}

/-- Text before the rest of a document. -/
def before (text : List Char) (l : Layout α) : Layout α := ⟨text ++ l.lead, l.chunks⟩

/-- A tag before the rest of a document, whose first text it takes. -/
def tagged (tag : α) (l : Layout α) : Layout α := ⟨[], ⟨tag, l.lead⟩ :: l.chunks⟩

/-- The tags alone. -/
def tags (l : Layout α) : List α := l.chunks.map Chunk.tag

end Layout

mutual

/-- The tags of a document, each as the characters between its brackets. A tag that does not end is
    none. -/
def scan : List Char → Option (Layout (List Char))
  | [] => some ⟨[], []⟩
  | c :: cs => if c = '<' then scanTag [] cs else (scan cs).map (.before [c])

/-- The rest of a document from within a tag, some characters of which have been read. -/
def scanTag (read : List Char) : List Char → Option (Layout (List Char))
  | [] => none
  | c :: cs => if c = '>' then (scan cs).map (.tagged read) else scanTag (read ++ [c]) cs

end

/-! ## Inside a tag -/

/-- Whether a character can be part of a name. -/
def isNameChar (c : Char) : Bool := !([' ', '/', '=', '"', '<', '>', '!'].contains c)

/-- The attributes that the parts of a tag between its quotes hold, and whether it ends in a
    slash. -/
def readAttributes : List (List Char) → Option (List Attribute × Bool)
  | [[]] => some ([], false)
  | [['/']] => some ([], true)
  | (' ' :: key) :: value :: rest =>
    let name := key.takeWhile isNameChar
    if name ≠ [] ∧ key.dropWhile isNameChar = ['='] then
      (readAttributes rest).map fun (attributes, isEmpty) =>
        (⟨String.ofList name, String.ofList (unescape value)⟩ :: attributes, isEmpty)
    else none
  | _ => none

/-- A tag from the characters between its brackets. A declaration is kept as it is. -/
def readTag : List Char → Option Token
  | '!' :: cs => some (.verbatim (String.ofList ('<' :: '!' :: (cs ++ ['>']))))
  | '/' :: cs => if cs ≠ [] ∧ cs.all isNameChar then some (.closing (String.ofList cs)) else none
  | cs =>
    let name := cs.takeWhile isNameChar
    if name = [] then none
    else (readAttributes ((cs.dropWhile isNameChar).splitOn '"')).map fun (attributes, isEmpty) =>
      if isEmpty then .empty (String.ofList name) attributes
      else .opening (String.ofList name) attributes

/-- The tags of a document with what is in them. -/
def read (cs : List Char) : Option (Layout Token) := do
  let raw ← scan cs
  let chunks ← raw.chunks.mapM fun chunk => (readTag chunk.tag).map (⟨·, chunk.text⟩)
  return ⟨raw.lead, chunks⟩

end LatencyPlot.Markup
