/-
  LatencyPlot.Markup.Token

  A document as a list of tags and texts, and its written form. Texts and the
  values of attributes are escaped when they are written, so that nothing in
  them is markup.
-/
import LatencyPlot.Markup.Escape

namespace LatencyPlot.Markup

/-- A name with a value inside a tag. -/
structure Attribute where
  name : String
  value : String
  deriving DecidableEq, Repr

/-- A piece of a document. -/
inductive Token where
  /-- The tag that begins an element. -/
  | opening (name : String) (attributes : List Attribute)
  /-- The tag that ends an element. -/
  | closing (name : String)
  /-- A tag that is an element by itself. -/
  | empty (name : String) (attributes : List Attribute)
  | text (content : String)
  /-- Markup that is written as it is. -/
  | verbatim (content : String)
  deriving DecidableEq, Repr

/-- An attribute with the blank before it. -/
def Attribute.chars (a : Attribute) : List Char :=
  ' ' :: (a.name.toList ++ '=' :: '"' :: (escape a.value.toList ++ ['"']))

/-- The written form of a token. -/
def Token.chars : Token → List Char
  | .opening name attributes => '<' :: (name.toList ++ attributes.flatMap Attribute.chars ++ ['>'])
  | .closing name => '<' :: '/' :: (name.toList ++ ['>'])
  | .empty name attributes =>
    '<' :: (name.toList ++ attributes.flatMap Attribute.chars ++ ['/', '>'])
  | .text content => escape content.toList
  | .verbatim content => content.toList

/-- The end of a line between tags. -/
def lineEnd : Token := .verbatim "\n"

/-- Tokens on a line of their own. -/
def line (tokens : List Token) : List Token := tokens ++ [lineEnd]

/-- An element that holds a text only, on a line of its own. -/
def textLine (name : String) (attributes : List Attribute) (content : String) : List Token :=
  line [.opening name attributes, .text content, .closing name]

/-- An empty element on a line of its own. -/
def emptyLine (name : String) (attributes : List Attribute) : List Token :=
  line [.empty name attributes]

/-- The written form of a document. -/
def render (tokens : List Token) : String := String.ofList (tokens.flatMap Token.chars)

end LatencyPlot.Markup
