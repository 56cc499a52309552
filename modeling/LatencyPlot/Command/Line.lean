/-
  LatencyPlot.Command.Line

  Reading a command line from left to right. A value may follow its option
  after an equals sign or as the next word; words that begin with a hyphen are
  options, except a lone hyphen and all words after two hyphens. A value that
  is a word of its own, and the input, take effect when the next argument that
  is known begins; so an unknown one is reported first.
-/
import LatencyPlot.Command.Arguments

namespace LatencyPlot.Command

/-- The kinds of words on a command line. -/
inductive Word where
  /-- Two hyphens: only inputs follow. -/
  | escape
  /-- A long name, with what follows its equals sign. -/
  | long (name : String) (value : Option String)
  /-- A hyphen with short names. -/
  | short (names : List Char)
  /-- A value or an input. -/
  | plain (text : String)
  deriving DecidableEq, Repr

/-- A long name and its value. -/
def splitLong (cs : List Char) : Word :=
  let name := String.ofList (cs.takeWhile (· != '='))
  match cs.dropWhile (· != '=') with
  | [] => .long name none
  | _ :: value => .long name (some (String.ofList value))

/-- The kind of a word. -/
def Word.read (text : String) : Word :=
  match text.toList with
  | ['-', '-'] => .escape
  | '-' :: '-' :: cs => splitLong cs
  | '-' :: c :: cs => .short (c :: cs)
  | _ => .plain text

/-- An argument that has been begun and has not taken effect. -/
inductive Pending where
  | none
  | option (option : ValueOption) (value : Option String)
  | input (value : String)
  deriving DecidableEq, Repr

/-- How far a command line has been read. -/
structure Progress where
  draft : Draft
  pending : Pending
  /-- Whether an input has been given. -/
  hasInput : Bool

namespace Progress

/-- The state before the first word. -/
def start : Progress := ⟨.empty, .none, false⟩

/-- Lets the pending argument take effect. -/
def resolve (p : Progress) : Except UsageError Draft :=
  match p.pending with
  | .none => .ok p.draft
  | .option _ none => .error .invalidValue
  | .option option (some text) => p.draft.set option text
  | .input text => p.draft.setInput text

/-- Reads an input. -/
def input (p : Progress) (text : String) : Except UsageError Progress :=
  if p.hasInput then .error .unknownArgument
  else p.resolve.map fun d => ⟨d, .input text, true⟩

/-- Reads a word that is no option: the value that an option waits for, else an input. -/
def plain (p : Progress) (text : String) : Except UsageError Progress :=
  match p.pending with
  | .option option none => .ok { p with pending := .option option (some text) }
  | _ => p.input text

/-- Reads a flag. -/
def flag (p : Progress) (flag : Flag) : Except UsageError Progress := do
  let d ← p.resolve
  return { p with draft := ← d.raise flag, pending := .none }

/-- Reads an option and the value after its equals sign. -/
def option (p : Progress) (option : ValueOption) (value : Option String) :
    Except UsageError Progress := do
  let d ← p.resolve
  match value with
  | none => return { p with draft := d, pending := .option option none }
  | some text => return { p with draft := ← d.set option text, pending := .none }

/-- Reads a long name. -/
def long (p : Progress) (name : String) (value : Option String) : Except UsageError Progress :=
  match longNames.lookup name, value with
  | none, _ => .error .unknownArgument
  | some (.value option), value => p.option option value
  | some (.flag flag), none => p.flag flag
  | some (.flag _), some _ => .error .tooManyValues

/-- Reads short names. -/
def short (p : Progress) : List Char → Except UsageError Progress
  | [] => .ok p
  | c :: cs =>
    match shortNames.lookup c with
    | none => .error .unknownArgument
    | some flag => do
      let p ← p.flag flag
      p.short cs

end Progress

/-- Reads the words after two hyphens. -/
def readInputs (p : Progress) : List String → Except UsageError Progress
  | [] => .ok p
  | word :: words => do
    let p ← p.input word
    readInputs p words

/-- Reads words. -/
def readWords (p : Progress) : List String → Except UsageError Progress
  | [] => .ok p
  | word :: words =>
    match Word.read word with
    | .escape => readInputs p words
    | .long name value => do
      let p ← p.long name value
      readWords p words
    | .short names => do
      let p ← p.short names
      readWords p words
    | .plain text => do
      let p ← p.plain text
      readWords p words

/-- The arguments on a command line. -/
def parse (words : List String) : Except UsageError Arguments := do
  let p ← readWords .start words
  let d ← p.resolve
  d.finish

end LatencyPlot.Command
