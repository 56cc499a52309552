/-
  LatencyPlot.Proofs.Command.Groups

  A command line as groups of words: the input, an option with its value in one
  of two spellings, or a flag. A value that is a word of its own takes effect
  only with the next group, as does the input; so the state of the reader is
  compared with the draft that it amounts to. Reading a group does to that draft
  what the group says (`readWords_group`), and reading a line of groups gives the
  arguments of the draft that they fill in (`parse_groups`).
-/
import LatencyPlot.Command.Line
import Mathlib.Data.List.Basic
import Mathlib.Data.List.TakeWhile

namespace LatencyPlot.Command

/-! ## Groups of words -/

/-- How an option is put beside its value: with an equals sign between, or as the word before. -/
inductive Spelling where
  | joined
  | apart
  deriving DecidableEq, Repr

/-- The long name of an option. -/
def ValueOption.name : ValueOption → String
  | .out => "out"
  | .svg => "svg"
  | .pdf => "pdf"
  | .title => "title"
  | .xLabel => "x-label"
  | .yLabel => "y-label"
  | .sortBy => "sort-by"
  | .width => "width"
  | .height => "height"

/-- The long name of a flag. -/
def Flag.name : Flag → String
  | .header => "header"
  | .noOpen => "no-open"
  | .help => "help"
  | .version => "version"

/-- Words that belong together. -/
inductive Group where
  | input (path : String)
  | option (option : ValueOption) (text : String) (spelling : Spelling)
  | flag (flag : Flag)
  deriving DecidableEq, Repr

/-- The words of a group. -/
def Group.words : Group → List String
  | .input path => [path]
  | .option o text .joined => ["--" ++ o.name ++ "=" ++ text]
  | .option o text .apart => ["--" ++ o.name, text]
  | .flag f => ["--" ++ f.name]

/-- Whether a word begins like an option. -/
def IsHyphenated (word : String) : Prop := word.toList.head? = some '-'

instance : DecidablePred IsHyphenated := fun _ => inferInstanceAs (Decidable (_ = _))

/-- Whether no word of a group is taken for an option that it is not. -/
def Group.IsLegible : Group → Prop
  | .input path => ¬ IsHyphenated path
  | .option _ text .apart => ¬ IsHyphenated text
  | .option _ _ .joined | .flag _ => True

/-- What a group does to a draft. -/
def Draft.take (d : Draft) : Group → Except UsageError Draft
  | .input path => d.setInput path
  | .option o text _ => d.set o text
  | .flag f => d.raise f

/-! ## Single words -/

/-- Whether a text is the long name of a switch. -/
structure IsLongName (name : String) (switch : Switch) : Prop where
  ne_nil : name.toList ≠ []
  equals : ∀ c ∈ name.toList, (c != '=') = true
  lookup : longNames.lookup name = some switch

theorem ValueOption.isLongName (o : ValueOption) : IsLongName o.name (.value o) := by
  cases o <;> exact ⟨by decide, List.all_eq_true.mp (by decide), by decide⟩

theorem Flag.isLongName (f : Flag) : IsLongName f.name (.flag f) := by
  cases f <;> exact ⟨by decide, List.all_eq_true.mp (by decide), by decide⟩

variable {name word : String} {switch : Switch}

/-- Behind two hyphens and another character there is a long name. -/
theorem Word.read_of_toList {cs : List Char} (h : word.toList = '-' :: '-' :: cs) (hne : cs ≠ []) :
    Word.read word = splitLong cs := by
  obtain ⟨c, cs, rfl⟩ := List.exists_cons_of_ne_nil hne
  simp [Word.read, h]

theorem IsLongName.read (h : IsLongName name switch) :
    Word.read ("--" ++ name) = .long name none := by
  rw [Word.read_of_toList (String.toList_append ..) h.ne_nil, splitLong,
    List.takeWhile_eq_self_iff.mpr h.equals, List.dropWhile_eq_nil_iff.mpr h.equals,
    String.ofList_toList]

theorem IsLongName.read_joined (h : IsLongName name switch) (text : String) :
    Word.read ("--" ++ name ++ "=" ++ text) = .long name (some text) := by
  have hword : ("--" ++ name ++ "=" ++ text).toList =
      '-' :: '-' :: (name.toList ++ '=' :: text.toList) := by
    simp [String.toList_append]
  rw [Word.read_of_toList hword (by simp), splitLong, List.takeWhile_append_of_pos h.equals,
    List.dropWhile_append_of_pos h.equals]
  simp

theorem Word.read_of_not_isHyphenated (h : ¬ IsHyphenated word) : Word.read word = .plain word := by
  rw [IsHyphenated] at h
  rw [Word.read]
  split <;> simp_all

/-! ## Drafts -/

theorem exists_of_map_eq_ok {ε α β : Type} {x : Except ε α} {f : α → β} {b : β}
    (h : x.map f = .ok b) : ∃ a, x = .ok a ∧ f a = b := by
  cases x with
  | error e => cases h
  | ok a => exact ⟨a, rfl, Except.ok.inj h⟩

variable {d d' : Draft}

/-- An option leaves the input as it is. -/
theorem Draft.input_of_set {o : ValueOption} {text : String} (h : d.set o text = .ok d') :
    d'.input = d.input := by
  cases o <;>
    obtain ⟨v, -, rfl⟩ := exists_of_map_eq_ok h <;>
    rfl

/-- A flag leaves the input as it is. -/
theorem Draft.input_of_raise {f : Flag} (h : d.raise f = .ok d') : d'.input = d.input := by
  cases f with
  | header | noOpen =>
    rw [raise] at h
    split at h
    · cases h
    · cases h
      rfl
  | help | version => cases h

/-- The input is given once. -/
theorem Draft.input_of_setInput {path : String} (h : d.setInput path = .ok d') :
    d.input = none ∧ d'.input = some path := by
  obtain ⟨v, hfill, rfl⟩ := exists_of_map_eq_ok h
  cases hplace : d.input with
  | some other =>
    rw [hplace] at hfill
    cases hfill
  | none =>
    rw [hplace, fill, Draft.path] at hfill
    split at hfill
    · cases hfill
    · cases hfill
      exact ⟨rfl, rfl⟩

/-! ## Reading groups -/

/-- Whether what has been read comes to a draft once the pending argument takes effect. -/
structure Progress.AmountsTo (p : Progress) (d : Draft) : Prop where
  resolve : p.resolve = .ok d
  hasInput : p.hasInput = d.input.isSome

variable {p : Progress} {g : Group} {groups : List Group}

theorem Progress.amountsTo_start : Progress.start.AmountsTo .empty := ⟨rfl, rfl⟩

/-- Without an option that waits for its value, a word that is no option is an input. -/
theorem Progress.AmountsTo.plain (hp : p.AmountsTo d) (text : String) :
    p.plain text = p.input text := by
  rw [Progress.plain]
  split
  · next o hpending =>
    -- an option without its value takes no effect, so there would be no draft
    have hresolve := hp.resolve
    rw [Progress.resolve, hpending] at hresolve
    cases hresolve
  · rfl

theorem Progress.long_option (p : Progress) (o : ValueOption) (value : Option String) :
    p.long o.name value = p.option o value := by
  simp only [long, o.isLongName.lookup]

theorem Progress.long_flag (p : Progress) (f : Flag) : p.long f.name none = p.flag f := by
  simp only [long, f.isLongName.lookup]

theorem readWords_input {path : String} (hp : p.AmountsTo d) (hlegible : ¬ IsHyphenated path)
    (hfree : d.input = none) (words : List String) :
    readWords p (path :: words) = readWords ⟨d, .input path, true⟩ words := by
  have hfirst : p.hasInput = false := by rw [hp.hasInput, hfree, Option.isSome_none]
  rw [readWords, Word.read_of_not_isHyphenated hlegible]
  simp [hp.plain, Progress.input, hfirst, hp.resolve, Except.map, bind, Except.bind]

theorem readWords_joined {o : ValueOption} {text : String} (hp : p.AmountsTo d)
    (hd : d.set o text = .ok d') (words : List String) :
    readWords p (("--" ++ o.name ++ "=" ++ text) :: words) =
      readWords ⟨d', .none, p.hasInput⟩ words := by
  rw [readWords, o.isLongName.read_joined]
  simp [Progress.long_option, Progress.option, hp.resolve, hd, bind, Except.bind, pure,
    Except.pure]

theorem readWords_apart {o : ValueOption} {text : String} (hp : p.AmountsTo d)
    (hlegible : ¬ IsHyphenated text) (words : List String) :
    readWords p (("--" ++ o.name) :: text :: words) =
      readWords ⟨d, .option o (some text), p.hasInput⟩ words := by
  rw [readWords, o.isLongName.read]
  -- the name leaves the option waiting, and the next word is its value
  simp [Progress.long_option, Progress.option, hp.resolve, bind, Except.bind, pure, Except.pure,
    readWords, Word.read_of_not_isHyphenated hlegible, Progress.plain]

theorem readWords_flag {f : Flag} (hp : p.AmountsTo d) (hd : d.raise f = .ok d')
    (words : List String) :
    readWords p (("--" ++ f.name) :: words) = readWords ⟨d', .none, p.hasInput⟩ words := by
  rw [readWords, f.isLongName.read]
  simp [Progress.long_flag, Progress.flag, hp.resolve, hd, bind, Except.bind, pure, Except.pure]

/-- **Step.** A group changes the draft that has been read as it says. -/
theorem readWords_group (hp : p.AmountsTo d) (hlegible : g.IsLegible) (hd : d.take g = .ok d') :
    ∃ p', p'.AmountsTo d' ∧ ∀ words, readWords p (g.words ++ words) = readWords p' words := by
  cases g with
  | input path =>
    obtain ⟨hfree, hgiven⟩ := Draft.input_of_setInput hd
    -- the input is pending, and the draft has it once it takes effect
    have hinput : true = d'.input.isSome := by rw [hgiven, Option.isSome_some]
    exact ⟨⟨d, .input path, true⟩, ⟨hd, hinput⟩, readWords_input hp hlegible hfree⟩
  | option o text spelling =>
    have hinput : p.hasInput = d'.input.isSome := by rw [hp.hasInput, Draft.input_of_set hd]
    cases spelling with
    | joined => exact ⟨⟨d', .none, p.hasInput⟩, ⟨rfl, hinput⟩, readWords_joined hp hd⟩
    | apart =>
      exact ⟨⟨d, .option o (some text), p.hasInput⟩, ⟨hd, hinput⟩, readWords_apart hp hlegible⟩
  | flag f =>
    have hinput : p.hasInput = d'.input.isSome := by rw [hp.hasInput, Draft.input_of_raise hd]
    exact ⟨⟨d', .none, p.hasInput⟩, ⟨rfl, hinput⟩, readWords_flag hp hd⟩

/-- **Run.** Groups change it one after the other. -/
theorem readWords_groups (hp : p.AmountsTo d) (hlegible : ∀ g ∈ groups, g.IsLegible)
    (hd : groups.foldlM Draft.take d = .ok d') :
    ∃ p', p'.AmountsTo d' ∧ readWords p (groups.flatMap Group.words) = .ok p' := by
  -- The state of the reader depends on spellings and on what is pending. The draft that it comes to
  -- does not, and carries the induction.
  induction groups generalizing p d with
  | nil =>
    cases hd
    exact ⟨p, hp, rfl⟩
  | cons g groups ih =>
    obtain ⟨hg, hgroups⟩ := List.forall_mem_cons.mp hlegible
    rw [List.foldlM_cons] at hd
    cases htake : d.take g with
    | error e =>
      rw [htake] at hd
      cases hd
    | ok middle =>
      rw [htake] at hd
      obtain ⟨q, hq, hread⟩ := readWords_group hp hg htake
      rw [List.flatMap_cons, hread]
      exact ih hq hgroups hd

/-- A line of groups gives the arguments of the draft that they fill in. -/
theorem parse_groups (hlegible : ∀ g ∈ groups, g.IsLegible)
    (hd : groups.foldlM Draft.take .empty = .ok d) :
    parse (groups.flatMap Group.words) = d.finish := by
  obtain ⟨p, hp, hread⟩ := readWords_groups Progress.amountsTo_start hlegible hd
  rw [parse, hread]
  show p.resolve >>= Draft.finish = d.finish
  rw [hp.resolve]
  rfl

end LatencyPlot.Command
