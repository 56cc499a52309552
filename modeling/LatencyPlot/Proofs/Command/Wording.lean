/-
  LatencyPlot.Proofs.Command.Wording

  Arguments put into words, and read back. While a command line is read, the
  draft is a part of the one that the whole line stands for, and which part it
  is depends on the groups that have been read, not on their order or spelling
  (`Draft.take_restrict`). So whatever the order of the groups and the spelling
  of each option, what is read in the end is what was written (`parse_wording`).
-/
import LatencyPlot.Proofs.Command.Groups

namespace LatencyPlot.Command

/-! ## Parts of a draft -/

/-- What a group says something about. -/
inductive Place where
  | input
  | option (option : ValueOption)
  | flag (flag : Flag)
  deriving DecidableEq, Repr

/-- What this group says something about. -/
def Group.place : Group → Place
  | .input _ => .input
  | .option o _ _ => .option o
  | .flag f => .flag f

namespace Draft

/-- The part of a draft at some places. -/
def restrict (d : Draft) (places : List Place) : Draft where
  input := if .input ∈ places then d.input else none
  out := if .option .out ∈ places then d.out else none
  svg := if .option .svg ∈ places then d.svg else none
  pdf := if .option .pdf ∈ places then d.pdf else none
  title := if .option .title ∈ places then d.title else none
  xLabel := if .option .xLabel ∈ places then d.xLabel else none
  yLabel := if .option .yLabel ∈ places then d.yLabel else none
  sortBy := if .option .sortBy ∈ places then d.sortBy else none
  width := if .option .width ∈ places then d.width else none
  height := if .option .height ∈ places then d.height else none
  header := if .flag .header ∈ places then d.header else false
  noOpen := if .flag .noOpen ∈ places then d.noOpen else false

/-- Whether a draft has what a group puts into a place that is free. -/
def Has (d : Draft) : Group → Prop
  | .input text => fill none (path text) = .ok d.input
  | .option .out text _ => fill none (path text) = .ok d.out
  | .option .svg text _ => fill none (path text) = .ok d.svg
  | .option .pdf text _ => fill none (path text) = .ok d.pdf
  | .option .title text _ => fill none (.ok text) = .ok d.title
  | .option .xLabel text _ => fill none (.ok text) = .ok d.xLabel
  | .option .yLabel text _ => fill none (.ok text) = .ok d.yLabel
  | .option .sortBy text _ => fill none (sortKey text) = .ok d.sortBy
  | .option .width text _ => fill none (size text) = .ok d.width
  | .option .height text _ => fill none (size text) = .ok d.height
  | .flag .header => d.header = true
  | .flag .noOpen => d.noOpen = true
  | .flag .help | .flag .version => False

variable {d : Draft} {g : Group} {groups : List Group} {places : List Place}

theorem restrict_nil (d : Draft) : d.restrict [] = .empty := rfl

/-- A group adds its place to the part of the draft that has been filled in. -/
theorem take_restrict (hhas : d.Has g) (hfree : g.place ∉ places) :
    (d.restrict places).take g = .ok (d.restrict (g.place :: places)) := by
  -- one case for each place: it is free, the value goes there, and all other places are kept
  cases g with
  | input text =>
    rw [Group.place] at hfree
    simp only [Has] at hhas
    simp [take, setInput, restrict, Group.place, hfree, hhas, Except.map]
  | option o text spelling =>
    rw [Group.place] at hfree
    cases o <;>
      simp only [Has] at hhas <;>
      simp [take, set, restrict, Group.place, hfree, hhas, Except.map]
  | flag f =>
    rw [Group.place] at hfree
    cases f with
    | header | noOpen =>
      simp only [Has] at hhas
      simp [take, raise, restrict, Group.place, hfree, hhas]
    | help | version => exact hhas.elim

/-- Whether a draft has nothing at a place. -/
def IsFree (d : Draft) : Place → Prop
  | .input => d.input = none
  | .option .out => d.out = none
  | .option .svg => d.svg = none
  | .option .pdf => d.pdf = none
  | .option .title => d.title = none
  | .option .xLabel => d.xLabel = none
  | .option .yLabel => d.yLabel = none
  | .option .sortBy => d.sortBy = none
  | .option .width => d.width = none
  | .option .height => d.height = none
  | .flag .header => d.header = false
  | .flag .noOpen => d.noOpen = false
  | .flag .help | .flag .version => True

theorem ite_eq_left_of_not {α : Type} {c : Prop} [Decidable c] {a b : α} (h : ¬ c → a = b) :
    (if c then a else b) = a :=
  ite_eq_left_iff.mpr fun hc => (h hc).symm

/-- A draft is filled in when no place is left at which it has something. -/
theorem restrict_eq_self (h : ∀ place ∉ places, d.IsFree place) : d.restrict places = d := by
  rw [restrict, ite_eq_left_of_not (h .input), ite_eq_left_of_not (h (.option .out)),
    ite_eq_left_of_not (h (.option .svg)), ite_eq_left_of_not (h (.option .pdf)),
    ite_eq_left_of_not (h (.option .title)), ite_eq_left_of_not (h (.option .xLabel)),
    ite_eq_left_of_not (h (.option .yLabel)), ite_eq_left_of_not (h (.option .sortBy)),
    ite_eq_left_of_not (h (.option .width)), ite_eq_left_of_not (h (.option .height)),
    ite_eq_left_of_not (h (.flag .header)), ite_eq_left_of_not (h (.flag .noOpen))]

/-- Groups about different places fill in the part of the draft that is about their places. -/
theorem foldlM_take_restrict (hhas : ∀ g ∈ groups, d.Has g)
    (hnodup : (groups.map Group.place).Nodup)
    (hfree : ∀ g ∈ groups, g.place ∉ places) :
    groups.foldlM take (d.restrict places) =
      .ok (d.restrict ((groups.map Group.place).reverse ++ places)) := by
  induction groups generalizing places with
  | nil => rfl
  | cons g groups ih =>
    obtain ⟨hg, hgroups⟩ := List.forall_mem_cons.mp hhas
    obtain ⟨hplace, hplaces⟩ := List.forall_mem_cons.mp hfree
    rw [List.map_cons, List.nodup_cons] at hnodup
    -- no later group is about the place that this one takes
    have hrest : ∀ g' ∈ groups, g'.place ∉ g.place :: places := fun g' hg' => by
      rw [List.mem_cons, not_or]
      exact ⟨fun heq => hnodup.1 (heq ▸ List.mem_map_of_mem hg'), hplaces g' hg'⟩
    rw [List.foldlM_cons, take_restrict hg hplace, List.map_cons, List.reverse_cons,
      List.append_assoc, List.singleton_append]
    exact ih hgroups hnodup.2 hrest

/-- Groups about all places at which a draft has something fill it in, in whatever order they
    stand. -/
theorem foldlM_take (hhas : ∀ g ∈ groups, d.Has g) (hnodup : (groups.map Group.place).Nodup)
    (hall : ∀ place ∉ groups.map Group.place, d.IsFree place) :
    groups.foldlM take .empty = .ok d := by
  rw [← restrict_nil d, foldlM_take_restrict hhas hnodup (fun _ _ => List.not_mem_nil),
    List.append_nil, restrict_eq_self]
  exact fun place hplace => hall place (by rwa [List.mem_reverse] at hplace)

end Draft

/-! ## Arguments in words -/

/-- The name of a sort key. -/
def sortName : SortKey → String
  | .input => "input"
  | .label => "label"
  | .median => "median"

/-- Whether a flag is among the arguments. -/
def Arguments.isRaised (a : Arguments) : Flag → Bool
  | .header => a.header
  | .noOpen => a.noOpen
  | .help | .version => false

/-- Whether the paths among the arguments can be written: none is empty, and the input, which has no
    name before it, is not taken for an option. -/
structure Arguments.HasPaths (a : Arguments) : Prop where
  input : a.input ≠ ""
  legible : ¬ IsHyphenated a.input
  out : a.out ≠ some ""
  svg : a.svg ≠ some ""
  pdf : a.pdf ≠ some ""

/-- Whether a value is what the text for its option stands for; where the option is left out it
    is the default. -/
def IsGiven {α : Type} (stands : String → α → Prop) (default : α) (text : Option String)
    (value : α) : Prop :=
  text.elim (value = default) (stands · value)

theorem IsGiven.getD {α : Type} {stands : String → α → Prop} {default value : α}
    {text : Option String} (h : IsGiven stands default text value) :
    (text.map fun _ => value).getD default = value := by
  cases text with
  | none => exact Eq.symm h
  | some text => rfl

/-- A value that is given is put into a free place. -/
theorem IsGiven.fill {α : Type} {stands : String → α → Prop} {default value : α}
    {text? : Option String} {text : String} {reading : String → Except UsageError α}
    (h : IsGiven stands default text? value)
    (hreading : ∀ {text value}, stands text value → reading text = .ok value)
    (htext : text? = some text) :
    Draft.fill none (reading text) = .ok (text?.map fun _ => value) := by
  subst htext
  rw [hreading h]
  rfl

/-- How arguments are put into words: the texts for the options that are not left out, and how each
    is put beside its option. -/
structure Wording where
  text : ValueOption → Option String
  spelling : ValueOption → Spelling

namespace Wording

/-- Whether a wording is one for some arguments. -/
structure Tells (w : Wording) (a : Arguments) : Prop where
  out : a.out = w.text .out
  svg : a.svg = w.text .svg
  pdf : a.pdf = w.text .pdf
  title : a.title = w.text .title
  xLabel : IsGiven Eq defaultXLabel (w.text .xLabel) a.xLabel
  yLabel : IsGiven Eq defaultYLabel (w.text .yLabel) a.yLabel
  sortBy : IsGiven (fun text key => text = sortName key) .input (w.text .sortBy) a.sortBy
  width : IsGiven (fun text x => Number.read? text.toList = some x) (Float.ofNat defaultWidth)
    (w.text .width) a.width
  height : IsGiven (fun text x => Number.read? text.toList = some x) (Float.ofNat defaultHeight)
    (w.text .height) a.height
  legible : ∀ o text, w.text o = some text → w.spelling o = .apart → ¬ IsHyphenated text

/-- The group for a place, unless it is left out. -/
def group? (w : Wording) (a : Arguments) : Place → Option Group
  | .input => some (.input a.input)
  | .option o => (w.text o).map (.option o · (w.spelling o))
  | .flag f => if a.isRaised f then some (.flag f) else none

/-- The places on a command line. -/
def places : List Place := [
  .input, .option .out, .option .svg, .option .pdf, .option .title, .option .xLabel,
  .option .yLabel, .option .sortBy, .option .width, .option .height, .flag .header, .flag .noOpen]

/-- The groups for some arguments: the input, the options that are not left out, and the flags that
    are raised. -/
def groups (w : Wording) (a : Arguments) : List Group := places.filterMap (w.group? a)

/-- The draft that the groups fill in. -/
def draft (w : Wording) (a : Arguments) : Draft where
  input := some a.input
  out := a.out
  svg := a.svg
  pdf := a.pdf
  title := a.title
  xLabel := (w.text .xLabel).map fun _ => a.xLabel
  yLabel := (w.text .yLabel).map fun _ => a.yLabel
  sortBy := (w.text .sortBy).map fun _ => a.sortBy
  width := (w.text .width).map fun _ => a.width
  height := (w.text .height).map fun _ => a.height
  header := a.header
  noOpen := a.noOpen

variable {w : Wording} {a : Arguments} {g : Group} {place : Place}

/-! ### The groups -/

theorem place_of_group? (h : w.group? a place = some g) : g.place = place := by
  cases place with
  | input =>
    cases h
    rfl
  | option o =>
    obtain ⟨text, -, rfl⟩ := Option.map_eq_some_iff.mp h
    rfl
  | flag f =>
    rw [group?] at h
    split at h
    · cases h
      rfl
    · cases h

theorem mem_places_of_group? (h : w.group? a place = some g) : place ∈ places := by
  cases place with
  | input => decide
  | option o => cases o <;> decide
  | flag f =>
    cases f with
    | header | noOpen => decide
    | help | version => cases h

theorem mem_groups_iff : g ∈ w.groups a ↔ w.group? a g.place = some g := by
  rw [groups, List.mem_filterMap]
  constructor
  · rintro ⟨place, -, h⟩
    rwa [place_of_group? h]
  · exact fun h => ⟨g.place, mem_places_of_group? h, h⟩

/-- The groups are about the places that are not left out, each once. -/
theorem map_place_groups (w : Wording) (a : Arguments) :
    (w.groups a).map Group.place = places.filter fun place => (w.group? a place).isSome := by
  rw [groups, List.map_filterMap, ← List.filterMap_eq_filter]
  refine List.filterMap_congr fun place _ => ?_
  cases h : w.group? a place with
  | none => simp [Option.guard, h]
  | some g => simp [Option.guard, h, place_of_group? h]

theorem nodup_places_groups (w : Wording) (a : Arguments) :
    ((w.groups a).map Group.place).Nodup := by
  have hplaces : places.Nodup := by decide
  rw [map_place_groups]
  exact hplaces.filter _

theorem group?_eq_none_of_not_mem (h : place ∉ (w.groups a).map Group.place) :
    w.group? a place = none := by
  rw [map_place_groups, List.mem_filter] at h
  cases hg : w.group? a place with
  | none => rfl
  | some g => exact absurd ⟨mem_places_of_group? hg, by rw [hg]; rfl⟩ h

theorem isFree_draft (hw : w.Tells a) (h : w.group? a place = none) : (w.draft a).IsFree place := by
  cases place with
  | input => cases h
  | option o =>
    -- without a text there is no value: the paths and the title are their texts
    have htext : w.text o = none := Option.map_eq_none_iff.mp h
    cases o <;> simp [Draft.IsFree, draft, htext, hw.out, hw.svg, hw.pdf, hw.title]
  | flag f =>
    have hraised : a.isRaised f = false := by
      rw [group?] at h
      split at h
      · cases h
      · next hf => simpa using hf
    cases f with
    | header | noOpen => exact hraised
    | help | version => trivial

/-! ### What the groups say -/

theorem fill_path {text : String} {value : Option String} (htext : value = some text)
    (hne : value ≠ some "") : Draft.fill none (Draft.path text) = .ok value := by
  subst htext
  rw [Draft.path, if_neg fun h => hne (congrArg some h)]
  rfl

theorem sortKey_of_eq_sortName {text : String} {key : SortKey} (h : text = sortName key) :
    Draft.sortKey text = .ok key := by
  subst h
  cases key <;> rfl

theorem size_of_read? {text : String} {x : Float} (h : Number.read? text.toList = some x) :
    Draft.size text = .ok x := by
  rw [Draft.size, h]

theorem has_draft (ha : a.HasPaths) (hw : w.Tells a) (h : g ∈ w.groups a) : (w.draft a).Has g := by
  rw [mem_groups_iff] at h
  cases g with
  | input path =>
    cases h
    exact fill_path rfl fun heq => ha.input (Option.some.inj heq)
  | option o text spelling =>
    obtain ⟨text', htext, heq⟩ := Option.map_eq_some_iff.mp h
    cases heq
    -- paths must not be empty, the other texts need only stand for their values
    cases o with
    | out => exact fill_path (hw.out.trans htext) ha.out
    | svg => exact fill_path (hw.svg.trans htext) ha.svg
    | pdf => exact fill_path (hw.pdf.trans htext) ha.pdf
    | title => exact congrArg Except.ok (hw.title.trans htext).symm
    | xLabel => exact hw.xLabel.fill (fun h => congrArg Except.ok h) htext
    | yLabel => exact hw.yLabel.fill (fun h => congrArg Except.ok h) htext
    | sortBy => exact hw.sortBy.fill sortKey_of_eq_sortName htext
    | width => exact hw.width.fill size_of_read? htext
    | height => exact hw.height.fill size_of_read? htext
  | flag f =>
    have hraised : a.isRaised f = true := by
      rw [Group.place, group?] at h
      split at h
      · assumption
      · cases h
    cases f with
    | header | noOpen => exact hraised
    | help | version => cases hraised

theorem isLegible_of_mem_groups (ha : a.HasPaths) (hw : w.Tells a) (h : g ∈ w.groups a) :
    g.IsLegible := by
  rw [mem_groups_iff] at h
  cases g with
  | input path =>
    cases h
    exact ha.legible
  | option o text spelling =>
    obtain ⟨text', htext, heq⟩ := Option.map_eq_some_iff.mp h
    cases heq
    cases hspelling : w.spelling o with
    | joined => trivial
    | apart => exact hw.legible o text htext hspelling
  | flag f => trivial

/-! ### What is read of them -/

/-- The groups fill in their draft in every order. -/
theorem foldlM_take_of_perm {groups : List Group} (ha : a.HasPaths) (hw : w.Tells a)
    (hperm : groups.Perm (w.groups a)) : groups.foldlM Draft.take .empty = .ok (w.draft a) := by
  have hplaces : (groups.map Group.place).Perm ((w.groups a).map Group.place) :=
    hperm.map Group.place
  refine Draft.foldlM_take (fun g hg => has_draft ha hw (hperm.mem_iff.mp hg)) ?_ ?_
  · exact hplaces.nodup_iff.mpr (nodup_places_groups w a)
  · intro place hplace
    rw [hplaces.mem_iff] at hplace
    exact isFree_draft hw (group?_eq_none_of_not_mem hplace)

theorem finish_draft (hw : w.Tells a) : (w.draft a).finish = .ok a := by
  rw [Draft.finish]
  show Except.ok _ = _
  -- an option that is left out has its default, and one that is not has its value
  simp only [draft, hw.xLabel.getD, hw.yLabel.getD, hw.sortBy.getD, hw.width.getD, hw.height.getD]

end Wording

/-- **A command line reads back as the arguments that it was written for.** Each option that is
    written may be joined to its value or stand apart from it, a value that begins with a hyphen
    only the former, and the groups may stand in any order: what is read are the arguments, with
    the defaults where options are left out. -/
theorem parse_wording {w : Wording} {a : Arguments} {groups : List Group} (ha : a.HasPaths)
    (hw : w.Tells a) (hperm : groups.Perm (w.groups a)) :
    parse (groups.flatMap Group.words) = .ok a := by
  have hlegible : ∀ g ∈ groups, g.IsLegible := fun g hg =>
    Wording.isLegible_of_mem_groups ha hw (hperm.mem_iff.mp hg)
  rw [parse_groups hlegible (Wording.foldlM_take_of_perm ha hw hperm), Wording.finish_draft hw]

/-- Arguments with a title that looks like an option, an empty label, and a width of their own. -/
def shuffledArguments : Arguments where
  input := "runs.csv"
  out := none
  svg := none
  pdf := some "plot.pdf"
  title := some "--sort-by=label"
  xLabel := ""
  yLabel := defaultYLabel
  sortBy := .median
  width := Float.ofNat 1000
  height := Float.ofNat defaultHeight
  header := false
  noOpen := true

/-- A wording of them in both spellings. -/
def shuffledWording : Wording where
  text := fun
    | .pdf => some "plot.pdf"
    | .title => some "--sort-by=label"
    | .xLabel => some ""
    | .sortBy => some "median"
    | .width => some "1e3"
    | .out | .svg | .yLabel | .height => none
  spelling := fun
    | .xLabel | .sortBy | .width => .apart
    | _ => .joined

theorem parse_wording_shuffled :
    shuffledArguments.HasPaths ∧ shuffledWording.Tells shuffledArguments ∧
    parse ["--width", "1e3", "--title=--sort-by=label", "--x-label", "", "runs.csv", "--no-open",
      "--sort-by", "median", "--pdf=plot.pdf"] = .ok shuffledArguments := by
  have hpaths : shuffledArguments.HasPaths :=
    ⟨by decide, by decide, by decide, by decide, by decide⟩
  have htells : shuffledWording.Tells shuffledArguments := {
    out := rfl
    svg := rfl
    pdf := rfl
    title := rfl
    xLabel := rfl
    yLabel := rfl
    sortBy := rfl
    width := by
      show Number.read? "1e3".toList = some (Float.ofNat 1000)
      decide +kernel
    height := rfl
    legible := by
      intro o text htext hapart
      cases o with
      | xLabel | sortBy | width =>
        cases htext
        decide
      | pdf | title => cases hapart
      | out | svg | yLabel | height => cases htext }
  have hperm : List.Perm
      [.option .width "1e3" .apart, .option .title "--sort-by=label" .joined,
        .option .xLabel "" .apart, .input "runs.csv", .flag .noOpen,
        .option .sortBy "median" .apart, .option .pdf "plot.pdf" .joined]
      (shuffledWording.groups shuffledArguments) := by decide
  exact ⟨hpaths, htells, parse_wording hpaths htells hperm⟩

end LatencyPlot.Command
