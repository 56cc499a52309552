/-
  LatencyPlot.Proofs.Run.Outcome

  A run as a function of its arguments and a system: the result it has, and the
  machine it leaves. Its plot needs an input that can be read, a size, and
  bounds (`prepare_eq_ok_iff`). What it writes begins with the page; a run that
  succeeds writes all that it is asked for, and each output can be read back
  from where no other one goes.
-/
import LatencyPlot.Proofs.Run.Unfolding

namespace LatencyPlot.Session

open Command (Arguments)
open Storage

/-- The result of a run in a system. -/
def outcome (stats : Bool) (a : Arguments) (system : System) : Except Failure Unit :=
  ((run stats a : StateM Machine (Except Failure Unit)).run (.ofSystem system)).1

/-- The machine after a run in a system. -/
def machineAfter (stats : Bool) (a : Arguments) (system : System) : Machine :=
  ((run stats a : StateM Machine (Except Failure Unit)).run (.ofSystem system)).2

variable {a : Arguments} {figure : Figure} {system : System} {store s : Store} {stats : Bool}
  {result : Except Failure Unit} {written outputs : List Output}

/-- With statistics or without, a run ends in one way and leaves one machine but for the clock and
    the log, which tells of all that the run reports, or of its warnings alone. -/
theorem exists_reports (a : Arguments) (system : System) :
    ∃ result written after body, Ends a system result written ∧
      system.store.writeAll written = .ok after.store ∧ after.launched = launches a result ∧
      stdout after = prints a result ∧
      Reports (warningsOf a system.store) (.preflight :: completedOf a system (planned a)) body ∧
      ∀ stats, outcome stats a system = result ∧ ∃ (told : List Notice) (times : Nat → Nat),
        told.map Notice.untimed = heard stats (body ++ totalOf result) ∧
        machineAfter stats a system = withLog after told.reverse times := by
  obtain ⟨result, written, notices, after, hends, hwritten, hlaunched, hprinted,
    ⟨body, rfl, hreports⟩, htells⟩ := exists_recount a system
  refine ⟨result, written, after, ended .preflight :: body, hends, hwritten, hlaunched, hprinted,
    (reports_ended .preflight).append hreports, fun stats => ?_⟩
  obtain ⟨told, times, htold, hrun⟩ := htells stats [] system.times
  rw [List.append_nil] at hrun
  exact ⟨congrArg Prod.fst hrun, told, times, htold, congrArg Prod.snd hrun⟩

theorem exists_ends (stats : Bool) (a : Arguments) (system : System) :
    ∃ written, Ends a system (outcome stats a system) written ∧
      system.store.writeAll written = .ok (machineAfter stats a system).store ∧
      (machineAfter stats a system).launched = launches a (outcome stats a system) ∧
      stdout (machineAfter stats a system) = prints a (outcome stats a system) := by
  obtain ⟨result, written, after, body, hends, hwritten, hlaunched, hprinted, -, hrun⟩ :=
    exists_reports a system
  obtain ⟨houtcome, told, times, -, hmachine⟩ := hrun stats
  rw [houtcome, hmachine]
  -- the log and the clock are the parts of the machine that are left open
  exact ⟨written, hends, hwritten, hlaunched, hprinted⟩

/-! ## What a run needs -/

theorem recordsOf_eq_ok_iff {file : Except AccessError (List UInt8)}
    {records : List (Record Float)} :
    recordsOf a file = .ok records ↔ ∃ stream, Source.read a.input file = .ok stream ∧
      readRecords a.header stream = .ok records := by
  rw [recordsOf]
  cases Source.read a.input file with
  | error e => simp
  | ok stream => simp [mapError_eq_ok_iff]

theorem checked_eq_ok_iff {u : Unit} :
    checked a store = .ok u ↔ store.isFile a.input = true ∧ hasSize a = true := by
  rw [checked]
  cases store.isFile a.input <;> cases hasSize a <;> simp

theorem plotted_eq_ok_iff {records : List (Record Float)} :
    plotted a records = .ok figure ↔
      ∃ bounds, Bounds.ofRecords (sortRecords a.sortBy records) = .ok bounds ∧
        figure = figureOf a (sortRecords a.sortBy records) bounds := by
  rw [plotted]
  simp only [← mapError_eq_ok_iff (f := Failure.nothingToPlot a.input)]
  rw [← boundsOf]
  cases boundsOf a (sortRecords a.sortBy records) <;> simp [Except.map, eq_comm]

/-- A plot is made of an input that can be read, with a size, and with bounds. -/
theorem prepare_eq_ok_iff :
    prepare a store = .ok figure ↔
      (store.isFile a.input = true ∧ hasSize a = true) ∧
      ∃ records, (∃ stream, Source.read a.input (store.read a.input) = .ok stream ∧
          readRecords a.header stream = .ok records) ∧
        ∃ bounds, Bounds.ofRecords (sortRecords a.sortBy records) = .ok bounds ∧
          figure = figureOf a (sortRecords a.sortBy records) bounds := by
  simp only [prepare, bind_eq_ok_iff, checked_eq_ok_iff, recordsOf_eq_ok_iff, plotted_eq_ok_iff,
    exists_const]

/-! ## What is written -/

/-- Without a plot nothing is written. -/
theorem Ends.eq_of_unprepared {failure : Failure} (h : Ends a system result written)
    (hprep : prepare a system.store = .error failure) : result = .error failure ∧ written = [] := by
  cases h with
  | unprepared hprep' =>
      rw [hprep] at hprep'
      cases hprep'
      exact ⟨rfl, rfl⟩
  | pageFails hprep' | drawingFails hprep' | unconvertible hprep' | portableFails hprep'
  | noViewer hprep' | success hprep' =>
      rw [hprep] at hprep'
      cases hprep'

/-- What is written begins with the page, or with what is begun of it. -/
theorem Ends.eq_begun_or_cons (h : Ends a system result written)
    (hprep : prepare a system.store = .ok figure) :
    (∃ e, system.save (pageOutput a figure) = .error e ∧
      written = begun (pageOutput a figure) e) ∨
      ∃ d later, system.save (pageOutput a figure) = .ok d ∧
        written = pageOutput a figure :: later := by
  -- outputs that are all saved begin with the page
  have hfirst {outputs later : List Output} {d : Disk} (hsaved : system.saveAll outputs = .ok d)
      (heq : outputs = pageOutput a figure :: later) :
      ∃ d, system.save (pageOutput a figure) = .ok d := by
    rw [heq] at hsaved
    obtain ⟨d₁, hsave, -⟩ := Disk.saveAll_cons_eq_ok_iff.mp hsaved
    exact ⟨d₁, hsave⟩
  rcases h.cases_of_prepared hprep with ⟨e, hfails, -, rfl⟩ | ⟨path, e, -, hfails, -, rfl⟩ |
    ⟨path, d, e, -, hsaved, -, -, rfl⟩ | ⟨path, content, e, -, -, hfails, -, rfl⟩ |
    ⟨d, houtputs, hsaved, -⟩
  · obtain ⟨d, hnothing, hsave⟩ := hfails
    cases hnothing
    exact .inl ⟨_, hsave, rfl⟩
  · obtain ⟨d, hpage, -⟩ := hfails
    obtain ⟨d₁, hsave⟩ := hfirst hpage rfl
    exact .inr ⟨d₁, _, hsave, rfl⟩
  · obtain ⟨d₁, hsave⟩ := hfirst hsaved rfl
    exact .inr ⟨d₁, _, hsave, rfl⟩
  · obtain ⟨d, hsaved, -⟩ := hfails
    obtain ⟨d₁, hsave⟩ := hfirst hsaved rfl
    exact .inr ⟨d₁, _, hsave, rfl⟩
  · obtain ⟨later, rfl⟩ := exists_later_of_allOutputs houtputs
    obtain ⟨d₁, hsave⟩ := hfirst hsaved rfl
    exact .inr ⟨d₁, _, hsave, rfl⟩

/-- A run that succeeds has written all outputs of its plot. -/
theorem exists_outputs_of_success (h : exitStatus (outcome stats a system) = 0) :
    ∃ figure outputs, prepare a system.store = .ok figure ∧
      allOutputs a system.converter figure = .ok outputs ∧
      system.store.writeAll outputs = .ok (machineAfter stats a system).store := by
  obtain ⟨written, hends, hwritten, -, -⟩ := exists_ends stats a system
  generalize outcome stats a system = result at h hends
  cases hends with
  | success hprep houtputs => exact ⟨_, _, hprep, houtputs, hwritten⟩
  | _ => simp [exitStatus] at h

/-! ## Reading it back -/

/-- The outputs that are asked for go to different files. -/
def WritesApart (a : Arguments) (store : Store) : Prop :=
  (requestedPaths a).Pairwise fun p q => ∀ location,
    store.target p = .ok location → store.target q ≠ .ok location

variable {converter : Portable.Converter}

theorem WritesApart.read_eq (h : WritesApart a store)
    (hall : allOutputs a converter figure = .ok outputs)
    (hwritten : store.writeAll outputs = .ok s) {o : Output} (ho : o ∈ outputs) :
    s.read o.path = .ok o.content := by
  obtain ⟨before, later, rfl⟩ := List.append_of_mem ho
  obtain ⟨location, htarget⟩ := Store.exists_target_of_writeAll hwritten ho
  refine Store.read_writeAll hwritten fun p hp heq => ?_
  rw [WritesApart, ← paths_allOutputs hall, List.map_append, List.map_cons,
    List.pairwise_append, List.pairwise_cons] at h
  -- a later output goes elsewhere
  have hne := h.2.1.1 p.path (List.mem_map_of_mem hp) location htarget
  rw [heq] at hne
  exact hne htarget

theorem WritesApart.read_page (h : WritesApart a store)
    (hall : allOutputs a converter figure = .ok outputs)
    (hwritten : store.writeAll outputs = .ok s) :
    s.read (pageOf a) = .ok (pageText a figure).toUTF8.toList := by
  obtain ⟨later, rfl⟩ := exists_later_of_allOutputs hall
  have hpage : pageOutput a figure ∈ firstOutputs a figure ++ later :=
    List.mem_append_left later List.mem_cons_self
  simpa only [pageOutput] using h.read_eq hall hwritten hpage

theorem WritesApart.read_drawing (h : WritesApart a store)
    (hall : allOutputs a converter figure = .ok outputs) (hwritten : store.writeAll outputs = .ok s)
    {path : String} (hsvg : a.svg = some path) :
    s.read path = .ok figure.drawing.toUTF8.toList := by
  obtain ⟨later, rfl⟩ := exists_later_of_allOutputs hall
  have hdrawing : drawingOutput figure path ∈ firstOutputs a figure ++ later := by
    rw [firstOutputs_of_svg hsvg]
    exact List.mem_append_left later (by simp)
  simpa only [drawingOutput] using h.read_eq hall hwritten hdrawing

/-- The portable document is what the converter makes of the drawing. -/
theorem WritesApart.read_portable (h : WritesApart a store)
    (hall : allOutputs a converter figure = .ok outputs) (hwritten : store.writeAll outputs = .ok s)
    {path : String} (hpdf : a.pdf = some path) :
    ∃ content, converter figure.drawing = .ok content ∧ s.read path = .ok content := by
  rcases allOutputs_eq_ok_iff.mp hall with ⟨hnone, -⟩ | ⟨path', content, hpdf', hconvert, rfl⟩
  · rw [hpdf] at hnone
    cases hnone
  · rw [hpdf] at hpdf'
    cases hpdf'
    have hmem : ⟨path, content⟩ ∈ firstOutputs a figure ++ [⟨path, content⟩] :=
      List.mem_append_right _ (List.mem_singleton_self _)
    have hread := h.read_eq hall hwritten hmem
    exact ⟨content, hconvert, hread⟩

/-! ## A small run -/

/-- What is asked for with an input, a place for the drawing above the working directory, and
    nothing to be shown. -/
def drawingArguments (input : String) : Arguments where
  input := input
  out := none
  svg := some "../runs.svg"
  pdf := none
  title := none
  xLabel := defaultXLabel
  yLabel := defaultYLabel
  sortBy := .input
  width := Float.ofNat defaultWidth
  height := Float.ofNat defaultHeight
  header := false
  noOpen := true

/-- A working directory with one run in one file. -/
def oneRun (name : String) : Store :=
  Store.empty.put [name] (.file "'a',1,2,3,4,5\n".toUTF8.toList)

/-- A system with it on which nothing goes wrong, and without a viewer. -/
def oneRunSystem (name : String) : System := .ofStore (oneRun name) false

end LatencyPlot.Session
