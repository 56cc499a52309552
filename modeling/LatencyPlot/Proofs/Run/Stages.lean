/-
  LatencyPlot.Proofs.Run.Stages

  What each stage of a run does to a machine, with what result, and what it
  writes to the log. A stage does the same with and without statistics,
  whatever the clock shows, and without them it writes what is left of its
  notices (`Tells`).
-/
import LatencyPlot.Proofs.Run.Log
import LatencyPlot.Proofs.Storage.Disk
import LatencyPlot.Run.Session

namespace LatencyPlot.Session

open Command (Arguments)
open Storage

/-- A machine with another log and another clock. -/
def withLog (machine : Machine) (log : List Notice) (times : Nat → Nat) : Machine :=
  { machine with noticed := log, times }

/-- A computation on a machine has a result and leaves another machine, whatever the log holds and
    the clock shows. But for their times, it writes some notices, as far as they are heard. -/
def Tells {α : Type} (stats : Bool) (x : ExceptT Failure (StateM Machine) α) (before : Machine)
    (notices : List Notice) (result : Except Failure α) (after : Machine) : Prop :=
  ∀ log times, ∃ (written : List Notice) (times' : Nat → Nat),
    written.map Notice.untimed = heard stats notices ∧
      x.run.run (withLog before log times) = (result, withLog after (written.reverse ++ log) times')

variable {α β : Type} {stats : Bool} {before between after : Machine}
  {notices notices₁ notices₂ : List Notice}

/-! ## Composition -/

/-- What does not touch the log or the clock has nothing to tell. -/
theorem tells_of_silent {x : ExceptT Failure (StateM Machine) α} {result : Except Failure α}
    (h : ∀ log times, x.run.run (withLog before log times) = (result, withLog after log times)) :
    Tells stats x before [] result after :=
  fun log times => ⟨[], times, rfl, h log times⟩

theorem tells_pure (v : α) : Tells stats (pure v) before [] (.ok v) before :=
  tells_of_silent fun _ _ => rfl

theorem tells_settle (result : Except Failure α) :
    Tells stats (settle result) before [] result before :=
  tells_of_silent fun _ _ => rfl

theorem tells_bind {x : ExceptT Failure (StateM Machine) α}
    {f : α → ExceptT Failure (StateM Machine) β} {v : α} {result : Except Failure β}
    (hx : Tells stats x before notices₁ (.ok v) between)
    (hf : Tells stats (f v) between notices₂ result after) :
    Tells stats (x >>= f) before (notices₁ ++ notices₂) result after := by
  intro log times
  obtain ⟨written₁, times₁, hwritten₁, hrun₁⟩ := hx log times
  obtain ⟨written₂, times₂, hwritten₂, hrun₂⟩ := hf (written₁.reverse ++ log) times₁
  refine ⟨written₁ ++ written₂, times₂, ?_, ?_⟩
  · rw [List.map_append, hwritten₁, hwritten₂, heard_append]
  · rw [ExceptT.run_bind, StateT.run_bind, hrun₁, List.reverse_append, List.append_assoc]
    exact hrun₂

/-- What says nothing adds nothing to the notices. -/
theorem tells_bind_silent {x : ExceptT Failure (StateM Machine) α}
    {f : α → ExceptT Failure (StateM Machine) β} {v : α} {result : Except Failure β}
    (hx : Tells stats x before [] (.ok v) between)
    (hf : Tells stats (f v) between notices result after) :
    Tells stats (x >>= f) before notices result after := tells_bind hx hf

theorem tells_bind_notice {x : ExceptT Failure (StateM Machine) α}
    {f : α → ExceptT Failure (StateM Machine) β} {v : α} {n : Notice} {result : Except Failure β}
    (hx : Tells stats x before [n] (.ok v) between)
    (hf : Tells stats (f v) between notices result after) :
    Tells stats (x >>= f) before (n :: notices) result after := tells_bind hx hf

theorem tells_bind_error {x : ExceptT Failure (StateM Machine) α}
    {f : α → ExceptT Failure (StateM Machine) β} {failure : Failure}
    (hx : Tells stats x before notices (.error failure) between) :
    Tells stats (x >>= f) before notices (.error failure) between := by
  intro log times
  obtain ⟨written, times', hwritten, hrun⟩ := hx log times
  refine ⟨written, times', hwritten, ?_⟩
  rw [ExceptT.run_bind, StateT.run_bind, hrun]
  rfl

/-! ## Requests -/

/-- What the machine answers is the result of a request; a request itself never fails. -/
theorem tells_lift {request : StateM Machine α} {answer : α}
    (h : ∀ log times, request.run (withLog before log times) = (answer, withLog after log times)) :
    Tells stats (ExceptT.lift request) before [] (.ok answer) after := by
  refine tells_of_silent fun log times => ?_
  rw [ExceptT.run_lift, StateT.run_map, h]
  rfl

theorem tells_isFile (path : String) :
    Tells stats (Host.isFile path) before [] (.ok (before.store.isFile path)) before :=
  tells_lift fun _ _ => rfl

theorem tells_read (path : String) :
    Tells stats (Host.read path) before [] (.ok (before.store.read path)) before :=
  tells_lift fun _ _ => rfl

theorem tells_convert (drawing : String) :
    Tells stats (Host.convert drawing) before [] (.ok (before.converter drawing)) before :=
  tells_lift fun _ _ => rfl

/-- Whatever the clock shows, the rest does what it does for every time. -/
theorem tells_clock_bind {f : Nat → ExceptT Failure (StateM Machine) β} {result : Except Failure β}
    (h : ∀ start, Tells stats (f start) before notices result after) :
    Tells stats (Host.clock >>= f) before notices result after :=
  fun log times => h (times 0) log fun n => times (n + 1)

theorem tells_warning (text : String) :
    Tells stats (Host.notify (.warning text)) before [.warning text] (.ok ()) before := by
  intro log times
  refine ⟨[.warning text], times, ?_, rfl⟩
  cases stats <;> rfl

theorem tells_print (line : String) :
    Tells stats (Host.print line) before [] (.ok ())
      { before with printed := line :: before.printed } :=
  tells_lift fun _ _ => rfl

/-- A step on the disk is a request. -/
theorem tells_onDisk (before : Machine) {step : Disk → α × Disk} {answer : α} {d : Disk}
    (h : step before.toDisk = (answer, d)) :
    Tells stats (ExceptT.lift (Machine.onDisk step)) before [] (.ok answer)
      { before with toDisk := d } := by
  refine tells_lift fun log times => ?_
  show Machine.onDisk step (withLog before log times) = _
  simp only [Machine.onDisk, withLog, h]

theorem tells_launch {program : Program} (h : before.hasViewer = true) :
    Tells stats (Host.launch program) before [] (.ok (.ok ()))
      { before with launched := program :: before.launched } := by
  refine tells_lift fun log times => ?_
  show (withLog before log times).launch program = _
  simp only [Machine.launch, withLog, h, if_true]

theorem tells_launch_error {program : Program} (h : before.hasViewer = false) :
    Tells stats (Host.launch program) before [] (.ok (.error .notFound)) before := by
  refine tells_lift fun log times => ?_
  show (withLog before log times).launch program = _
  simp only [Machine.launch, withLog, h, Bool.false_eq_true, if_false]

/-! ## Statistics -/

/-- The notice that a stage has ended, by a clock that stands still. -/
def ended (stage : Stage) : Notice := .statistic (.stage stage (Duration.ofNanos 0))

/-- A statistic that is asked for is told of; one that is not is not even looked for. -/
theorem tells_record {statistic : ExceptT Failure (StateM Machine) Statistic} {line : Statistic}
    (h : ∀ log times, ∃ line' times', Notice.untimed (.statistic line') = .statistic line ∧
      statistic.run.run (withLog before log times) = (.ok line', withLog before log times')) :
    Tells stats (record stats statistic) before [.statistic line] (.ok ()) before := by
  cases stats with
  | false => exact fun _ times => ⟨[], times, rfl, rfl⟩
  | true =>
    intro log times
    -- the line is made first, which may take a look at the clock
    obtain ⟨line', times', huntimed, hrun⟩ := h log times
    refine ⟨[.statistic line'], times', congrArg (fun n => [n]) huntimed, ?_⟩
    show (ExceptT.run (statistic >>= fun line => Host.notify (.statistic line))).run _ = _
    rw [ExceptT.run_bind, StateT.run_bind, hrun]
    rfl

theorem tells_stageEnd (stage : Stage) (start : Nat) :
    Tells stats (stageEnd stats stage start) before [ended stage] (.ok ()) before :=
  tells_record fun _ times => ⟨.stage stage (Duration.ofNanos (times 0 - start)), _, rfl, rfl⟩

theorem tells_input (path : String) (records : Nat) :
    Tells stats (record stats (pure (.input path records))) before
      [.statistic (.input path records)] (.ok ()) before :=
  tells_record fun _ times => ⟨.input path records, times, rfl, rfl⟩

theorem tells_total (start : Nat) :
    Tells stats (record stats do return .total (← since start)) before
      [.statistic (.total (Duration.ofNanos 0))] (.ok ()) before :=
  tells_record fun _ times => ⟨.total (Duration.ofNanos (times 0 - start)), _, rfl, rfl⟩

/-! ## Preparation -/

/-- What the preflight finds. -/
def checked (a : Arguments) (store : Store) : Except Failure Unit :=
  if store.isFile a.input = false then .error (.inputNotFound a.input)
  else if hasSize a = false then .error .badSize
  else .ok ()

/-- The plot of records, if they have bounds. -/
def plotted (a : Arguments) (records : List (Record Float)) : Except Failure Figure :=
  let sorted := sortRecords a.sortBy records
  (boundsOf a sorted).map (figureOf a sorted)

/-- The plot that a run makes of what it reads, or why there is none. -/
def prepare (a : Arguments) (store : Store) : Except Failure Figure := do
  checked a store
  let records ← recordsOf a (store.read a.input)
  plotted a records

/-- The end of the preflight is told of even if it finds something wrong. -/
theorem tells_preflight (a : Arguments) :
    Tells stats (preflight stats a) before [ended .preflight] (checked a before.store) before := by
  have hcheck : Tells stats (check a) before [] (.ok (checked a before.store)) before := by
    unfold check checked
    refine tells_bind_silent (tells_isFile a.input) ?_
    cases before.store.isFile a.input with
    | false => exact tells_pure _
    | true =>
        cases hasSize a with
        | false => exact tells_pure _
        | true => exact tells_pure _
  unfold preflight
  refine tells_clock_bind fun start => ?_
  refine tells_bind_silent hcheck ?_
  exact tells_bind_notice (tells_stageEnd .preflight start) (tells_settle _)

theorem tells_warnings (texts : List String) :
    Tells stats (texts.forM fun text => Host.notify (.warning text)) before
      (texts.map .warning) (.ok ()) before := by
  -- each warning makes the log longer, and `Tells` is for every log
  induction texts with
  | nil => exact tells_pure ()
  | cons text rest ih => exact tells_bind_notice (tells_warning text) ih

theorem tells_load_error {a : Arguments} {failure : Failure}
    (h : recordsOf a (before.store.read a.input) = .error failure) :
    Tells stats (load stats a) before [] (.error failure) before := by
  unfold load
  refine tells_clock_bind fun start => ?_
  refine tells_bind_silent (tells_read a.input) ?_
  rw [h]
  exact tells_bind_error (tells_settle _)

/-- The notices of a reading that succeeds. -/
def loadNotices (a : Arguments) (records : List (Record Float)) : List Notice :=
  ended .parse :: .statistic (.input a.input records.length) :: (warnings records).map .warning

theorem tells_load {a : Arguments} {records : List (Record Float)}
    (h : recordsOf a (before.store.read a.input) = .ok records) :
    Tells stats (load stats a) before (loadNotices a records) (.ok records) before := by
  unfold load loadNotices
  refine tells_clock_bind fun start => ?_
  refine tells_bind_silent (tells_read a.input) ?_
  rw [h]
  refine tells_bind_silent (tells_settle (.ok records)) ?_
  refine tells_bind_notice (tells_stageEnd .parse start) ?_
  refine tells_bind_notice (tells_input a.input records.length) ?_
  rw [← List.append_nil ((warnings records).map _)]
  exact tells_bind (tells_warnings _) (tells_pure records)

theorem tells_plot_error {a : Arguments} {records : List (Record Float)} {failure : Failure}
    (h : plotted a records = .error failure) :
    Tells stats (plot stats a records) before [] (.error failure) before := by
  unfold plot
  refine tells_clock_bind fun start => ?_
  cases hbounds : boundsOf a (sortRecords a.sortBy records) with
  | error failure' =>
      simp only [plotted, hbounds, Except.map, Except.error.injEq] at h
      exact h ▸ tells_bind_error (tells_settle _)
  | ok bounds => simp [plotted, hbounds, Except.map] at h

theorem tells_plot {a : Arguments} {records : List (Record Float)} {figure : Figure}
    (h : plotted a records = .ok figure) :
    Tells stats (plot stats a records) before [ended .axis, ended .render] (.ok figure) before := by
  unfold plot
  refine tells_clock_bind fun start => ?_
  -- the pure part decides whether there is anything left to do
  cases hbounds : boundsOf a (sortRecords a.sortBy records) with
  | error failure => simp [plotted, hbounds, Except.map] at h
  | ok bounds =>
      simp only [plotted, hbounds, Except.map, Except.ok.injEq] at h
      refine tells_bind_silent (tells_settle (.ok bounds)) ?_
      refine tells_bind_notice (tells_stageEnd .axis start) ?_
      refine tells_clock_bind fun start' => ?_
      exact tells_bind_notice (tells_stageEnd .render start') (h ▸ tells_pure _)

/-! ## Output -/

/-- The failure of a run that cannot write a file as a whole. -/
def saveFailure (unopened : StorageError → Failure) (path : String) : WriteError → Failure
  | .opening cause => unopened cause
  | .writing _ cause => .cannotWrite path cause

/-- Outputs but the page have one failure for both. -/
theorem saveFailure_cannotWrite (path : String) (e : WriteError) :
    saveFailure (.cannotWrite path) path e = .cannotWrite path e.cause := by
  cases e <;> rfl

theorem tells_save {unopened : StorageError → Failure} {o : Output} {d : Disk}
    (h : before.toDisk.save o = .ok d) :
    Tells stats (save unopened o.path o.content) before [] (.ok ())
      { before with toDisk := d } := by
  obtain ⟨location, opened, hcreate, hwrite⟩ := Disk.exists_create_of_save h
  unfold save
  refine tells_bind_silent (tells_onDisk before hcreate) ?_
  refine tells_bind_silent (tells_settle (.ok location)) ?_
  exact tells_bind_silent
    (tells_onDisk { before with toDisk := opened } hwrite) (tells_settle (.ok ()))

/-- A file that cannot be written as a whole ends the run, and what was begun of it stays. -/
theorem tells_save_error (before : Machine) (unopened : StorageError → Failure) {o : Output}
    {e : WriteError} (h : before.toDisk.save o = .error e) :
    ∃ d, before.store.writeAll (begun o e) = .ok d.store ∧
      ∀ stats, Tells stats (save unopened o.path o.content) before []
        (.error (saveFailure unopened o.path e)) { before with toDisk := d } := by
  cases e with
  | opening cause =>
    obtain ⟨d, hcreate, hstore⟩ := Disk.exists_create_of_save_opening h
    refine ⟨d, congrArg Except.ok hstore.symm, fun stats => ?_⟩
    unfold save
    refine tells_bind_silent (tells_onDisk before hcreate) ?_
    exact tells_bind_error (tells_settle (.error (unopened cause)))
  | writing after cause =>
    obtain ⟨location, opened, d, hcreate, hwrite, hbegun⟩ := Disk.exists_write_of_save_writing h
    refine ⟨d, Store.writeAll_cons_eq_ok_iff.mpr ⟨d.store, hbegun, rfl⟩, fun stats => ?_⟩
    unfold save
    refine tells_bind_silent (tells_onDisk before hcreate) ?_
    refine tells_bind_silent (tells_settle (.ok location)) ?_
    exact tells_bind_silent
      (tells_onDisk { before with toDisk := opened } hwrite)
      (tells_settle (.error (.cannotWrite o.path cause)))

/-- The notices of an output that is written. -/
def outputNotices (stage : Stage) (path : String) (bytes : Nat) : List Notice :=
  [ended stage, .statistic (.output stage path bytes)]

theorem tells_outputEnd (stage : Stage) (path : String) (start : Nat) :
    Tells stats (outputEnd stats stage path start) before
      (outputNotices stage path (before.size path)) (.ok ()) before := by
  unfold outputEnd outputNotices
  refine tells_bind_notice (tells_stageEnd stage start) ?_
  -- with statistics the size is asked for, of a file that is there by now
  exact tells_record fun _ times => ⟨.output stage path (before.size path), times, rfl, rfl⟩

theorem tells_output (before : Machine) {stage : Stage} {unopened : StorageError → Failure}
    {o : Output} {d : Disk} (h : before.toDisk.save o = .ok d) (start : Nat) :
    Tells stats (do save unopened o.path o.content; outputEnd stats stage o.path start) before
      (outputNotices stage o.path (Machine.size o.path { before with toDisk := d })) (.ok ())
      { before with toDisk := d } :=
  tells_bind_silent (tells_save h) (tells_outputEnd stage o.path start)

/-! A portable document is saved once the plot is converted. -/

theorem tells_converted {path drawing : String} {content : List UInt8}
    {rest : Nat → List UInt8 → ExceptT Failure (StateM Machine) β} {result : Except Failure β}
    (h : before.converter drawing = .ok content)
    (hrest : ∀ start, Tells stats (rest start content) before notices result after) :
    Tells stats (do
      let start ← Host.clock
      let converted ← Host.convert drawing
      let content ← settle (converted.mapError (.cannotConvert path))
      rest start content) before notices result after := by
  refine tells_clock_bind fun start => ?_
  refine tells_bind_silent (tells_convert drawing) ?_
  rw [h]
  exact tells_bind_silent (tells_settle (.ok content)) (hrest start)

theorem tells_unconverted {path drawing : String} {e : Portable.ConversionError}
    {rest : Nat → List UInt8 → ExceptT Failure (StateM Machine) β}
    (h : before.converter drawing = .error e) :
    Tells stats (do
      let start ← Host.clock
      let converted ← Host.convert drawing
      let content ← settle (converted.mapError (.cannotConvert path))
      rest start content) before [] (.error (.cannotConvert path e)) before := by
  refine tells_clock_bind fun start => ?_
  refine tells_bind_silent (tells_convert drawing) ?_
  rw [h]
  exact tells_bind_error (tells_settle (.error (.cannotConvert path e)))

/-! ## The page on show -/

theorem tells_present_noOpen {a : Arguments} (h : a.noOpen = true) :
    Tells stats (present stats a) before [] (.ok ())
      { before with printed := pageOf a :: before.printed } := by
  simp only [present, h, if_true]
  exact tells_print (pageOf a)

theorem tells_present_open {a : Arguments} (h : a.noOpen = false)
    (hviewer : before.hasViewer = true) :
    Tells stats (present stats a) before [ended .viewer] (.ok ())
      { before with launched := viewer (pageOf a) :: before.launched } := by
  simp only [present, h, Bool.false_eq_true, if_false]
  refine tells_clock_bind fun start => ?_
  refine tells_bind_silent (tells_launch hviewer) ?_
  refine tells_bind_silent (tells_settle _) ?_
  exact tells_stageEnd .viewer start

theorem tells_present_error {a : Arguments} (h : a.noOpen = false)
    (hviewer : before.hasViewer = false) :
    Tells stats (present stats a) before [] (.error (.cannotLaunch (pageOf a) .notFound))
      before := by
  simp only [present, h, Bool.false_eq_true, if_false]
  refine tells_clock_bind fun start => ?_
  refine tells_bind_silent (tells_launch_error hviewer) ?_
  exact tells_bind_error (tells_settle _)

end LatencyPlot.Session
