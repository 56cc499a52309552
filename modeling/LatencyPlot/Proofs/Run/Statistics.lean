/-
  LatencyPlot.Proofs.Run.Statistics

  Statistics are only told. A run with them has the result of the same run
  without them, leaves the same files, and prints and shows the same. What it
  writes to the log besides says exactly how far the run has come: it names the
  stages that complete, and its last line tells of the end of a run that
  succeeds.
-/
import LatencyPlot.Proofs.Run.Messages
import LatencyPlot.Proofs.Run.Outcome
import Mathlib.Data.List.Nodup

namespace LatencyPlot.Session

open Command (Arguments)
open Storage

/-! ## The log as text -/

/-- The log of a machine as it is written, one message each, the earliest first. -/
def stderr (machine : Machine) : List String := machine.noticed.reverse.map Notice.text

/-- Whether the last of the messages of a run that succeeds tells of its end, and no other one
    does. -/
def TotalLast (messages : List String) (result : Except Failure Unit) : Prop :=
  ∃ body, (∀ message ∈ body, isTotalText message = false) ∧
    match result with
    | .ok () => ∃ total, isTotalText total = true ∧ messages = body ++ [total]
    | .error _ => messages = body

theorem isStatisticText_of_mem_warningsOf {a : Arguments} {store : Store} {message : String}
    (h : message ∈ warningsOf a store) : isStatisticText message = false := by
  unfold warningsOf at h
  split at h
  · exact isStatisticText_of_mem_warnings h
  · cases h

theorem wantsStatistics_one : wantsStatistics (some "1") = true := by decide

/-! ## What a log holds -/

variable {a : Arguments} {system : System} {body told : List Notice} {stages : List Stage}
  {result : Except Failure Unit} {stats : Bool}

theorem stderr_withLog (machine : Machine) (notices : List Notice) (times : Nat → Nat) :
    stderr (withLog machine notices.reverse times) = notices.map Notice.text :=
  congrArg (List.map Notice.text) (List.reverse_reverse notices)

theorem heard_totalOf (result : Except Failure Unit) : heard false (totalOf result) = [] := by
  cases result <;> rfl

theorem stagesOf_totalOf (result : Except Failure Unit) : stagesOf (totalOf result) = [] := by
  cases result <;> rfl

/-- Whether statistics are asked for or not, the warnings are in the log. -/
theorem Reports.heard_told {texts : List String} (h : Reports texts stages body)
    (htold : told.map Notice.untimed = heard stats (body ++ totalOf result)) :
    heard false told = texts.map .warning := by
  have hbody : heard false (body ++ totalOf result) = texts.map .warning := by
    rw [heard_append, h.warnings_eq, heard_totalOf, List.append_nil]
  rw [← heard_false_map_untimed, htold]
  cases stats with
  | true => rw [heard_true, hbody]
  | false => rw [hbody, heard_warnings]

theorem Reports.isPlain (h : Reports (warningsOf a system.store) stages body)
    (htold : told.map Notice.untimed = heard stats (body ++ totalOf result)) :
    ∀ n ∈ told, n.IsPlain :=
  isPlain_of_heard (h.heard_told htold) fun _ hmem => isStatisticText_of_mem_warningsOf hmem

/-- Without its statistics a log holds the warnings, whether statistics were asked for or not. -/
theorem Reports.filter_stderr (h : Reports (warningsOf a system.store) stages body)
    (htold : told.map Notice.untimed = heard stats (body ++ totalOf result)) (machine : Machine)
    (times : Nat → Nat) :
    (stderr (withLog machine told.reverse times)).filter
      (fun message => !isStatisticText message) = warningsOf a system.store := by
  rw [stderr_withLog]
  exact filter_map_text (h.heard_told htold) (h.isPlain htold)

theorem Reports.totalLast (h : Reports (warningsOf a system.store) stages body)
    (htold : told.map Notice.untimed = body ++ totalOf result) :
    TotalLast (told.map Notice.text) result := by
  have hplain := h.isPlain (htold.trans (heard_true _).symm)
  obtain ⟨front, last, rfl, hfront, hlast⟩ := List.map_eq_append_iff.mp htold
  have hnot : ∀ message ∈ front.map Notice.text, isTotalText message = false := by
    rintro message hmessage
    obtain ⟨n, hn, rfl⟩ := List.mem_map.mp hmessage
    rw [Bool.eq_false_iff, ne_eq, (hplain n (List.mem_append_left last hn)).isTotalText_iff]
    exact fun htotal => h.not_total _ (hfront ▸ List.mem_map_of_mem hn) htotal.untimed
  refine ⟨front.map Notice.text, hnot, ?_⟩
  rcases result with failure | ⟨⟩
  · rw [List.map_eq_nil_iff.mp hlast, List.append_nil]
  · obtain ⟨n, rfl, hn⟩ := List.map_eq_singleton_iff.mp hlast
    refine ⟨n.text, ?_, by rw [List.map_append, List.map_singleton]⟩
    rw [(hplain n (by simp)).isTotalText_iff]
    exact .of_untimed ⟨_, hn⟩

/-! ## Two runs -/

/-- No stage is told of twice. -/
theorem nodup_told (a : Arguments) (system : System) :
    ((Stage.preflight :: completedOf a system (planned a)).map Stage.name).Nodup := by
  have hordered : (planned a).Nodup := (pairwise_planned a).imp fun hlt heq => by
    rw [heq] at hlt
    exact Nat.lt_irrefl _ hlt
  have hinj : Function.Injective Stage.name := by
    intro stage stage' h
    cases stage <;> cases stage' <;> first | rfl | exact absurd h (by decide)
  refine List.Nodup.map hinj (List.nodup_cons.mpr ⟨fun hmem => ?_, hordered.filter _⟩)
  exact absurd (parse_le_of_mem _ (mem_completedOf_iff.mp hmem).1) (by decide)

/-- A run that succeeds completes all that it has planned. -/
theorem completedOf_of_succeeds (h : Succeeds a system) :
    completedOf a system (planned a) = planned a := by
  obtain ⟨figure, outputs, d, hprep, hall, hsaved, hshow⟩ := h
  have hpdf : Completed a system .pdf := ⟨figure, outputs, d, hprep, hall, hsaved⟩
  rw [← List.append_nil (planned a), completedOf_append_of_completed, completedOf]
  · rfl
  · intro stage hmem
    by_cases hviewer : stage = .viewer
    · -- a viewer is planned only if the page is to be shown
      subst hviewer
      have hopen : a.noOpen = false := by
        cases hopen : a.noOpen with
        | false => rfl
        | true => simp [planned, svgStage, pdfStage, viewerStage, hopen] at hmem
      rw [hopen] at hshow
      exact ⟨hpdf, hshow.resolve_left Bool.false_ne_true⟩
    · refine hpdf.of_le ?_
      cases stage <;> first | decide | exact absurd rfl hviewer

/-- **Statistics never interfere.** Whatever the variable is set to, a run has the same result,
    leaves the same files, and prints and starts the same; taking the statistics out of the messages
    of a run with them leaves the messages of a run without them, which are the warnings. The names
    of stages in the messages are the preflight and then, in order and each once, those of the plan
    that complete, and the line of the whole run stands at the end of a run that succeeds, and
    nowhere else. -/
theorem run_statistics (value : Option String) (hvalue : value ≠ some "1") (a : Arguments)
    (system : System) :
    let told := machineAfter (wantsStatistics (some "1")) a system
    let silent := machineAfter (wantsStatistics value) a system
    let result := outcome (wantsStatistics value) a system
    outcome (wantsStatistics (some "1")) a system = result ∧
      told.store = silent.store ∧ told.printed = silent.printed ∧
      told.launched = silent.launched ∧
      (stderr told).filter (fun message => !isStatisticText message) = stderr silent ∧
      stderr silent = warningsOf a system.store ∧
      (stderr told).filterMap stageName? =
        (.preflight :: completedOf a system (planned a)).map Stage.name ∧
      ((stderr told).filterMap stageName?).Nodup ∧
      TotalLast (stderr told) result := by
  have hfalse : wantsStatistics value = false := by
    rw [wantsStatistics, beq_eq_false_iff_ne]
    exact hvalue
  rw [wantsStatistics_one, hfalse]
  obtain ⟨result, written, after, body, -, -, -, -, hreports, hrun⟩ := exists_reports a system
  obtain ⟨hresult, told, times, htold, hmachine⟩ := hrun true
  obtain ⟨hresult', silent, times', hsilent, hmachine'⟩ := hrun false
  rw [hresult, hresult', hmachine, hmachine']
  -- without statistics there are the warnings, and no times in them
  have hstderr : stderr (withLog after silent.reverse times') = warningsOf a system.store := by
    have hall : heard false silent = silent := by
      refine List.filter_eq_self.mpr fun n hn => ?_
      have hmem : n.untimed ∈ heard false (body ++ totalOf result) :=
        hsilent ▸ List.mem_map_of_mem hn
      simpa using (List.mem_filter.mp hmem).2
    rw [stderr_withLog, ← hall, hreports.heard_told hsilent, List.map_map]
    exact List.map_id'' (fun _ => rfl) _
  have hstages : (stderr (withLog after told.reverse times)).filterMap stageName? =
      (.preflight :: completedOf a system (planned a)).map Stage.name := by
    rw [stderr_withLog, filterMap_stageName? (hreports.isPlain htold), ← stagesOf_map_untimed,
      htold, heard_true, stagesOf_append, hreports.stages_eq, stagesOf_totalOf, List.append_nil]
  refine ⟨rfl, rfl, rfl, rfl, ?_, hstderr, hstages, ?_, ?_⟩
  · rw [hstderr]
    exact hreports.filter_stderr htold after times
  · rw [hstages]
    exact nodup_told a system
  · rw [stderr_withLog]
    exact hreports.totalLast (htold.trans (heard_true _))

/-- A run with statistics that succeeds names its stages up to the drawing. -/
theorem run_statistics_csv :
    let a := drawingArguments "runs.csv"
    let system := oneRunSystem "runs.csv"
    let told := machineAfter (wantsStatistics (some "1")) a system
    none ≠ some "1" ∧ exitStatus (outcome (wantsStatistics none) a system) = 0 ∧
      (stderr told).filterMap stageName? =
        ["preflight", "parse", "axis", "render", "html", "svg"] ∧
      (stderr told).filter (fun message => !isStatisticText message) =
        stderr (machineAfter (wantsStatistics none) a system) ∧
      TotalLast (stderr told) (.ok ()) := by
  intro a system told
  have hsuccess : exitStatus (outcome (wantsStatistics none) a system) = 0 := by decide +kernel
  have hresult : outcome (wantsStatistics none) a system = .ok () := by decide +kernel
  obtain ⟨written, hends, -⟩ := exists_ends (wantsStatistics none) a system
  have hsucceeds : Succeeds a system := hends.exitStatus_eq_zero_iff.mp hsuccess
  obtain ⟨-, -, -, -, hfilter, -, hstages, -, htotal⟩ :=
    run_statistics none (by decide) a system
  rw [hresult] at htotal
  rw [completedOf_of_succeeds hsucceeds] at hstages
  exact ⟨by decide, hsuccess, hstages, hfilter, htotal⟩

end LatencyPlot.Session
