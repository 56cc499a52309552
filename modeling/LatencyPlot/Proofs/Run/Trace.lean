/-
  LatencyPlot.Proofs.Run.Trace

  What the log of a run should hold. The stages that a run is asked for come in
  a fixed order (`planned`), and each of them can do its work only after those
  before it (`Completed.of_le`). The log tells of the end of each stage that
  completes, in that order, and at the very end of a run that succeeds it tells
  of that (`Recounts`).
-/
import LatencyPlot.Proofs.Run.Ends
import Mathlib.Data.List.Basic

namespace LatencyPlot.Session

open Command (Arguments)
open Storage

/-! ## Stages that complete -/

/-- Whether a stage of a run can do its work, as all stages before it can. -/
def Completed (a : Arguments) (system : System) : Stage → Prop
  | .preflight => checked a system.store = .ok ()
  | .parse => checked a system.store = .ok () ∧
      ∃ records, recordsOf a (system.store.read a.input) = .ok records
  | .axis | .render => ∃ figure, prepare a system.store = .ok figure
  | .html => ∃ figure d, prepare a system.store = .ok figure ∧
      system.saveAll [pageOutput a figure] = .ok d
  | .svg => ∃ figure d, prepare a system.store = .ok figure ∧
      system.saveAll (firstOutputs a figure) = .ok d
  | .pdf => ∃ figure outputs d, prepare a system.store = .ok figure ∧
      allOutputs a system.converter figure = .ok outputs ∧ system.saveAll outputs = .ok d
  | .viewer => (∃ figure outputs d, prepare a system.store = .ok figure ∧
      allOutputs a system.converter figure = .ok outputs ∧ system.saveAll outputs = .ok d) ∧
      system.hasViewer = true

/-- The stage for the drawing, if one is asked for. -/
def svgStage (a : Arguments) : List Stage := if a.svg.isSome then [.svg] else []

/-- The stage for the portable document, if one is asked for. -/
def pdfStage (a : Arguments) : List Stage := if a.pdf.isSome then [.pdf] else []

/-- The stage that shows the page, unless its path is printed instead. -/
def viewerStage (a : Arguments) : List Stage := if a.noOpen then [] else [.viewer]

/-- The stages of a run after the preflight, in their order. -/
def planned (a : Arguments) : List Stage :=
  [.parse] ++ ([.axis, .render] ++ ([.html] ++ (svgStage a ++ (pdfStage a ++ viewerStage a))))

variable {a : Arguments} {system : System}

/-- The plan goes through the stages in their order, each at most once. -/
theorem pairwise_planned (a : Arguments) :
    (planned a).Pairwise fun earlier later => earlier.ctorIdx < later.ctorIdx := by
  unfold planned svgStage pdfStage viewerStage
  split <;> split <;> split <;> decide

theorem pdf_le_of_mem : ∀ stage ∈ pdfStage a ++ viewerStage a,
    Stage.pdf.ctorIdx ≤ stage.ctorIdx := by
  unfold pdfStage viewerStage
  split <;> split <;> decide

theorem svg_le_of_mem : ∀ stage ∈ svgStage a ++ (pdfStage a ++ viewerStage a),
    Stage.svg.ctorIdx ≤ stage.ctorIdx := by
  unfold svgStage pdfStage viewerStage
  split <;> split <;> split <;> decide

theorem html_le_of_mem : ∀ stage ∈ [.html] ++ (svgStage a ++ (pdfStage a ++ viewerStage a)),
    Stage.html.ctorIdx ≤ stage.ctorIdx := by
  unfold svgStage pdfStage viewerStage
  split <;> split <;> split <;> decide

theorem axis_le_of_mem :
    ∀ stage ∈ [.axis, .render] ++ ([.html] ++ (svgStage a ++ (pdfStage a ++ viewerStage a))),
      Stage.axis.ctorIdx ≤ stage.ctorIdx := by
  unfold svgStage pdfStage viewerStage
  split <;> split <;> split <;> decide

theorem parse_le_of_mem : ∀ stage ∈ planned a, Stage.parse.ctorIdx ≤ stage.ctorIdx := by
  unfold planned svgStage pdfStage viewerStage
  split <;> split <;> split <;> decide

theorem prepare_eq_ok_iff_bind {store : Store} {figure : Figure} :
    prepare a store = .ok figure ↔ checked a store = .ok () ∧
      ∃ records, recordsOf a (store.read a.input) = .ok records ∧ plotted a records = .ok figure := by
  rw [prepare]
  simp only [bind_eq_ok_iff]
  exact ⟨fun ⟨_, h⟩ => h, fun h => ⟨(), h⟩⟩

/-- The stage before another one; there is none before the preflight. -/
def previous : Stage → Stage
  | .preflight | .parse => .preflight
  | .axis => .parse
  | .render => .axis
  | .html => .render
  | .svg => .html
  | .pdf => .svg
  | .viewer => .pdf

theorem eq_or_le_previous {earlier later : Stage} (h : earlier.ctorIdx ≤ later.ctorIdx) :
    earlier = later ∨ earlier.ctorIdx ≤ (previous later).ctorIdx ∧
      (previous later).ctorIdx < later.ctorIdx := by
  -- the stages are few enough to compare each two of them
  cases earlier <;> cases later <;>
    first | exact .inl rfl | exact .inr (by decide) | exact absurd h (by decide)

/-- A stage completes only if the one before it does. -/
theorem Completed.previous {stage : Stage} (h : Completed a system stage) :
    Completed a system (previous stage) := by
  cases stage with
  | preflight => exact h
  | parse => exact h.1
  | axis =>
      obtain ⟨figure, hprep⟩ := h
      obtain ⟨hchecked, records, hrecords, -⟩ := prepare_eq_ok_iff_bind.mp hprep
      exact ⟨hchecked, records, hrecords⟩
  | render => exact h
  | html =>
      obtain ⟨figure, d, hprep, -⟩ := h
      exact ⟨figure, hprep⟩
  | svg =>
      obtain ⟨figure, d, hprep, hsaved⟩ := h
      obtain ⟨d₁, hpage, -⟩ := Disk.saveAll_cons_eq_ok_iff.mp hsaved
      exact ⟨figure, d₁, hprep, Disk.saveAll_cons_eq_ok_iff.mpr ⟨d₁, hpage, rfl⟩⟩
  | pdf =>
      obtain ⟨figure, outputs, d, hprep, hall, hsaved⟩ := h
      obtain ⟨later, rfl⟩ := exists_later_of_allOutputs hall
      obtain ⟨d₁, hfirst, -⟩ := Disk.saveAll_append_eq_ok_iff.mp hsaved
      exact ⟨figure, d₁, hprep, hfirst⟩
  | viewer => exact h.1

/-- A stage completes only if all stages before it do. -/
theorem Completed.of_le {earlier later : Stage} (hle : earlier.ctorIdx ≤ later.ctorIdx)
    (h : Completed a system later) : Completed a system earlier := by
  rcases eq_or_le_previous hle with rfl | ⟨hle', hlt⟩
  · exact h
  · exact Completed.of_le hle' h.previous
termination_by later.ctorIdx

/-- The warnings of a run: those about its records, once they are read. -/
def warningsOf (a : Arguments) (store : Store) : List String :=
  match checked a store, recordsOf a (store.read a.input) with
  | .ok (), .ok records => warnings records
  | _, _ => []

open Classical in
/-- The stages of a plan that complete. -/
noncomputable def completedOf (a : Arguments) (system : System)
    (plan : List Stage) : List Stage :=
  plan.filter fun stage => decide (Completed a system stage)

theorem mem_completedOf_iff {stage : Stage} {plan : List Stage} :
    stage ∈ completedOf a system plan ↔
      stage ∈ plan ∧ Completed a system stage := by
  simp [completedOf]

theorem completedOf_append_of_completed {plan : List Stage}
    (h : ∀ stage ∈ plan, Completed a system stage) (rest : List Stage) :
    completedOf a system (plan ++ rest) = plan ++ completedOf a system rest := by
  rw [completedOf, completedOf, List.filter_append, List.filter_eq_self.mpr]
  exact fun stage hmem => by simpa using h stage hmem

/-- If a stage does not complete no later one does. -/
theorem completedOf_eq_nil {plan : List Stage} {first : Stage}
    (hfirst : ¬ Completed a system first)
    (hplan : ∀ stage ∈ plan, first.ctorIdx ≤ stage.ctorIdx) :
    completedOf a system plan = [] := by
  rw [completedOf, List.filter_eq_nil_iff]
  intro stage hmem hstage
  exact hfirst (.of_le (hplan stage hmem) (by simpa using hstage))

/-! ## Notices that tell of them -/

/-- Whether some notices are warnings, the ends of stages, and other statistics, but do not tell of
    the end of the run. -/
structure Reports (texts : List String) (stages : List Stage) (notices : List Notice) : Prop where
  warnings_eq : heard false notices = texts.map .warning
  stages_eq : stagesOf notices = stages
  not_total : ∀ n ∈ notices, ¬ n.IsTotal

theorem reports_nil : Reports [] [] [] := ⟨rfl, rfl, by simp⟩

theorem Reports.append {texts texts' : List String} {stages stages' : List Stage}
    {notices notices' : List Notice} (h : Reports texts stages notices)
    (h' : Reports texts' stages' notices') :
    Reports (texts ++ texts') (stages ++ stages') (notices ++ notices') where
  warnings_eq := by rw [heard_append, h.warnings_eq, h'.warnings_eq, List.map_append]
  stages_eq := by rw [stagesOf_append, h.stages_eq, h'.stages_eq]
  not_total n hn := (List.mem_append.mp hn).elim (h.not_total n) (h'.not_total n)

/-- A line of the statistics that is not the last one. -/
theorem reports_statistic (line : Statistic) (h : ∀ time, line ≠ .total time) :
    Reports [] (stagesOf [.statistic line]) [.statistic line] where
  warnings_eq := rfl
  stages_eq := rfl
  not_total n hn := by
    rintro ⟨time, rfl⟩
    exact h time (Notice.statistic.inj (List.mem_singleton.mp hn)).symm

theorem reports_ended (stage : Stage) : Reports [] [stage] [ended stage] :=
  reports_statistic (.stage stage _) (by simp)

theorem reports_outputNotices (stage : Stage) (path : String) (bytes : Nat) :
    Reports [] [stage] (outputNotices stage path bytes) :=
  (reports_ended stage).append (reports_statistic (.output stage path bytes) (by simp))

theorem reports_warnings (texts : List String) : Reports texts [] (texts.map .warning) where
  warnings_eq := heard_warnings texts
  stages_eq := stagesOf_warnings texts
  not_total n hn := by
    obtain ⟨text, -, rfl⟩ := List.mem_map.mp hn
    simp [Notice.IsTotal]

theorem reports_loadNotices (a : Arguments) (records : List (Record Float)) :
    Reports (warnings records) [.parse] (loadNotices a records) :=
  (reports_ended .parse).append
    ((reports_statistic (.input a.input records.length) (by simp)).append
      (reports_warnings (warnings records)))

/-- The end of a run that succeeds. -/
def totalOf : Except Failure Unit → List Notice
  | .ok () => [.statistic (.total (Duration.ofNanos 0))]
  | .error _ => []

/-- Whether some notices hold some warnings and tell of each stage of a plan that completes, and then
    of the end of a run that succeeds. -/
def Recounts (a : Arguments) (system : System) (texts : List String)
    (plan : List Stage) (result : Except Failure Unit) (notices : List Notice) : Prop :=
  ∃ body, notices = body ++ totalOf result ∧
    Reports texts (completedOf a system plan) body

theorem Recounts.append {texts texts' : List String} {plan plan' : List Stage}
    {result : Except Failure Unit} {notices notices' : List Notice}
    (h : Reports texts plan notices) (hcompleted : ∀ stage ∈ plan, Completed a system stage)
    (h' : Recounts a system texts' plan' result notices') :
    Recounts a system (texts ++ texts') (plan ++ plan') result (notices ++ notices') := by
  obtain ⟨body, rfl, hbody⟩ := h'
  refine ⟨notices ++ body, (List.append_assoc ..).symm, ?_⟩
  rw [completedOf_append_of_completed hcompleted]
  exact h.append hbody

/-- A stage that fails says nothing, and no later one comes to say anything. -/
theorem recounts_failure {plan : List Stage} {first : Stage} (failure : Failure)
    (hfirst : ¬ Completed a system first)
    (hplan : ∀ stage ∈ plan, first.ctorIdx ≤ stage.ctorIdx) :
    Recounts a system [] plan (.error failure) [] := by
  refine ⟨[], rfl, ?_⟩
  rw [completedOf_eq_nil hfirst hplan]
  exact reports_nil

/-- After the last stage of a run only its end is left to tell. -/
theorem recounts_success : Recounts a system [] [] (.ok ()) (totalOf (.ok ())) :=
  ⟨[], rfl, reports_nil⟩

end LatencyPlot.Session
