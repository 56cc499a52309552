/-
  LatencyPlot.Proofs.Run.Unfolding

  A run from stage to stage. What is left of a run, from the disk that it has
  come to, ends it in one of the ways there are and recounts the stages that are
  left, with and without statistics alike (`Unfolds`). There is one lemma for
  each stage, the last one first, and they put the whole run together
  (`exists_recount`).
-/
import LatencyPlot.Proofs.Run.Trace

namespace LatencyPlot.Session

open Command (Arguments)
open Storage

/-! ## From stage to stage -/

variable {a : Arguments} {figure : Figure} {system : System} {d d' : Disk}

/-- A machine in a system whose disk a run has worked on. -/
def machineOn (system : System) (d : Disk) : Machine := .ofSystem { system with toDisk := d }

/-- The rest of a run, with a disk that it has come to, ends the run as it should and recounts the
    stages that are left, with and without statistics and whenever the run began. -/
def Unfolds (a : Arguments) (system : System) (d : Disk) (texts : List String) (plan : List Stage)
    (rest : Bool → Nat → ExceptT Failure (StateM Machine) Unit) : Prop :=
  ∃ result written notices after, Ends a system result written ∧
    system.store.writeAll written = .ok after.store ∧ after.launched = launches a result ∧
    stdout after = prints a result ∧ Recounts a system texts plan result notices ∧
    ∀ stats start, Tells stats (rest stats start) (machineOn system d) notices result after

/-- Stages that do their work leave it to the rest to end the run. -/
theorem Unfolds.of_tells {α : Type} {x : Bool → ExceptT Failure (StateM Machine) α} {v : α}
    {rest : Bool → Nat → α → ExceptT Failure (StateM Machine) Unit} {texts texts' : List String}
    {stages plan : List Stage} {notices : List Notice}
    (hx : ∀ stats, Tells stats (x stats) (machineOn system d) notices (.ok v)
      (machineOn system d'))
    (hreports : Reports texts stages notices)
    (hcompleted : ∀ stage ∈ stages, Completed a system stage)
    (hrest : Unfolds a system d' texts' plan fun stats start => rest stats start v) :
    Unfolds a system d (texts ++ texts') (stages ++ plan)
      fun stats start => x stats >>= rest stats start := by
  obtain ⟨result, written, notices', after, hends, hwritten, hlaunched, hprinted, hrecounts,
    htells⟩ := hrest
  exact ⟨result, written, notices ++ notices', after, hends, hwritten, hlaunched, hprinted,
    .append hreports hcompleted hrecounts,
    fun stats start => tells_bind (hx stats) (htells stats start)⟩

/-- A stage that is left out does not show. -/
theorem Unfolds.of_pure {texts : List String} {plan : List Stage}
    {rest : Bool → Nat → Unit → ExceptT Failure (StateM Machine) Unit}
    (hrest : Unfolds a system d texts plan fun stats start => rest stats start ()) :
    Unfolds a system d texts plan fun stats start => pure () >>= rest stats start :=
  .of_tells (fun _ => tells_pure ()) reports_nil (by simp) hrest

/-- An output that is written is the work of a stage. -/
theorem Unfolds.of_output {x : Bool → ExceptT Failure (StateM Machine) Unit} {stage : Stage}
    {o : Output} {plan : List Stage}
    {rest : Bool → Nat → Unit → ExceptT Failure (StateM Machine) Unit}
    (hx : ∀ stats, Tells stats (x stats) (machineOn system d)
      (outputNotices stage o.path ((machineOn system d').size o.path)) (.ok ())
      (machineOn system d'))
    (hcompleted : Completed a system stage)
    (hrest : Unfolds a system d' [] plan fun stats start => rest stats start ()) :
    Unfolds a system d [] ([stage] ++ plan) fun stats start => x stats >>= rest stats start :=
  .of_tells hx (reports_outputNotices stage o.path _) (by simpa using hcompleted) hrest

/-- A stage that fails ends the run, with nothing shown. -/
theorem Unfolds.of_error {α : Type} {x : Bool → ExceptT Failure (StateM Machine) α}
    {failure : Failure} {written : List Output} {plan : List Stage} {first : Stage}
    {rest : Bool → Nat → α → ExceptT Failure (StateM Machine) Unit}
    (hends : Ends a system (.error failure) written)
    (hwritten : system.store.writeAll written = .ok d'.store)
    (hx : ∀ stats, Tells stats (x stats) (machineOn system d) [] (.error failure)
      (machineOn system d'))
    (hfirst : ¬ Completed a system first)
    (hplan : ∀ stage ∈ plan, first.ctorIdx ≤ stage.ctorIdx) :
    Unfolds a system d [] plan fun stats start => x stats >>= rest stats start :=
  ⟨.error failure, written, [], machineOn system d', hends, hwritten, rfl, rfl,
    recounts_failure failure hfirst hplan, fun stats _ => tells_bind_error (hx stats)⟩

/-- An output that is not written as a whole ends the run, whatever was written before it. -/
theorem Unfolds.of_save_error {x : Bool → ExceptT Failure (StateM Machine) Unit}
    {unopened : StorageError → Failure} {o : Output} {e : WriteError} {plan : List Stage}
    {first : Stage} {rest : Bool → Nat → Unit → ExceptT Failure (StateM Machine) Unit}
    (before : List Output)
    (hends : Ends a system (.error (saveFailure unopened o.path e)) (before ++ begun o e))
    (hbefore : system.saveAll before = .ok d) (hsave : d.save o = .error e)
    (hx : ∀ d', (∀ stats, Tells stats (save unopened o.path o.content) (machineOn system d) []
        (.error (saveFailure unopened o.path e)) (machineOn system d')) →
      ∀ stats, Tells stats (x stats) (machineOn system d) []
        (.error (saveFailure unopened o.path e)) (machineOn system d'))
    (hfirst : ¬ Completed a system first)
    (hplan : ∀ stage ∈ plan, first.ctorIdx ≤ stage.ctorIdx) :
    Unfolds a system d [] plan fun stats start => x stats >>= rest stats start := by
  obtain ⟨d', hbegun, htells⟩ := tells_save_error (machineOn system d) unopened hsave
  have hwritten : system.store.writeAll (before ++ begun o e) = .ok d'.store :=
    Store.writeAll_append_eq_ok_iff.mpr ⟨d.store, Disk.writeAll_of_saveAll hbefore, hbegun⟩
  exact .of_error hends hwritten (hx d' htells) hfirst hplan

/-- A page that was written has a path that can be the argument of a program. -/
theorem viewer_of_saveAll {outputs : List Output}
    (hall : allOutputs a system.converter figure = .ok outputs)
    (hsaved : system.saveAll outputs = .ok d) :
    viewer (pageOf a) = ⟨"xdg-open", [pageOf a]⟩ := by
  obtain ⟨later, rfl⟩ := exists_later_of_allOutputs hall
  have hmem : pageOutput a figure ∈ firstOutputs a figure ++ later := List.mem_cons_self
  -- a path that was written holds no NUL, so it is passed on as it is
  obtain ⟨location, htarget⟩ :=
    Store.exists_target_of_writeAll (Disk.writeAll_of_saveAll hsaved) hmem
  have hnul : '\x00' ∉ (pageOf a).toList := Store.not_mem_of_target htarget
  rw [viewer, argument, if_neg]
  simpa using hnul

/-! ## Stage by stage -/

/-- After the work of a run only its end is left, with the page on show or its path printed. -/
theorem unfolds_total {outputs : List Output} {shown : Machine}
    (hends : Ends a system (.ok ()) outputs)
    (hwritten : system.store.writeAll outputs = .ok shown.store)
    (hlaunched : shown.launched = launches a (.ok ())) (hprinted : stdout shown = prints a (.ok ()))
    {x : Bool → ExceptT Failure (StateM Machine) Unit} {stages : List Stage}
    {notices : List Notice}
    (hx : ∀ stats, Tells stats (x stats) (machineOn system d) notices (.ok ()) shown)
    (hreports : Reports [] stages notices)
    (hcompleted : ∀ stage ∈ stages, Completed a system stage) :
    Unfolds a system d [] stages (fun stats start => do
      x stats
      record stats do return .total (← since start)) := by
  refine ⟨.ok (), outputs, notices ++ totalOf (.ok ()), shown, hends, hwritten, hlaunched, hprinted,
    ?_, fun stats start => tells_bind (hx stats) (tells_total start)⟩
  have hrecounts := Recounts.append hreports hcompleted recounts_success
  rwa [List.append_nil, List.append_nil] at hrecounts

theorem unfolds_present {outputs : List Output}
    (hprep : prepare a system.store = .ok figure)
    (hall : allOutputs a system.converter figure = .ok outputs)
    (hsaved : system.saveAll outputs = .ok d) :
    Unfolds a system d [] (viewerStage a) (fun stats start => do
      present stats a
      record stats do return .total (← since start)) := by
  have hwritten := Disk.writeAll_of_saveAll hsaved
  cases hopen : a.noOpen with
  | true =>
      have hplan : viewerStage a = [] := by rw [viewerStage, hopen]; rfl
      rw [hplan]
      refine unfolds_total (.success hprep hall hsaved (.inl hopen)) hwritten ?_ ?_
        (fun _ => tells_present_noOpen hopen) reports_nil (by simp)
      · simp [launches, hopen, machineOn, Machine.ofSystem]
      · simp [prints, hopen, stdout, machineOn, Machine.ofSystem, String.join]
  | false =>
      have hplan : viewerStage a = [.viewer] := by rw [viewerStage, hopen]; rfl
      rw [hplan]
      cases hviewer : system.hasViewer with
      | true =>
          have hcompleted : Completed a system .viewer :=
            ⟨⟨figure, outputs, d, hprep, hall, hsaved⟩, hviewer⟩
          refine unfolds_total (.success hprep hall hsaved (.inr hviewer)) hwritten ?_ ?_
            (fun _ => tells_present_open hopen hviewer) (reports_ended .viewer)
            (by simpa using hcompleted)
          · simp [launches, hopen, machineOn, Machine.ofSystem, viewer_of_saveAll hall hsaved]
          · simp [prints, hopen, stdout, machineOn, Machine.ofSystem, String.join]
      | false =>
          have hfirst : ¬ Completed a system .viewer := by
            rintro ⟨-, hhas⟩
            rw [hviewer] at hhas
            cases hhas
          exact .of_error (.noViewer hprep hall hsaved hopen hviewer) hwritten
            (fun _ => tells_present_error hopen hviewer) hfirst (by simp)

theorem unfolds_portable (hprep : prepare a system.store = .ok figure)
    (hsaved : system.saveAll (firstOutputs a figure) = .ok d) :
    Unfolds a system d [] (pdfStage a ++ viewerStage a) (fun stats start => do
      writePortable stats a figure
      present stats a
      record stats do return .total (← since start)) := by
  unfold writePortable
  cases hpdf : a.pdf with
  | none =>
      have hall : allOutputs a system.converter figure = .ok (firstOutputs a figure) := by
        rw [allOutputs, hpdf]
      have hplan : pdfStage a = [] := by rw [pdfStage, hpdf]; rfl
      rw [hplan]
      exact .of_pure (unfolds_present hprep hall hsaved)
  | some path =>
      dsimp only
      cases hconvert : system.converter figure.drawing with
      | error e =>
          -- nothing is written for a plot that cannot be converted
          have hfirst : ¬ Completed a system .pdf := by
            rintro ⟨figure', outputs, d', hprep', hall, -⟩
            rw [hprep] at hprep'
            cases hprep'
            rw [allOutputs, hpdf, hconvert] at hall
            cases hall
          exact .of_error (.unconvertible hprep hpdf hsaved hconvert)
            (Disk.writeAll_of_saveAll hsaved) (fun _ => tells_unconverted hconvert) hfirst
            pdf_le_of_mem
      | ok content =>
          have hall : allOutputs a system.converter figure =
              .ok (firstOutputs a figure ++ [⟨path, content⟩]) := by
            rw [allOutputs, hpdf, hconvert]
            rfl
          cases hsave : d.save ⟨path, content⟩ with
          | error e =>
              have hfails : system.Fails (firstOutputs a figure) ⟨path, content⟩ e :=
                ⟨d, hsaved, hsave⟩
              have hfirst : ¬ Completed a system .pdf := by
                rintro ⟨figure', outputs, d', hprep', hall', hsaved'⟩
                rw [hprep] at hprep'
                cases hprep'
                rw [hall] at hall'
                cases hall'
                exact hfails.not_saveAll [] hsaved'
              have hends := Ends.portableFails hprep hpdf hconvert hfails
              rw [← saveFailure_cannotWrite] at hends
              exact .of_save_error (firstOutputs a figure) hends hsaved hsave
                (fun _ h stats => tells_converted hconvert fun _ => tells_bind_error (h stats))
                hfirst pdf_le_of_mem
          | ok d₁ =>
              have hsaved₁ := Disk.saveAll_concat hsaved hsave
              have hplan : pdfStage a = [.pdf] := by rw [pdfStage, hpdf]; rfl
              rw [hplan]
              exact .of_output (o := ⟨path, content⟩)
                (fun _ => tells_converted hconvert fun start =>
                  tells_output (machineOn system d) hsave start)
                ⟨figure, _, d₁, hprep, hall, hsaved₁⟩ (unfolds_present hprep hall hsaved₁)

theorem unfolds_drawing (hprep : prepare a system.store = .ok figure)
    (hsaved : system.saveAll [pageOutput a figure] = .ok d) :
    Unfolds a system d [] (svgStage a ++ (pdfStage a ++ viewerStage a)) (fun stats start => do
      writeDrawing stats a figure
      writePortable stats a figure
      present stats a
      record stats do return .total (← since start)) := by
  unfold writeDrawing
  cases hsvg : a.svg with
  | none =>
      have hplan : svgStage a = [] := by rw [svgStage, hsvg]; rfl
      rw [hplan]
      refine .of_pure (unfolds_portable hprep ?_)
      rw [firstOutputs_of_svg_none hsvg]
      exact hsaved
  | some path =>
      dsimp only
      cases hsave : d.save (drawingOutput figure path) with
      | error e =>
          have hfails : system.Fails [pageOutput a figure] (drawingOutput figure path) e :=
            ⟨d, hsaved, hsave⟩
          have hfirst : ¬ Completed a system .svg := by
            rintro ⟨figure', d', hprep', hsaved'⟩
            rw [hprep] at hprep'
            cases hprep'
            rw [firstOutputs_of_svg hsvg] at hsaved'
            exact hfails.not_saveAll [] hsaved'
          have hends := Ends.drawingFails hprep hsvg hfails
          rw [← saveFailure_cannotWrite] at hends
          exact .of_save_error [pageOutput a figure] hends hsaved hsave
            (fun _ h stats => tells_clock_bind fun _ => tells_bind_error (h stats)) hfirst
            svg_le_of_mem
      | ok d₁ =>
          have hsaved₁ : system.saveAll (firstOutputs a figure) = .ok d₁ := by
            rw [firstOutputs_of_svg hsvg]
            exact Disk.saveAll_concat hsaved hsave
          have hplan : svgStage a = [.svg] := by rw [svgStage, hsvg]; rfl
          rw [hplan]
          exact .of_output (o := drawingOutput figure path)
            (fun _ => tells_clock_bind fun start => tells_output (machineOn system d) hsave start)
            ⟨figure, d₁, hprep, hsaved₁⟩ (unfolds_portable hprep hsaved₁)

theorem unfolds_page (hprep : prepare a system.store = .ok figure) :
    Unfolds a system system.toDisk []
      ([.html] ++ (svgStage a ++ (pdfStage a ++ viewerStage a))) (fun stats start => do
        writePage stats a figure
        writeDrawing stats a figure
        writePortable stats a figure
        present stats a
        record stats do return .total (← since start)) := by
  unfold writePage
  cases hsave : system.save (pageOutput a figure) with
  | error e =>
      have hfails : system.Fails [] (pageOutput a figure) e := ⟨system.toDisk, rfl, hsave⟩
      have hfirst : ¬ Completed a system .html := by
        rintro ⟨figure', d', hprep', hsaved'⟩
        rw [hprep] at hprep'
        cases hprep'
        exact hfails.not_saveAll [] hsaved'
      exact .of_save_error (o := pageOutput a figure) [] (.pageFails hprep hfails) rfl
        hsave (fun _ h stats => tells_clock_bind fun _ => tells_bind_error (h stats)) hfirst
        html_le_of_mem
  | ok d₁ =>
      have hsaved : system.saveAll ([] ++ [pageOutput a figure]) = .ok d₁ :=
        Disk.saveAll_concat rfl hsave
      exact .of_output (o := pageOutput a figure)
        (fun _ => tells_clock_bind fun start =>
          tells_output (machineOn system system.toDisk) hsave start)
        ⟨figure, d₁, hprep, hsaved⟩ (unfolds_drawing hprep hsaved)

/-- The stages after the preflight. -/
theorem unfolds_work (hchecked : checked a system.store = .ok ()) :
    Unfolds a system system.toDisk (warningsOf a system.store) (planned a) (fun stats start => do
      let records ← load stats a
      let figure ← plot stats a records
      writePage stats a figure
      writeDrawing stats a figure
      writePortable stats a figure
      present stats a
      record stats do return .total (← since start)) := by
  cases hrecords : recordsOf a (system.store.read a.input) with
  | error failure =>
      have hprep : prepare a system.store = .error failure := by
        rw [prepare, hchecked, hrecords]; rfl
      have htexts : warningsOf a system.store = [] := by simp only [warningsOf, hchecked, hrecords]
      have hfirst : ¬ Completed a system .parse := by
        rintro ⟨-, records, hrecords'⟩
        rw [hrecords] at hrecords'
        cases hrecords'
      rw [htexts]
      exact .of_error (.unprepared hprep) rfl (fun _ => tells_load_error hrecords) hfirst
        parse_le_of_mem
  | ok records =>
      -- the warnings are told as soon as the records are read, before the plot can fail
      have hprep : prepare a system.store = plotted a records := by
        rw [prepare, hchecked, hrecords]; rfl
      have htexts : warningsOf a system.store = warnings records ++ [] := by
        simp only [warningsOf, hchecked, hrecords, List.append_nil]
      have hparse : Completed a system .parse := ⟨hchecked, records, hrecords⟩
      rw [htexts]
      refine .of_tells (fun _ => tells_load hrecords) (reports_loadNotices a records)
        (by simpa using hparse) ?_
      cases hplotted : plotted a records with
      | error failure =>
          have hfirst : ¬ Completed a system .axis := by
            rintro ⟨figure, hprep'⟩
            rw [hprep, hplotted] at hprep'
            cases hprep'
          exact .of_error (.unprepared (hprep.trans hplotted)) rfl
            (fun _ => tells_plot_error hplotted) hfirst axis_le_of_mem
      | ok figure =>
          have hprepared : prepare a system.store = .ok figure := hprep.trans hplotted
          have haxis : Completed a system .axis := ⟨figure, hprepared⟩
          have hrender : Completed a system .render := ⟨figure, hprepared⟩
          exact .of_tells (fun _ => tells_plot hplotted)
            ((reports_ended .axis).append (reports_ended .render)) (by simp [haxis, hrender])
            (unfolds_page hprepared)

/-! ## The whole run -/

/-- Every run ends as it should, with and without statistics, and tells of its preflight and then of
    the stages that complete. -/
theorem exists_recount (a : Arguments) (system : System) :
    ∃ result written notices after, Ends a system result written ∧
      system.store.writeAll written = .ok after.store ∧ after.launched = launches a result ∧
      stdout after = prints a result ∧
      Recounts a system (warningsOf a system.store) (planned a) result notices ∧
      ∀ stats, Tells stats (stages stats a) (.ofSystem system)
        (ended .preflight :: notices) result after := by
  -- The preflight only looks, so what follows starts from the same machine.
  have hpre (stats : Bool) : Tells stats (preflight stats a) (.ofSystem system)
      [ended .preflight] (checked a system.store) (.ofSystem system) := tells_preflight a
  cases hchecked : checked a system.store with
  | error failure =>
      have hprep : prepare a system.store = .error failure := by rw [prepare, hchecked]; rfl
      have htexts : warningsOf a system.store = [] := by simp only [warningsOf, hchecked]
      have hfirst : ¬ Completed a system .parse := by
        rintro ⟨hchecked', -⟩
        rw [hchecked] at hchecked'
        cases hchecked'
      refine ⟨.error failure, [], [], .ofSystem system, .unprepared hprep, rfl, rfl, rfl,
        htexts ▸ recounts_failure failure hfirst parse_le_of_mem, fun stats => ?_⟩
      exact tells_clock_bind fun start => tells_bind_error (hchecked ▸ hpre stats)
  | ok u =>
      obtain ⟨result, written, notices, after, hends, hwritten, hlaunched, hprinted, hrecounts,
        htells⟩ := unfolds_work hchecked
      refine ⟨result, written, notices, after, hends, hwritten, hlaunched, hprinted, hrecounts,
        fun stats => ?_⟩
      exact tells_clock_bind fun start =>
        tells_bind_notice (hchecked ▸ hpre stats) (htells stats start)

end LatencyPlot.Session
