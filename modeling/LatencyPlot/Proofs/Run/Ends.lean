/-
  LatencyPlot.Proofs.Run.Ends

  The ways in which a run ends. Its outputs are the page, the drawing and the
  portable document, in this order, each of the last two only if it is asked
  for; each way of ending says which of them are written by then, and what is
  begun of one that fails.
-/
import LatencyPlot.Proofs.Run.Stages

namespace LatencyPlot.Session

open Command (Arguments)
open Storage

/-! ## Outputs -/

/-- The paths that a run is asked to write, in its order. -/
def requestedPaths (a : Arguments) : List String := pageOf a :: (a.svg.toList ++ a.pdf.toList)

def pageOutput (a : Arguments) (figure : Figure) : Output :=
  ⟨pageOf a, (pageText a figure).toUTF8.toList⟩

def drawingOutput (figure : Figure) (path : String) : Output :=
  ⟨path, figure.drawing.toUTF8.toList⟩

/-- The outputs before the portable document. -/
def firstOutputs (a : Arguments) (figure : Figure) : List Output :=
  pageOutput a figure :: a.svg.toList.map (drawingOutput figure)

/-- All outputs of a run, if the plot can be made what is asked for. -/
def allOutputs (a : Arguments) (converter : Portable.Converter) (figure : Figure) :
    Except Portable.ConversionError (List Output) :=
  match a.pdf with
  | none => .ok (firstOutputs a figure)
  | some path =>
    (converter figure.drawing).map fun content => firstOutputs a figure ++ [⟨path, content⟩]

theorem allOutputs_eq_ok_iff {a : Arguments} {converter : Portable.Converter} {figure : Figure}
    {outputs : List Output} :
    allOutputs a converter figure = .ok outputs ↔
      (a.pdf = none ∧ outputs = firstOutputs a figure) ∨
      ∃ path content, a.pdf = some path ∧ converter figure.drawing = .ok content ∧
        outputs = firstOutputs a figure ++ [⟨path, content⟩] := by
  unfold allOutputs
  cases a.pdf with
  | none => simp [eq_comm]
  | some path =>
      cases converter figure.drawing with
      | error e => simp [Except.map]
      | ok content => simp [Except.map, eq_comm]

/-- All outputs are the first ones, and at most one more. -/
theorem exists_later_of_allOutputs {a : Arguments} {converter : Portable.Converter}
    {figure : Figure} {outputs : List Output} (h : allOutputs a converter figure = .ok outputs) :
    ∃ later, outputs = firstOutputs a figure ++ later := by
  rcases allOutputs_eq_ok_iff.mp h with ⟨-, rfl⟩ | ⟨path, content, -, -, rfl⟩
  · exact ⟨[], (List.append_nil _).symm⟩
  · exact ⟨[⟨path, content⟩], rfl⟩

theorem firstOutputs_of_svg {a : Arguments} {path : String} (h : a.svg = some path)
    (figure : Figure) :
    firstOutputs a figure = [pageOutput a figure, drawingOutput figure path] := by
  rw [firstOutputs, h]
  rfl

theorem firstOutputs_of_svg_none {a : Arguments} (h : a.svg = none) (figure : Figure) :
    firstOutputs a figure = [pageOutput a figure] := by
  rw [firstOutputs, h]
  rfl

theorem paths_firstOutputs (a : Arguments) (figure : Figure) :
    (firstOutputs a figure).map Output.path = pageOf a :: a.svg.toList := by
  cases hsvg : a.svg <;> simp [firstOutputs, drawingOutput, pageOutput, hsvg]

/-- All outputs go to the requested paths, in their order. -/
theorem paths_allOutputs {a : Arguments} {converter : Portable.Converter} {figure : Figure}
    {outputs : List Output} (h : allOutputs a converter figure = .ok outputs) :
    outputs.map Output.path = requestedPaths a := by
  rcases allOutputs_eq_ok_iff.mp h with ⟨hpdf, rfl⟩ | ⟨path, content, hpdf, -, rfl⟩
  · rw [paths_firstOutputs, requestedPaths, hpdf]
    simp
  · rw [List.map_append, paths_firstOutputs, requestedPaths, hpdf]
    simp

/-! ## Ends -/

/-- The failure of a run that cannot write its page. -/
def pageFailure (a : Arguments) : WriteError → Failure :=
  saveFailure (.cannotCreatePage (pageOf a)) (pageOf a)

/-- How a run ends, and what it has written by then: outputs as a whole, and then perhaps the
    beginning of one more. -/
inductive Ends (a : Arguments) (system : System) : Except Failure Unit → List Output → Prop where
  /-- The preflight, the reading of the input or the bounds of its records fail. -/
  | unprepared {failure : Failure} : prepare a system.store = .error failure →
      Ends a system (.error failure) []
  | pageFails {figure : Figure} {e : WriteError} : prepare a system.store = .ok figure →
      system.Fails [] (pageOutput a figure) e →
      Ends a system (.error (pageFailure a e)) (begun (pageOutput a figure) e)
  | drawingFails {figure : Figure} {path : String} {e : WriteError} :
      prepare a system.store = .ok figure → a.svg = some path →
      system.Fails [pageOutput a figure] (drawingOutput figure path) e →
      Ends a system (.error (.cannotWrite path e.cause))
        (pageOutput a figure :: begun (drawingOutput figure path) e)
  | unconvertible {figure : Figure} {d : Disk} {path : String} {e : Portable.ConversionError} :
      prepare a system.store = .ok figure → a.pdf = some path →
      system.saveAll (firstOutputs a figure) = .ok d →
      system.converter figure.drawing = .error e →
      Ends a system (.error (.cannotConvert path e)) (firstOutputs a figure)
  | portableFails {figure : Figure} {path : String} {content : List UInt8} {e : WriteError} :
      prepare a system.store = .ok figure → a.pdf = some path →
      system.converter figure.drawing = .ok content →
      system.Fails (firstOutputs a figure) ⟨path, content⟩ e →
      Ends a system (.error (.cannotWrite path e.cause))
        (firstOutputs a figure ++ begun ⟨path, content⟩ e)
  | noViewer {figure : Figure} {outputs : List Output} {d : Disk} :
      prepare a system.store = .ok figure →
      allOutputs a system.converter figure = .ok outputs → system.saveAll outputs = .ok d →
      a.noOpen = false → system.hasViewer = false →
      Ends a system (.error (.cannotLaunch (pageOf a) .notFound)) outputs
  | success {figure : Figure} {outputs : List Output} {d : Disk} :
      prepare a system.store = .ok figure →
      allOutputs a system.converter figure = .ok outputs → system.saveAll outputs = .ok d →
      a.noOpen = true ∨ system.hasViewer = true →
      Ends a system (.ok ()) outputs

/-- What a run that ends so has started. -/
def launches (a : Arguments) : Except Failure Unit → List Program
  | .ok () => if a.noOpen then [] else [⟨"xdg-open", [pageOf a]⟩]
  | .error _ => []

/-- What a run that ends so has printed. -/
def prints (a : Arguments) : Except Failure Unit → String
  | .ok () => if a.noOpen then pageOf a ++ "\n" else ""
  | .error _ => ""

/-- The text that a machine has printed. -/
def stdout (machine : Machine) : String :=
  String.join (machine.printed.reverse.map fun line => line ++ "\n")

/-- Every stage of a run can do its work. -/
def Succeeds (a : Arguments) (system : System) : Prop :=
  ∃ figure outputs after, prepare a system.store = .ok figure ∧
    allOutputs a system.converter figure = .ok outputs ∧ system.saveAll outputs = .ok after ∧
    (a.noOpen = true ∨ system.hasViewer = true)

/-! ## What holds however a run ends -/

variable {a : Arguments} {system : System} {result : Except Failure Unit} {written : List Output}

/-- What is written of a file goes to the path of the file. -/
theorem paths_begun (o : Output) (e : WriteError) : (begun o e).map Output.path <+: [o.path] := by
  cases e with
  | opening => exact List.nil_prefix
  | writing => exact List.prefix_refl _

/-- The outputs of a run are those that are asked for, up to some point. -/
theorem Ends.paths (h : Ends a system result written) :
    written.map Output.path <+: requestedPaths a := by
  cases h with
  | unprepared => exact List.nil_prefix
  | pageFails => exact (paths_begun _ _).trans ⟨a.svg.toList ++ a.pdf.toList, rfl⟩
  | @drawingFails figure path e _ hsvg =>
      rw [requestedPaths, hsvg, List.map_cons]
      have hbegun := (paths_begun (drawingOutput figure path) e).trans
        (List.prefix_append [path] a.pdf.toList)
      exact List.cons_prefix_cons.mpr ⟨rfl, hbegun⟩
  | unconvertible =>
      rw [paths_firstOutputs]
      exact ⟨a.pdf.toList, rfl⟩
  | @portableFails figure path content e _ hpdf =>
      rw [List.map_append, paths_firstOutputs, requestedPaths, hpdf, ← List.cons_append]
      exact (List.prefix_append_right_inj _).mpr (paths_begun ⟨path, content⟩ e)
  | noViewer _ houtputs => exact ⟨[], by rw [List.append_nil, paths_allOutputs houtputs]⟩
  | success _ houtputs => exact ⟨[], by rw [List.append_nil, paths_allOutputs houtputs]⟩

/-- A run that has ended well could do all its work. -/
theorem Ends.succeeds (h : Ends a system (.ok ()) written) : Succeeds a system := by
  cases h with
  | success hprep houtputs hsaved hshow => exact ⟨_, _, _, hprep, houtputs, hsaved, hshow⟩

/-- A run with a plot ends at its first output that fails, or at the converter, or it writes all its
    outputs, and then the viewer decides. -/
theorem Ends.cases_of_prepared {figure : Figure} (h : Ends a system result written)
    (hprep : prepare a system.store = .ok figure) :
    (∃ e, system.Fails [] (pageOutput a figure) e ∧
      result = .error (pageFailure a e) ∧ written = begun (pageOutput a figure) e) ∨
    (∃ path e, a.svg = some path ∧
      system.Fails [pageOutput a figure] (drawingOutput figure path) e ∧
      result = .error (.cannotWrite path e.cause) ∧
      written = pageOutput a figure :: begun (drawingOutput figure path) e) ∨
    (∃ path d e, a.pdf = some path ∧ system.saveAll (firstOutputs a figure) = .ok d ∧
      system.converter figure.drawing = .error e ∧
      result = .error (.cannotConvert path e) ∧ written = firstOutputs a figure) ∨
    (∃ path content e, a.pdf = some path ∧ system.converter figure.drawing = .ok content ∧
      system.Fails (firstOutputs a figure) ⟨path, content⟩ e ∧
      result = .error (.cannotWrite path e.cause) ∧
      written = firstOutputs a figure ++ begun ⟨path, content⟩ e) ∨
    ∃ d, allOutputs a system.converter figure = .ok written ∧ system.saveAll written = .ok d ∧
      result = if a.noOpen || system.hasViewer then .ok ()
        else .error (.cannotLaunch (pageOf a) .notFound) := by
  -- whatever plot the end speaks of, it is this one
  have hsame {figure' : Figure} (hprep' : prepare a system.store = .ok figure') :
      figure' = figure := Except.ok.inj (hprep'.symm.trans hprep)
  cases h with
  | unprepared hfailure =>
      rw [hprep] at hfailure
      cases hfailure
  | pageFails hprep' hfails =>
      obtain rfl := hsame hprep'
      exact .inl ⟨_, hfails, rfl, rfl⟩
  | drawingFails hprep' hsvg hfails =>
      obtain rfl := hsame hprep'
      exact .inr (.inl ⟨_, _, hsvg, hfails, rfl, rfl⟩)
  | unconvertible hprep' hpdf hsaved hconvert =>
      obtain rfl := hsame hprep'
      exact .inr (.inr (.inl ⟨_, _, _, hpdf, hsaved, hconvert, rfl, rfl⟩))
  | portableFails hprep' hpdf hconvert hfails =>
      obtain rfl := hsame hprep'
      exact .inr (.inr (.inr (.inl ⟨_, _, _, hpdf, hconvert, hfails, rfl, rfl⟩)))
  | noViewer hprep' houtputs hsaved hopen hviewer =>
      obtain rfl := hsame hprep'
      rw [hopen, hviewer]
      exact .inr (.inr (.inr (.inr ⟨_, houtputs, hsaved, rfl⟩)))
  | success hprep' houtputs hsaved hshow =>
      obtain rfl := hsame hprep'
      have hshown : (a.noOpen || system.hasViewer) = true := by simpa using hshow
      rw [if_pos hshown]
      exact .inr (.inr (.inr (.inr ⟨_, houtputs, hsaved, rfl⟩)))

/-- A run that can do all its work does not fail. -/
theorem Ends.not_succeeds {failure : Failure} (h : Ends a system (.error failure) written) :
    ¬ Succeeds a system := by
  rintro ⟨figure, outputs, after, hprep, houtputs, hall, hshow⟩
  obtain ⟨later, houtputs_eq⟩ := exists_later_of_allOutputs houtputs
  -- each failure contradicts one of the conditions
  rcases h.cases_of_prepared hprep with ⟨e, hfails, -⟩ | ⟨path, e, hsvg, hfails, -⟩ |
    ⟨path, d, e, hpdf, -, hconvert, -⟩ | ⟨path, content, e, hpdf, hconvert, hfails, -⟩ |
    ⟨d, -, -, hresult⟩
  · -- the page that fails is the first of the outputs that are all saved
    rw [houtputs_eq] at hall
    exact hfails.not_saveAll _ hall
  · rw [houtputs_eq, firstOutputs_of_svg hsvg] at hall
    exact hfails.not_saveAll later hall
  · rw [allOutputs, hpdf, hconvert] at houtputs
    cases houtputs
  · rw [allOutputs, hpdf, hconvert] at houtputs
    cases houtputs
    exact hfails.not_saveAll [] hall
  · have hshown : (a.noOpen || system.hasViewer) = true := by simpa using hshow
    rw [if_pos hshown] at hresult
    cases hresult

/-- A run succeeds if every stage can do its work, and only then. -/
theorem Ends.exitStatus_eq_zero_iff (h : Ends a system result written) :
    exitStatus result = 0 ↔ Succeeds a system := by
  rcases result with failure | ⟨⟩
  · exact iff_of_false (by simp [exitStatus]) h.not_succeeds
  · exact iff_of_true rfl h.succeeds

end LatencyPlot.Session
