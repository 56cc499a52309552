/-
  LatencyPlot.Proofs.Run.Input

  What a run does to its own input when nobody says where the page is to go and
  no other output is to go there: nothing, but for an input that has the name of
  a page. Such an input is the default place of its own page, and a run that
  gets as far as writing the page loses it.
-/
import LatencyPlot.Proofs.Text.Bytes
import LatencyPlot.Proofs.Run.Outcome
import LatencyPlot.Proofs.Storage.Names

namespace LatencyPlot.Session

open Command (Arguments)
open Storage

variable {a : Arguments} {figure : Figure} {store : Store} {system : System} {stats : Bool}
  {location : Location}

/-! ## The input -/

theorem read_input_of_unprepared {failure : Failure}
    (hprep : prepare a system.store = .error failure) :
    (machineAfter stats a system).store.read a.input = system.store.read a.input := by
  obtain ⟨written, hends, hwritten, -⟩ := exists_ends stats a system
  obtain ⟨-, rfl⟩ := hends.eq_of_unprepared hprep
  -- nothing is written, so the store is what it was
  have hstore : system.store = (machineAfter stats a system).store := Except.ok.inj hwritten
  rw [← hstore]

theorem isFile_of_prepare (hprep : prepare a store = .ok figure) :
    store.isFile a.input = true :=
  (prepare_eq_ok_iff.mp hprep).1.1

/-- The page goes to its default place, and no other output to the input. -/
structure KeepsOffInput (a : Arguments) (store : Store) : Prop where
  out : a.out = none
  others : ∀ path ∈ a.svg.toList ++ a.pdf.toList, ∀ place,
    store.locate a.input = .ok place → store.locate path ≠ .ok place

theorem KeepsOffInput.pageOf (h : KeepsOffInput a store) :
    pageOf a = Path.defaultPage a.input := by
  rw [Session.pageOf, h.out, Option.getD_none]

theorem KeepsOffInput.target_ne (h : KeepsOffInput a store)
    (hlocate : store.locate a.input = .ok location) {path : String}
    (hpath : path ∈ a.svg.toList ++ a.pdf.toList) : store.target path ≠ .ok location := by
  intro htarget
  exact h.others path hpath _ hlocate (Store.locate_eq_of_target htarget)

theorem read_input_of_not_hasPageName (h : KeepsOffInput a system.store)
    (hname : ¬ Path.HasPageName a.input) :
    (machineAfter stats a system).store.read a.input = system.store.read a.input := by
  cases hprep : prepare a system.store with
  | error failure => exact read_input_of_unprepared hprep
  | ok figure =>
      obtain ⟨location, content, hlocate, hentry⟩ :=
        Store.exists_location_of_isFile (isFile_of_prepare hprep)
      obtain ⟨written, hends, hwritten, -⟩ := exists_ends stats a system
      apply Store.read_writeAll_of_ne hwritten hlocate
      intro o ho htarget
      have hmem : o.path ∈ requestedPaths a := hends.paths.subset (List.mem_map_of_mem ho)
      rcases List.mem_cons.mp hmem with hpath | hpath
      · -- the page stands beside the input, under another name
        rw [hpath, h.pageOf] at htarget
        have hnames := (Store.locate_eq_ok_iff.mp (Store.locate_eq_of_target htarget)).2
        exact hname ((Store.locateNames_defaultPage hlocate hentry).mp hnames)
      · exact h.target_ne hlocate hpath htarget

/-- What is read where a file with some content was to be written, by what goes wrong with the next
    two steps on the disk: what was there before, or the beginning of the content, or all of it. -/
def readAfter (d : Disk) (before : Except AccessError (List UInt8)) (content : List UInt8) :
    Except AccessError (List UInt8) :=
  match d.faults 0, d.faults 1 with
  | some _, _ => before
  | none, some fault => .ok (content.take fault.after)
  | none, none => .ok content

theorem read_input_of_hasPageName (h : KeepsOffInput a system.store)
    (hprep : prepare a system.store = .ok figure) (hname : Path.HasPageName a.input) :
    (machineAfter stats a system).store.read a.input =
      readAfter system.toDisk (system.store.read a.input) (pageOutput a figure).content := by
  obtain ⟨location, content, hlocate, hentry⟩ :=
    Store.exists_location_of_isFile (isFile_of_prepare hprep)
  obtain ⟨written, hends, hwritten, -⟩ := exists_ends stats a system
  have hpath : (pageOutput a figure).path = a.input := by
    show pageOf a = a.input
    rw [h.pageOf, Store.defaultPage_eq_self hlocate hentry hname]
  have htarget : system.store.target (pageOutput a figure).path = .ok location :=
    hpath ▸ Store.target_of_file hlocate hentry
  have hpaths := hends.paths
  have hwrites := hends.eq_begun_or_cons hprep
  rw [requestedPaths, ← show (pageOutput a figure).path = pageOf a from rfl] at hpaths
  rw [readAfter, ← hpath]
  generalize pageOutput a figure = page at *
  have hsave := Disk.save_of_target (d := system.toDisk) htarget
  rcases hwrites with ⟨e, hfails, rfl⟩ | ⟨d, later, hdone, rfl⟩
  · -- a file can be written where the input is, so that only the disk can stop it
    rw [hfails] at hsave
    rcases hfirst : system.faults 0 with _ | first
    · rcases hsecond : system.faults 1 with _ | second
      · rw [hfirst, hsecond] at hsave
        cases hsave
      · rw [hfirst, hsecond] at hsave
        cases hsave
        rw [begun, ← List.nil_append [_]] at hwritten
        exact Store.read_writeAll hwritten (by simp)
    · rw [hfirst] at hsave
      cases hsave
      have hstore : system.store = (machineAfter stats a system).store := Except.ok.inj hwritten
      rw [← hstore]
  · obtain ⟨hfirst, hsecond, -⟩ := Disk.save_eq_ok_iff.mp hdone
    have hlater : later.map Output.path <+: a.svg.toList ++ a.pdf.toList :=
      (List.cons_prefix_cons.mp hpaths).2
    -- nothing that is written after the page goes there again
    have hlast : ∀ p ∈ later, system.store.target p.path ≠ system.store.target page.path := by
      intro p hp heq
      rw [htarget] at heq
      exact h.target_ne hlocate (hlater.subset (List.mem_map_of_mem hp)) heq
    rw [← List.nil_append (page :: later)] at hwritten
    rw [hfirst, hsecond]
    exact Store.read_writeAll hwritten hlast

/-- **What a run does to its input.** It leaves the input as it is, unless the input has the name
    of a page: the default place of the page is the place of the input for such a name, and for no
    other, and the page, or as much of it as could be written, is what a run that comes to writing
    it leaves there. -/
theorem run_spares_input (stats : Bool) (a : Arguments) (system : System)
    (h : KeepsOffInput a system.store) :
    (¬ Path.HasPageName a.input →
      (machineAfter stats a system).store.read a.input = system.store.read a.input) ∧
    (Path.HasPageName a.input →
      (machineAfter stats a system).store.read a.input =
        match prepare a system.store with
        | .error _ => system.store.read a.input
        | .ok figure =>
          readAfter system.toDisk (system.store.read a.input) (pageOutput a figure).content) ∧
    ∀ path, system.store.isFile path = true →
      (system.store.locate (Path.defaultPage path) = system.store.locate path ↔
        Path.HasPageName path) := by
  refine ⟨read_input_of_not_hasPageName h, fun hname => ?_,
    fun path hfile => Store.locate_defaultPage_iff hfile⟩
  cases hprep : prepare a system.store with
  | error failure => exact read_input_of_unprepared hprep
  | ok figure => exact read_input_of_hasPageName h hprep hname

theorem keepsOffInput_of_toOption_ne {name : String}
    (h : ((oneRun name).locate "../runs.svg").toOption ≠ ((oneRun name).locate name).toOption) :
    KeepsOffInput (drawingArguments name) (oneRun name) where
  out := rfl
  others path hpath place hinput hother := by
    have hpath : path = "../runs.svg" := by simpa [drawingArguments] using hpath
    have hinput : (oneRun name).locate name = .ok place := hinput
    rw [hpath] at hother
    rw [hinput, hother] at h
    exact h rfl

theorem run_spares_csv :
    KeepsOffInput (drawingArguments "runs.csv") (oneRun "runs.csv") ∧
    (machineAfter false (drawingArguments "runs.csv") (oneRunSystem "runs.csv")).store.read
      "runs.csv" = (oneRun "runs.csv").read "runs.csv" := by
  have hkeeps : KeepsOffInput (drawingArguments "runs.csv") (oneRunSystem "runs.csv").store :=
    keepsOffInput_of_toOption_ne (by decide +kernel)
  have hname : ¬ Path.HasPageName "runs.csv" := by decide +kernel
  exact ⟨hkeeps, (run_spares_input false _ _ hkeeps).1 hname⟩

theorem toList_pageText (a : Arguments) (figure : Figure) :
    ∃ rest, (pageText a figure).toList = '<' :: rest := by
  rw [pageText, Page.render, Markup.render, String.toList_ofList]
  exact ⟨_, rfl⟩

/-- A run with the page of another run for an input succeeds, and that page is lost. -/
theorem run_loses_html :
    KeepsOffInput (drawingArguments "runs.html") (oneRun "runs.html") ∧
    exitStatus (outcome false (drawingArguments "runs.html") (oneRunSystem "runs.html")) = 0 ∧
    (machineAfter false (drawingArguments "runs.html") (oneRunSystem "runs.html")).store.read
      "runs.html" ≠ (oneRun "runs.html").read "runs.html" := by
  have hkeeps : KeepsOffInput (drawingArguments "runs.html") (oneRunSystem "runs.html").store :=
    keepsOffInput_of_toOption_ne (by decide +kernel)
  have hname : Path.HasPageName "runs.html" := by decide +kernel
  have hprep : (prepare (drawingArguments "runs.html") (oneRun "runs.html")).toBool = true := by
    decide +kernel
  refine ⟨hkeeps, by decide +kernel, ?_⟩
  cases hfigure : prepare (drawingArguments "runs.html") (oneRun "runs.html") with
  | error failure =>
      rw [hfigure] at hprep
      cases hprep
  | ok figure =>
      have hbefore : (oneRun "runs.html").read "runs.html" =
          .ok "'a',1,2,3,4,5\n".toUTF8.toList := by
        rfl
      have hafter : (machineAfter false (drawingArguments "runs.html")
          (oneRunSystem "runs.html")).store.read "runs.html" =
            .ok (pageOutput (drawingArguments "runs.html") figure).content :=
        read_input_of_hasPageName hkeeps hfigure hname
      rw [hbefore, hafter]
      intro heq
      -- a page begins with a tag, and the input with a quote
      obtain ⟨rest, hpage⟩ := toList_pageText (drawingArguments "runs.html") figure
      have hsame := Text.toUTF8_inj (Except.ok.inj heq)
      rw [← String.toList_inj] at hsame
      have hpage' := hpage.symm.trans hsame
      simp at hpage'

end LatencyPlot.Session
