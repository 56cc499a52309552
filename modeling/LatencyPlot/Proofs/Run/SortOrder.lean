/-
  LatencyPlot.Proofs.Run.SortOrder

  The order of the boxes is all that a sort key decides on. Two runs that differ
  in it end alike, print and show the same and warn of the same; the outputs of
  one are those of the other with the boxes, the labels and the rows of the
  table in another order.
-/
import LatencyPlot.Proofs.Plot.Heights
import LatencyPlot.Proofs.Run.Agreement
import LatencyPlot.Proofs.Run.Statistics
import LatencyPlot.Proofs.Storage.Shape

namespace LatencyPlot.Session

open Command (Arguments)
open Markup
open Storage

/-! ## Ends by what fails -/

variable {a : Arguments} {figure figure' : Figure} {system : System} {store : Store}
  {result : Except Failure Unit} {written : List Output} {key key' : SortKey}
  {records : List (Record Float)}

/-- The result of a run whose plot is made, by the first of the page and the drawing that is not
    written as a whole. -/
def resultOf (a : Arguments) (hasViewer : Bool) : Option (Nat × WriteError) → Except Failure Unit
  | some (0, e) => .error (pageFailure a e)
  | some (_ + 1, e) => .error (.cannotWrite (a.svg.getD "") e.cause)
  | none =>
    if a.noOpen || hasViewer then .ok () else .error (.cannotLaunch (pageOf a) .notFound)

/-- A run that succeeds has had nothing fail. -/
theorem eq_none_of_resultOf {hasViewer : Bool} {stop : Option (Nat × WriteError)}
    (h : resultOf a hasViewer stop = .ok ()) : stop = none := by
  rcases stop with _ | ⟨_ | n, e⟩
  · rfl
  · cases h
  · cases h

/-- Without a portable document the first failure decides how a run ends and what it has written. -/
theorem Ends.eq_of_failure? (h : Ends a system result written) (hpdf : a.pdf = none)
    (hprep : prepare a system.store = .ok figure) :
    let stop := system.failure? (firstOutputs a figure)
    result = resultOf a system.hasViewer stop ∧
      written = Disk.cutAt stop (firstOutputs a figure) := by
  intro stop
  rcases h.cases_of_prepared hprep with ⟨e, hfails, rfl, rfl⟩ | ⟨path, e, hsvg, hfails, rfl, rfl⟩ |
    ⟨path, d, e, hpdf', -⟩ | ⟨path, content, e, hpdf', -⟩ | ⟨d, hall, hsaved, rfl⟩
  · -- the page comes first, so its failure is the first one
    have hstop : stop = some (0, e) := hfails.failure?_append _
    rw [hstop]
    exact ⟨rfl, (Disk.cutAt_append [] _ e _).symm⟩
  · -- the page is written, and then the drawing fails
    have hfirst := firstOutputs_of_svg hsvg figure
    have hstop : stop = some (1, e) := by
      show system.failure? (firstOutputs a figure) = _
      rw [hfirst]
      exact hfails.failure?_append []
    rw [hstop, resultOf, hsvg, hfirst]
    exact ⟨rfl, (Disk.cutAt_append [pageOutput a figure] _ e []).symm⟩
  · rw [hpdf] at hpdf'
    cases hpdf'
  · rw [hpdf] at hpdf'
    cases hpdf'
  · -- without a portable document the first outputs are all
    rw [allOutputs, hpdf] at hall
    cases hall
    have hstop : stop = none := Disk.failure?_of_saveAll hsaved
    rw [hstop]
    exact ⟨rfl, rfl⟩

/-! ## Two plots -/

/-- What is asked for, with another order of the boxes. -/
def sortedBy (a : Arguments) (key : SortKey) : Arguments := { a with sortBy := key }

theorem exists_bounds_of_ne_nil (h : records ≠ []) (key : SortKey) :
    ∃ b, Bounds.ofRecords (sortRecords key records) = .ok b := by
  have hne : sortRecords key records ≠ [] := fun hnil =>
    h (List.perm_nil.mp (hnil ▸ (sortRecords_perm key records).symm))
  exact ⟨_, Bounds.ofRecords_eq hne⟩

theorem plotted_nil (a : Arguments) (key : SortKey) :
    plotted (sortedBy a key) [] = .error (.nothingToPlot a.input .noRecords) := by
  have hnil : sortRecords key ([] : List (Record Float)) = [] := (sortRecords_perm key []).eq_nil
  show (boundsOf a (sortRecords key [])).map _ = _
  rw [hnil]
  rfl

theorem plotted_sortedBy (a : Arguments) {b : Bounds Float}
    (hb : Bounds.ofRecords (sortRecords key records) = .ok b) :
    plotted (sortedBy a key) records = .ok (figureOf a (sortRecords key records) b) := by
  show (boundsOf a (sortRecords key records)).map _ = _
  rw [boundsOf, hb]
  rfl

/-- The records of a run have a plot in every order, or in none. -/
theorem prepare_sortedBy (a : Arguments) (key key' : SortKey) (store : Store) :
    (∃ failure, prepare (sortedBy a key) store = .error failure ∧
      prepare (sortedBy a key') store = .error failure) ∨
    ∃ records b b', recordsOf a (store.read a.input) = .ok records ∧
      Bounds.ofRecords (sortRecords key records) = .ok b ∧
      Bounds.ofRecords (sortRecords key' records) = .ok b' ∧
      prepare (sortedBy a key) store = .ok (figureOf a (sortRecords key records) b) ∧
      prepare (sortedBy a key') store = .ok (figureOf a (sortRecords key' records) b') := by
  have hprep : ∀ k, prepare (sortedBy a k) store = checked a store >>= fun _ =>
      recordsOf a (store.read a.input) >>= plotted (sortedBy a k) := fun _ => rfl
  rw [hprep, hprep]
  cases checked a store with
  | error failure => exact .inl ⟨failure, rfl, rfl⟩
  | ok u =>
    cases recordsOf a (store.read a.input) with
    | error failure => exact .inl ⟨failure, rfl, rfl⟩
    | ok records =>
      by_cases hnil : records = []
      · subst hnil
        exact .inl ⟨_, plotted_nil a key, plotted_nil a key'⟩
      · obtain ⟨b, hb⟩ := exists_bounds_of_ne_nil hnil key
        obtain ⟨b', hb'⟩ := exists_bounds_of_ne_nil hnil key'
        exact .inr ⟨records, b, b', rfl, hb, hb', plotted_sortedBy a hb, plotted_sortedBy a hb'⟩

/-- Two plots of some records that differ in the order of the records at most. -/
structure Reorders (a : Arguments) (records : List (Record Float)) (figure figure' : Figure) :
    Prop where
  perm : figure.records.Perm records
  perm' : figure'.records.Perm records
  /-- The ends of the latency axis are equal as numbers. -/
  bounds : (figure.bounds.min == figure'.bounds.min) = true ∧
    (figure.bounds.max == figure'.bounds.max) = true
  /-- The pages are the same above the drawing; below it the rows of one table, which tell of the
      records, are those of the other one in another order. -/
  page : ∃ above below below', Page.Encloses (pageText a figure) figure.drawing above below ∧
    Page.Encloses (pageText a figure') figure'.drawing above below' ∧
    List.Forall₂ Page.RowReads figure.records (rows below.chunks).tail ∧
    (rows below.chunks).tail.Perm (rows below'.chunks).tail
  /-- Both drawings stand in one frame, so on one latency axis with the same ticks. -/
  drawing : let f := Frame.ofStyle (styleOf a) records.length figure.bounds
    ∃ layout layout', read figure.drawing.toList = some layout ∧
      read figure'.drawing.toList = some layout' ∧
      Drawing.Stands f (styleOf a) figure.records layout ∧
      Drawing.Stands f (styleOf a) figure'.records layout'

/-- Nothing above the drawing of a page tells of the order of the records. -/
theorem above_eq {sorted sorted' : List (Record Float)} {b b' : Bounds Float} (a : Arguments)
    (hlength : sorted.length = sorted'.length) (hbounds : b.Agrees b') :
    (pageFor a sorted b).above = (pageFor a sorted' b').above := by
  have hmin : tickText b.min = tickText b'.min := hbounds.min.tickText_eq
  have hmax : tickText b.max = tickText b'.max := hbounds.max.tickText_eq
  have htokens : (pageFor a sorted b).aboveTokens = (pageFor a sorted' b').aboveTokens := by
    simp only [Page.aboveTokens, Page.head, Page.summary, pageFor, hlength, hmin, hmax]
  rw [Page.above, Page.above, htokens]

theorem reorders_figureOf (a : Arguments) {b b' : Bounds Float}
    (hb : Bounds.ofRecords (sortRecords key records) = .ok b)
    (hb' : Bounds.ofRecords (sortRecords key' records) = .ok b') :
    Reorders a records (figureOf a (sortRecords key records) b)
      (figureOf a (sortRecords key' records) b') := by
  have hperm := sortRecords_perm key records
  have hperm' := sortRecords_perm key' records
  generalize sortRecords key records = sorted at *
  generalize sortRecords key' records = sorted' at *
  have hagrees : b.Agrees b' := Bounds.agrees_of_perm (hperm.trans hperm'.symm) hb hb'
  have hlength : sorted.length = sorted'.length := (hperm.trans hperm'.symm).length_eq
  refine ⟨hperm, hperm', hagrees.beq hb, ?_, ?_⟩
  · -- each row of the table reads as the record that it is made of
    refine ⟨_, _, (pageFor a sorted' b').below, (pageFor a sorted b).reads.parts, ?_, ?_, ?_⟩
    · rw [above_eq a hlength hagrees]
      exact (pageFor a sorted' b').reads.parts
    · rw [Page.rows_below, List.tail_cons, List.forall₂_map_right_iff]
      exact List.forall₂_same.mpr fun r _ => Page.rowReads_rowOf r
    · rw [Page.rows_below, Page.rows_below, List.tail_cons, List.tail_cons]
      exact (hperm.trans hperm'.symm).map _
  · -- the second drawing stands in its own frame, and so in that of the first
    have hframes := Frame.agrees_ofStyle hagrees (styleOf a) records.length
    have hstands := Drawing.stands_outline sorted b (styleOf a)
    have hstands' := Drawing.stands_outline sorted' b' (styleOf a)
    rw [hperm.length_eq] at hstands
    rw [hperm'.length_eq] at hstands'
    refine ⟨_, _, Drawing.read_renderPlot sorted b (styleOf a),
      Drawing.read_renderPlot sorted' b' (styleOf a), hstands, ?_⟩
    exact hstands'.of_agrees hframes (Frame.hasBase_ofStyle _ _ _)

/-! ## Two runs -/

/-- **A sort key decides on the order of the boxes alone.** Two runs that differ in it have the same
    result, give the same warnings in the order of the input, and print and start the same. Either
    they fail before anything is written, or they stop at the same point of their outputs, and these
    are the page and the drawing of two plots that only differ in the order of the records. -/
theorem run_reorders (stats : Bool) (a : Arguments) (hpdf : a.pdf = none) (key key' : SortKey)
    (system : System) :
    let one := machineAfter stats (sortedBy a key) system
    let other := machineAfter stats (sortedBy a key') system
    let result := outcome stats (sortedBy a key) system
    outcome stats (sortedBy a key') system = result ∧
      (stderr one).filter (fun message => !isStatisticText message) = warningsOf a system.store ∧
      (stderr other).filter (fun message => !isStatisticText message) =
        warningsOf a system.store ∧
      stdout one = stdout other ∧ one.launched = other.launched ∧
      ((∃ failure, result = .error failure ∧ one.store = system.store ∧
          other.store = system.store) ∨
        ∃ records figure figure' stop,
          recordsOf a (system.store.read a.input) = .ok records ∧
          prepare (sortedBy a key) system.store = .ok figure ∧
          prepare (sortedBy a key') system.store = .ok figure' ∧
          Reorders a records figure figure' ∧
          system.store.writeAll (Disk.cutAt stop (firstOutputs a figure)) = .ok one.store ∧
          system.store.writeAll (Disk.cutAt stop (firstOutputs a figure')) = .ok other.store ∧
          (result = .ok () → stop = none)) := by
  obtain ⟨result, written, after, body, hends, hwritten, hlaunched, hprinted, hreports, hrun⟩ :=
    exists_reports (sortedBy a key) system
  obtain ⟨result', written', after', body', hends', hwritten', hlaunched', hprinted', hreports',
    hrun'⟩ := exists_reports (sortedBy a key') system
  obtain ⟨houtcome, told, times, htold, hmachine⟩ := hrun stats
  obtain ⟨houtcome', told', times', htold', hmachine'⟩ := hrun' stats
  rw [houtcome, houtcome', hmachine, hmachine']
  -- once the results are the same, so is what comes of them
  suffices h : result' = result ∧
      ((∃ failure, result = .error failure ∧ written = [] ∧ written' = []) ∨
        ∃ records figure figure' stop,
          recordsOf a (system.store.read a.input) = .ok records ∧
          prepare (sortedBy a key) system.store = .ok figure ∧
          prepare (sortedBy a key') system.store = .ok figure' ∧
          Reorders a records figure figure' ∧
          written = Disk.cutAt stop (firstOutputs a figure) ∧
          written' = Disk.cutAt stop (firstOutputs a figure') ∧
          (result = .ok () → stop = none)) by
    obtain ⟨rfl, hdone⟩ := h
    refine ⟨rfl, hreports.filter_stderr htold _ _, hreports'.filter_stderr htold' _ _,
      hprinted.trans hprinted'.symm, hlaunched.trans hlaunched'.symm, ?_⟩
    rcases hdone with ⟨failure, hfailure, rfl, rfl⟩ |
      ⟨records, figure, figure', stop, hrecords, hprep, hprep', hreorders, rfl, rfl, hall⟩
    · exact .inl ⟨failure, hfailure, (Except.ok.inj hwritten).symm, (Except.ok.inj hwritten').symm⟩
    · exact .inr ⟨records, figure, figure', stop, hrecords, hprep, hprep', hreorders, hwritten,
        hwritten', hall⟩
  rcases prepare_sortedBy a key key' system.store with ⟨failure, hprep, hprep'⟩ |
    ⟨records, b, b', hrecords, hb, hb', hprep, hprep'⟩
  · obtain ⟨rfl, rfl⟩ := hends.eq_of_unprepared hprep
    obtain ⟨rfl, rfl⟩ := hends'.eq_of_unprepared hprep'
    exact ⟨rfl, .inl ⟨failure, rfl, rfl, rfl⟩⟩
  · obtain ⟨hresult, hdone⟩ := hends.eq_of_failure? hpdf hprep
    obtain ⟨hresult', hdone'⟩ := hends'.eq_of_failure? hpdf hprep'
    -- the same goes wrong with the same paths, whatever is written to them
    have hpaths := (paths_firstOutputs a (figureOf a (sortRecords key records) b)).trans
      (paths_firstOutputs a (figureOf a (sortRecords key' records) b')).symm
    have hstop := (Disk.sameShape_refl system.toDisk).failure?_eq hpaths
    refine ⟨?_, .inr ⟨records, _, _, _, hrecords, hprep, hprep', reorders_figureOf a hb hb', hdone,
      ?_, ?_⟩⟩
    · rw [hresult, hresult']
      exact congrArg (resultOf a system.hasViewer) hstop.symm
    · rw [hdone']
      exact congrArg (fun stop => Disk.cutAt stop _) hstop.symm
    · intro hok
      rw [hresult] at hok
      exact eq_none_of_resultOf hok

/-- A run that sorts by label ends like one that does not sort. -/
theorem run_reorders_csv :
    let a := drawingArguments "runs.csv"
    let store := Store.empty.put ["runs.csv"]
      (.file "'b',1,2,3,4,5\n'a',0,0,0,0,0\n".toUTF8.toList)
    let system := System.ofStore store false
    a.pdf = none ∧ outcome false (sortedBy a .input) system = .ok () ∧
      outcome false (sortedBy a .label) system = .ok () := by
  intro a store system
  have hresult : outcome false (sortedBy a .input) system = .ok () := by decide +kernel
  refine ⟨rfl, hresult, ?_⟩
  rw [(run_reorders false a rfl .input .label system).1, hresult]

end LatencyPlot.Session
