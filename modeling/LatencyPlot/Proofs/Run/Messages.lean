/-
  LatencyPlot.Proofs.Run.Messages

  The messages of a log by how they begin. All statistics begin alike, and no
  warning does so (`isStatisticText`); among them those that tell of the end of
  a stage name it (`stageName?`), and that of the whole run has a beginning of
  its own (`isTotalText`). So the printed log says what the notices do.
-/
import LatencyPlot.Proofs.Run.Log
import Mathlib.Data.List.Basic

namespace LatencyPlot

/-- Whether a message begins with a mark. -/
def startsWith (mark message : String) : Bool := mark.toList.isPrefixOf message.toList

theorem startsWith_append {mark beginning : String} (h : startsWith mark beginning = true)
    (rest : String) : startsWith mark (beginning ++ rest) = true := by
  rw [startsWith, List.isPrefixOf_iff_prefix] at h ⊢
  rw [String.toList_append]
  exact h.trans (List.prefix_append _ _)

/-- What differs from a mark before either ends does not begin with the mark. -/
theorem startsWith_append_eq_false {mark beginning : String}
    (h : startsWith mark beginning = false) (h' : startsWith beginning mark = false)
    (rest : String) : startsWith mark (beginning ++ rest) = false := by
  rw [Bool.eq_false_iff] at h h' ⊢
  simp only [startsWith, ne_eq, List.isPrefixOf_iff_prefix] at h h' ⊢
  intro hmark
  rw [String.toList_append] at hmark
  -- of two beginnings of one text one begins with the other
  exact (List.prefix_or_prefix_of_prefix hmark (List.prefix_append _ _)).elim h h'

/-- What begins with a mark begins with whatever the mark begins with. -/
theorem startsWith_of_startsWith {first mark message : String}
    (h : startsWith mark message = true) (hmark : startsWith first mark = true) :
    startsWith first message = true := by
  rw [startsWith, List.isPrefixOf_iff_prefix] at h hmark ⊢
  exact hmark.trans h

/-! ## Kinds of messages -/

/-- Whether a message begins like a line of the statistics. -/
def isStatisticText (message : String) : Bool := startsWith "LATPLOT_STATS " message

/-- How a message begins that tells of the end of a stage. -/
def stageMark : String := "LATPLOT_STATS stage="

/-- The name in a message that tells of the end of a stage: what stands there before the next
    blank. -/
def stageName? (message : String) : Option String :=
  if startsWith stageMark message then
    some (String.ofList ((message.toList.drop stageMark.toList.length).takeWhile (· ≠ ' ')))
  else none

/-- Whether a message tells of the end of a run. -/
def isTotalText (message : String) : Bool := startsWith "LATPLOT_STATS total=" message

theorem isStatisticText_of_isTotalText {message : String} (h : isTotalText message = true) :
    isStatisticText message = true :=
  startsWith_of_startsWith h (by decide +kernel)

theorem isStatisticText_of_stageName? {message name : String} (h : stageName? message = some name) :
    isStatisticText message = true := by
  cases hstage : startsWith stageMark message with
  | true => exact startsWith_of_startsWith hstage (by decide +kernel)
  | false =>
    rw [stageName?, hstage] at h
    cases h

/-! ## Statistics -/

/-- How a line of the statistics begins. -/
def Statistic.mark : Statistic → String
  | .stage _ _ => stageMark
  | .input _ _ => "LATPLOT_STATS input="
  | .output _ _ _ => "LATPLOT_STATS output "
  | .total _ => "LATPLOT_STATS total="

/-- What follows in it. -/
def Statistic.rest : Statistic → String
  | .stage which time => which.name ++ (" time=" ++ time.text)
  | .input path records => path ++ (" records=" ++ toString records)
  | .output which path bytes => which.name ++ ("=" ++ (path ++ (" bytes=" ++ toString bytes)))
  | .total time => time.text

theorem Statistic.text_eq (line : Statistic) : line.text = line.mark ++ line.rest := by
  cases line with
  | stage which time =>
    show "LATPLOT_STATS stage=" ++ which.name ++ " time=" ++ time.text = _
    rw [String.append_assoc, String.append_assoc, mark, rest, stageMark]
  | input path records =>
    show "LATPLOT_STATS input=" ++ path ++ " records=" ++ toString records = _
    rw [String.append_assoc, String.append_assoc, mark, rest]
  | output which path bytes =>
    show "LATPLOT_STATS output " ++ which.name ++ "=" ++ path ++ " bytes=" ++ toString bytes = _
    rw [String.append_assoc, String.append_assoc, String.append_assoc, String.append_assoc, mark,
      rest]
  | total time => rfl

theorem isStatisticText_text (line : Statistic) : isStatisticText line.text = true := by
  rw [line.text_eq]
  refine startsWith_append ?_ _
  cases line <;> simp only [Statistic.mark] <;> decide +kernel

theorem isTotalText_text (line : Statistic) :
    isTotalText line.text = true ↔ ∃ time, line = .total time := by
  rw [line.text_eq, isTotalText]
  cases line with
  | total time =>
    simp only [Statistic.mark]
    exact iff_of_true (startsWith_append (by decide +kernel) _) ⟨time, rfl⟩
  | _ =>
    simp only [Statistic.mark]
    rw [startsWith_append_eq_false (by decide +kernel) (by decide +kernel)]
    simp

/-- The name of a stage holds no blank. -/
theorem Stage.not_mem_name (stage : Stage) : ' ' ∉ stage.name.toList := by
  cases stage <;> decide +kernel

theorem stageName?_stage (which : Stage) (time : Duration) :
    stageName? (Statistic.stage which time).text = some which.name := by
  have hmark : startsWith stageMark (Statistic.stage which time).text = true := by
    rw [Statistic.text_eq, Statistic.mark]
    exact startsWith_append (by decide +kernel) _
  rw [stageName?, if_pos hmark, Statistic.text_eq, Statistic.mark, String.toList_append,
    List.drop_left, Statistic.rest, String.toList_append, String.toList_append]
  -- a blank follows the name, which holds none
  have hblank : " time=".toList = ' ' :: "time=".toList := by decide +kernel
  have hname : ∀ c ∈ which.name.toList, decide (c ≠ ' ') = true := by
    intro c hc
    rw [decide_eq_true_eq]
    rintro rfl
    exact which.not_mem_name hc
  rw [List.takeWhile_append_of_pos hname, hblank, List.cons_append, List.takeWhile_cons_of_neg,
    List.append_nil, String.ofList_toList]
  simp

theorem stageName?_text (line : Statistic) :
    stageName? line.text = (Notice.statistic line).stage?.map Stage.name := by
  cases line with
  | stage which time => exact stageName?_stage which time
  | _ =>
    rw [stageName?, if_neg]
    · rfl
    · rw [Statistic.text_eq, Statistic.mark,
        startsWith_append_eq_false (by decide +kernel) (by decide +kernel)]
      simp

/-! ## Warnings -/

/-- A warning begins otherwise. -/
theorem isStatisticText_of_mem_warnings {message : String} {records : List (Record Float)}
    (h : message ∈ warnings records) : isStatisticText message = false := by
  obtain ⟨r, -, rfl⟩ := List.mem_map.mp h
  show startsWith _ ("warning: line " ++ toString r.line ++ ": " ++ Text.quoted r.label ++
    " has out-of-order percentiles [" ++ String.intercalate ", " (r.bounds.map Number.literal) ++
    "]; plotting as given") = false
  simp only [String.append_assoc]
  exact startsWith_append_eq_false (by decide +kernel) (by decide +kernel) _

/-! ## Logs -/

variable {notices : List Notice} {texts : List String}

/-- Whether a notice is no warning that could be taken for a line of the statistics. -/
def Notice.IsPlain (n : Notice) : Prop := ∀ text, n = .warning text → isStatisticText text = false

/-- A log is plain if its warnings are. -/
theorem isPlain_of_heard (hheard : heard false notices = texts.map .warning)
    (htexts : ∀ text ∈ texts, isStatisticText text = false) : ∀ n ∈ notices, n.IsPlain := by
  rintro n hn text rfl
  have hmem : Notice.warning text ∈ heard false notices := List.mem_filter.mpr ⟨hn, rfl⟩
  rw [hheard, List.mem_map] at hmem
  obtain ⟨text', htext', heq⟩ := hmem
  cases heq
  exact htexts text htext'

theorem Notice.IsPlain.isStatisticText_eq {n : Notice} (h : n.IsPlain) :
    isStatisticText n.text = n.isStatistic := by
  cases n with
  | warning text => exact h text rfl
  | statistic line => exact isStatisticText_text line

theorem Notice.IsPlain.stageName?_eq {n : Notice} (h : n.IsPlain) :
    stageName? n.text = n.stage?.map Stage.name := by
  cases n with
  | warning text =>
    cases hname : stageName? text with
    | none => exact hname
    | some name =>
      have hplain := h text rfl
      rw [isStatisticText_of_stageName? hname] at hplain
      cases hplain
  | statistic line => exact stageName?_text line

theorem Notice.IsPlain.isTotalText_iff {n : Notice} (h : n.IsPlain) :
    isTotalText n.text = true ↔ n.IsTotal := by
  cases n with
  | warning text =>
    refine iff_of_false (fun htotal => ?_) (by simp [Notice.IsTotal])
    have hstatistic : isStatisticText text = true := isStatisticText_of_isTotalText htotal
    rw [h text rfl] at hstatistic
    cases hstatistic
  | statistic line =>
    rw [Notice.text, isTotalText_text]
    simp [Notice.IsTotal]

/-- Without the statistics the messages of a plain log are its warnings. -/
theorem filter_map_text (hheard : heard false notices = texts.map .warning)
    (hplain : ∀ n ∈ notices, n.IsPlain) :
    (notices.map Notice.text).filter (fun message => !isStatisticText message) = texts := by
  have hagree : ∀ n ∈ notices, (!isStatisticText n.text) = !n.isStatistic :=
    fun n hn => congrArg (! ·) (hplain n hn).isStatisticText_eq
  have hfilter : notices.filter ((fun message => !isStatisticText message) ∘ Notice.text) =
      heard false notices := List.filter_congr hagree
  rw [List.filter_map, hfilter, hheard, List.map_map]
  exact List.map_id'' (fun _ => rfl) texts

/-- The messages of a plain log name the stages that it tells of. -/
theorem filterMap_stageName? (hplain : ∀ n ∈ notices, n.IsPlain) :
    (notices.map Notice.text).filterMap stageName? = (stagesOf notices).map Stage.name := by
  rw [List.filterMap_map, stagesOf, List.map_filterMap]
  exact List.filterMap_congr fun n hn => (hplain n hn).stageName?_eq

end LatencyPlot
