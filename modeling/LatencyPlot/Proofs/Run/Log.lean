/-
  LatencyPlot.Proofs.Run.Log

  The log of a run as a list of notices, the earliest first. Without statistics
  a run writes the notices that are no statistics (`heard`), in their order. The
  times in the statistics are the clock's affair: without them (`untimed`) the
  log says what was done.
-/
import LatencyPlot.Run.Notice

namespace LatencyPlot

/-- Whether a notice is a line of the statistics. -/
def Notice.isStatistic : Notice → Bool
  | .warning _ => false
  | .statistic _ => true

/-- The stage whose end a notice tells of. -/
def Notice.stage? : Notice → Option Stage
  | .statistic (.stage which _) => some which
  | _ => none

/-- Whether a notice tells of the end of a run. -/
def Notice.IsTotal (n : Notice) : Prop := ∃ time, n = .statistic (.total time)

/-- What a notice would be if the clock stood still. -/
def Notice.untimed : Notice → Notice
  | .statistic (.stage which _) => .statistic (.stage which (Duration.ofNanos 0))
  | .statistic (.total _) => .statistic (.total (Duration.ofNanos 0))
  | n => n

/-- What is written of some notices, with or without statistics. -/
def heard (stats : Bool) (notices : List Notice) : List Notice :=
  notices.filter fun n => stats || !n.isStatistic

/-- The stages that some notices tell of, in their order. -/
def stagesOf (notices : List Notice) : List Stage := notices.filterMap Notice.stage?

variable {stats : Bool}

@[simp] theorem heard_append (earlier later : List Notice) :
    heard stats (earlier ++ later) = heard stats earlier ++ heard stats later :=
  List.filter_append ..

@[simp] theorem heard_true (notices : List Notice) : heard true notices = notices :=
  List.filter_eq_self.mpr fun _ _ => rfl

@[simp] theorem stagesOf_append (earlier later : List Notice) :
    stagesOf (earlier ++ later) = stagesOf earlier ++ stagesOf later :=
  List.filterMap_append ..

/-- Warnings are written in any case. -/
@[simp] theorem heard_warnings (texts : List String) :
    heard stats (texts.map .warning) = texts.map .warning := by
  refine List.filter_eq_self.mpr fun n hn => ?_
  obtain ⟨text, -, rfl⟩ := List.mem_map.mp hn
  exact Bool.or_true stats

@[simp] theorem stagesOf_warnings (texts : List String) : stagesOf (texts.map .warning) = [] := by
  refine List.filterMap_eq_nil_iff.mpr fun n hn => ?_
  obtain ⟨text, -, rfl⟩ := List.mem_map.mp hn
  rfl

/-! ## Without the times -/

@[simp] theorem Notice.isStatistic_untimed (n : Notice) : n.untimed.isStatistic = n.isStatistic := by
  rcases n with text | ⟨_ | _ | _ | _⟩ <;> rfl

@[simp] theorem Notice.stage?_untimed (n : Notice) : n.untimed.stage? = n.stage? := by
  rcases n with text | ⟨_ | _ | _ | _⟩ <;> rfl

/-- Only statistics hold times. -/
theorem Notice.untimed_of_not_isStatistic {n : Notice} (h : n.isStatistic = false) :
    n.untimed = n := by
  cases n with
  | warning text => rfl
  | statistic line => cases h

theorem Notice.IsTotal.untimed {n : Notice} (h : n.IsTotal) : n.untimed.IsTotal := by
  obtain ⟨time, rfl⟩ := h
  exact ⟨_, rfl⟩

theorem Notice.IsTotal.of_untimed {n : Notice} (h : n.untimed.IsTotal) : n.IsTotal := by
  obtain ⟨time, htime⟩ := h
  rcases n with text | ⟨which, _⟩ | ⟨path, records⟩ | ⟨which, path, bytes⟩ | time'
  · cases htime
  · cases htime
  · cases htime
  · cases htime
  · exact ⟨time', rfl⟩

/-- What is heard without statistics holds no times. -/
theorem heard_false_map_untimed (notices : List Notice) :
    heard false (notices.map Notice.untimed) = heard false notices := by
  have hsame : ∀ n ∈ heard false notices, n.untimed = n := by
    intro n hn
    have hkept := (List.mem_filter.mp hn).2
    exact Notice.untimed_of_not_isStatistic (by simpa using hkept)
  have hcommutes : heard false (notices.map Notice.untimed) =
      (heard false notices).map Notice.untimed := by
    rw [heard, heard, List.filter_map]
    congr 2
    funext n
    simp
  rw [hcommutes, List.map_congr_left hsame, List.map_id']

theorem stagesOf_map_untimed (notices : List Notice) :
    stagesOf (notices.map Notice.untimed) = stagesOf notices := by
  rw [stagesOf, stagesOf, List.filterMap_map]
  congr 1
  funext n
  exact n.stage?_untimed

end LatencyPlot
