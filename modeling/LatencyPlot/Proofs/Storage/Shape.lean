/-
  LatencyPlot.Proofs.Storage.Shape

  Where a path leads to, and why it leads nowhere, depends on which files and
  directories there are, but on no file's content. So two disks of one shape
  take and refuse the same files, whatever is written to them, and the first
  file that is not written as a whole is the same on both.
-/
import LatencyPlot.Proofs.Storage.Disk

namespace LatencyPlot.Storage

/-- Whether an entry is a directory. -/
def Entry.isDirectory : Entry → Bool
  | .directory => true
  | .file _ => false

namespace Store

variable {s s' : Store}

/-! ## Shapes -/

/-- Two stores have the same files and directories, whatever is in the files, and one of the
    directories for the working directory. -/
structure SameShape (s s' : Store) : Prop where
  home : s.home = s'.home
  shape : ∀ location, (s.entryAt? location).map Entry.isDirectory =
    (s'.entryAt? location).map Entry.isDirectory

theorem sameShape_refl (s : Store) : SameShape s s := ⟨rfl, fun _ => rfl⟩

/-- In stores of one shape there is nothing at a location, a directory, or a file in each. -/
theorem SameShape.cases (h : SameShape s s') (location : Location) :
    s.entryAt? location = none ∧ s'.entryAt? location = none ∨
      s.entryAt? location = some .directory ∧ s'.entryAt? location = some .directory ∨
      ∃ content content', s.entryAt? location = some (.file content) ∧
        s'.entryAt? location = some (.file content') := by
  have hsame := h.shape location
  rcases hl : s.entryAt? location with _ | _ | content <;>
    rcases hl' : s'.entryAt? location with _ | _ | content' <;>
    simp [hl, hl', Entry.isDirectory] at hsame ⊢

theorem SameShape.follow_eq (h : SameShape s s') (names : List String) (here : Location) :
    s.follow here names = s'.follow here names := by
  -- each name leads on from another location, so the induction is for all of them
  induction names generalizing here with
  | nil => rfl
  | cons name rest ih =>
    rcases h.cases here with ⟨hl, hl'⟩ | ⟨hl, hl'⟩ | ⟨content, content', hl, hl'⟩
    · simp only [follow, hl, hl']
    · simp only [follow, hl, hl', ih]
    · simp only [follow, hl, hl']

theorem SameShape.locateNames_eq (h : SameShape s s') (names : List String) :
    s.locateNames names = s'.locateNames names := by
  unfold locateNames
  split
  · rfl
  · exact h.follow_eq _ _
  · rw [h.home]
    exact h.follow_eq _ _

theorem SameShape.vacancy_eq (h : SameShape s s') (location : Location) :
    s.vacancy location = s'.vacancy location := by
  rcases h.cases location with ⟨hl, hl'⟩ | ⟨hl, hl'⟩ | ⟨content, content', hl, hl'⟩ <;>
    simp only [vacancy, hl, hl']

/-- A path has one target in stores of one shape, or it is refused for one reason. -/
theorem SameShape.target_eq (h : SameShape s s') (path : String) :
    s.target path = s'.target path := by
  simp only [target, h.locateNames_eq, h.vacancy_eq]

theorem SameShape.withFile (h : SameShape s s') {location : Location}
    (hlocation : ¬ location <+: s.home) (content content' : List UInt8) :
    SameShape (s.withFile location content) (s'.withFile location content') where
  home := h.home
  shape other := by
    by_cases heq : other = location
    · rw [heq, entryAt?_withFile_self hlocation, entryAt?_withFile_self (h.home ▸ hlocation)]
      rfl
    · rw [entryAt?_withFile_of_ne heq, entryAt?_withFile_of_ne heq]
      exact h.shape other

/-- Stores of one shape refuse a file for one reason, or they have one shape after it. -/
theorem SameShape.write (h : SameShape s s') (path : String) (content content' : List UInt8) :
    (∃ e, s.write path content = .error e ∧ s'.write path content' = .error e) ∨
      ∃ next next', s.write path content = .ok next ∧ s'.write path content' = .ok next' ∧
        SameShape next next' := by
  have hsame := h.target_eq path
  cases htarget : s.target path with
  | error e =>
    refine .inl ⟨e, ?_, ?_⟩
    · rw [Store.write, create, htarget]
      rfl
    · rw [Store.write, create, ← hsame, htarget]
      rfl
  | ok location =>
    exact .inr ⟨_, _, write_eq_ok_iff.mpr ⟨location, htarget, rfl⟩,
      write_eq_ok_iff.mpr ⟨location, hsame ▸ htarget, rfl⟩,
      h.withFile (not_prefix_of_target htarget) content content'⟩

end Store

namespace Disk

variable {d d' : Disk} {outputs outputs' : List Output}

/-- Two disks have stores of one shape, and the same will go wrong with them. -/
structure SameShape (d d' : Disk) : Prop where
  store : d.store.SameShape d'.store
  faults : d.faults = d'.faults

theorem sameShape_refl (d : Disk) : SameShape d d := ⟨Store.sameShape_refl d.store, rfl⟩

/-- On disks of one shape the same goes wrong with a file, or they have one shape after it. -/
theorem SameShape.save (h : SameShape d d') {o o' : Output} (hpath : o.path = o'.path) :
    (∃ e, d.save o = .error e ∧ d'.save o' = .error e) ∨
      ∃ next next', d.save o = .ok next ∧ d'.save o' = .ok next' ∧ SameShape next next' := by
  have hwrite := h.store.write o.path o.content o'.content
  unfold Disk.save
  rw [← hpath, ← h.faults]
  rcases d.faults 0 with _ | first
  · rcases hwrite with ⟨e, hwrite, hwrite'⟩ | ⟨store, store', hwrite, hwrite', hshape⟩
    · rw [hwrite, hwrite']
      exact .inl ⟨_, rfl, rfl⟩
    · rw [hwrite, hwrite']
      rcases d.faults 1 with _ | second
      · exact .inr ⟨_, _, rfl, rfl, ⟨hshape, by simp only [next, h.faults]⟩⟩
      · exact .inl ⟨_, rfl, rfl⟩
  · exact .inl ⟨_, rfl, rfl⟩

/-! ## The first failure -/

/-- The number of the first of some files that is not written as a whole, when they are written one
    after the other, and why it is not. -/
def failure? (d : Disk) : List Output → Option (Nat × WriteError)
  | [] => none
  | o :: rest =>
    match d.save o with
    | .error e => some (0, e)
    | .ok next => (next.failure? rest).map fun r => (r.1 + 1, r.2)

/-- What is written of some files if one of them fails: those before it, and what is begun of it. -/
def cutAt : Option (Nat × WriteError) → List Output → List Output
  | none, outputs => outputs
  | some (n, e), outputs => outputs.take n ++ outputs[n]?.toList.flatMap (begun · e)

theorem cutAt_append (before : List Output) (o : Output) (e : WriteError) (later : List Output) :
    cutAt (some (before.length, e)) (before ++ o :: later) = before ++ begun o e := by
  simp [cutAt]

/-- On disks of one shape the same goes wrong with files that go to the same paths. -/
theorem SameShape.failure?_eq (h : SameShape d d')
    (hpaths : outputs.map Output.path = outputs'.map Output.path) :
    d.failure? outputs = d'.failure? outputs' := by
  -- both disks move on with each file, and are of one shape again
  induction outputs generalizing d d' outputs' with
  | nil =>
    rw [List.map_nil, eq_comm, List.map_eq_nil_iff] at hpaths
    rw [hpaths]
    rfl
  | cons o rest ih =>
    cases outputs' with
    | nil => cases hpaths
    | cons o' rest' =>
      rw [List.map_cons, List.map_cons, List.cons.injEq] at hpaths
      rcases h.save hpaths.1 with ⟨e, hsave, hsave'⟩ | ⟨next, next', hsave, hsave', hshape⟩
      · rw [failure?, failure?, hsave, hsave']
      · rw [failure?, failure?, hsave, hsave']
        exact congrArg (Option.map fun r => (r.1 + 1, r.2)) (ih hshape hpaths.2)

theorem failure?_append {before : List Output} (h : d.saveAll before = .ok d')
    (rest : List Output) :
    d.failure? (before ++ rest) = (d'.failure? rest).map fun r => (before.length + r.1, r.2) := by
  induction before generalizing d with
  | nil =>
    cases h
    show d'.failure? rest = _
    cases d'.failure? rest <;> simp
  | cons o before ih =>
    obtain ⟨d₁, hsave, hbefore⟩ := saveAll_cons_eq_ok_iff.mp h
    simp only [List.cons_append, failure?, hsave, ih hbefore, Option.map_map, List.length_cons]
    congr 1
    funext r
    simp [Nat.add_right_comm]

theorem failure?_of_saveAll (h : d.saveAll outputs = .ok d') : d.failure? outputs = none := by
  have hnone := failure?_append h []
  rwa [List.append_nil] at hnone

/-- The file that fails after some others is the first that does. -/
theorem Fails.failure?_append {before : List Output} {o : Output} {e : WriteError}
    (h : d.Fails before o e) (later : List Output) :
    d.failure? (before ++ o :: later) = some (before.length, e) := by
  obtain ⟨d₁, hbefore, hsave⟩ := h
  rw [Disk.failure?_append hbefore, failure?, hsave]
  rfl

end Disk

end LatencyPlot.Storage
