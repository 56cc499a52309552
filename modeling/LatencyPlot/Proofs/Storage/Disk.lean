/-
  LatencyPlot.Proofs.Storage.Disk

  What becomes of files that are written to a disk one after the other. Those
  that are written as a whole are what a store without faults holds as well;
  the first that is not is either not there, or it holds the beginning of what
  it should, and none is written after it.
-/
import LatencyPlot.Proofs.Storage.Write
import LatencyPlot.Storage.Disk

namespace LatencyPlot.Storage

/-- Why a file is not written as a whole. -/
inductive WriteError where
  /-- It cannot be opened. -/
  | opening (cause : StorageError)
  /-- Writing to it breaks off after some bytes. -/
  | writing (after : Nat) (cause : StorageError)

/-- The cause of an error, in the words of the system. -/
def WriteError.cause : WriteError → StorageError
  | .opening cause => cause
  | .writing _ cause => cause

/-- What is written of a file that is not written as a whole. -/
def begun (o : Output) : WriteError → List Output
  | .opening _ => []
  | .writing after _ => [⟨o.path, o.content.take after⟩]

namespace Disk

variable {d d' : Disk} {o : Output} {outputs before later : List Output} {e : WriteError}

/-! ## One file -/

/-- The disk after a file is opened and written, which takes two steps. -/
def save (d : Disk) (o : Output) : Except WriteError Disk :=
  match d.faults 0, d.store.write o.path o.content, d.faults 1 with
  | some fault, _, _ => .error (.opening fault.cause)
  | none, .error e, _ => .error (.opening e)
  | none, .ok _, some fault => .error (.writing fault.after fault.cause)
  | none, .ok store, none => .ok { d.next.next with store }

theorem save_eq_ok_iff :
    d.save o = .ok d' ↔ d.faults 0 = none ∧ d.faults 1 = none ∧
      ∃ store, d.store.write o.path o.content = .ok store ∧ d' = { d.next.next with store } := by
  rw [save]
  cases d.faults 0 <;> cases d.store.write o.path o.content <;> cases d.faults 1 <;> simp [eq_comm]

/-- Where a file can be written only the next two steps on the disk decide on it. -/
theorem save_of_target {location : Location} (h : d.store.target o.path = .ok location) :
    d.save o =
      match d.faults 0, d.faults 1 with
      | some fault, _ => .error (.opening fault.cause)
      | none, some fault => .error (.writing fault.after fault.cause)
      | none, none => .ok { d.next.next with store := d.store.withFile location o.content } := by
  rw [save, Store.write_eq_ok_iff.mpr ⟨location, h, rfl⟩]
  cases d.faults 0 <;> cases d.faults 1 <;> rfl

/-- A file that is saved is opened first, and then written. -/
theorem exists_create_of_save (h : d.save o = .ok d') :
    ∃ location opened, d.create o.path = (.ok location, opened) ∧
      opened.write location o.content = (.ok (), d') := by
  obtain ⟨hfirst, hsecond, store, hwrite, rfl⟩ := save_eq_ok_iff.mp h
  obtain ⟨location, htarget, rfl⟩ := Store.write_eq_ok_iff.mp hwrite
  have hcreate := Store.create_eq_ok_iff.mpr ⟨htarget, rfl⟩
  refine ⟨location, { d.next with store := d.store.set location (.file []) }, ?_, ?_⟩
  · rw [create, hfirst, hcreate]
  · have hfault : d.next.faults 0 = none := hsecond
    rw [write, hfault]
    rfl

/-- A disk that does not open a file is left as it was. -/
theorem exists_create_of_save_opening {cause : StorageError}
    (h : d.save o = .error (.opening cause)) :
    ∃ d', d.create o.path = (.error cause, d') ∧ d'.store = d.store := by
  refine ⟨d.next, ?_, rfl⟩
  rw [save] at h
  rw [create]
  cases hfault : d.faults 0 with
  | some fault =>
    rw [hfault] at h
    cases h
    rfl
  | none =>
    rw [hfault, Store.write] at h
    -- only the making of the file can be refused
    cases hcreate : d.store.create o.path with
    | error e' =>
      rw [hcreate] at h
      cases h
      rfl
    | ok made =>
      rw [hcreate] at h
      cases hsecond : d.faults 1 <;> rw [hsecond] at h <;> cases h

/-- Where the writing to a file breaks off, the file holds the beginning of what it should. -/
theorem exists_write_of_save_writing {after : Nat} {cause : StorageError}
    (h : d.save o = .error (.writing after cause)) :
    ∃ location opened d', d.create o.path = (.ok location, opened) ∧
      opened.write location o.content = (.error cause, d') ∧
      d.store.write o.path (o.content.take after) = .ok d'.store := by
  rw [save] at h
  split at h
  · cases h
  · cases h
  · next store fault hfirst hwrite hsecond =>
    cases h
    obtain ⟨location, htarget, rfl⟩ := Store.write_eq_ok_iff.mp hwrite
    have hcreate := Store.create_eq_ok_iff.mpr ⟨htarget, rfl⟩
    refine ⟨location, { d.next with store := d.store.set location (.file []) },
      { d.next.next with store := d.store.withFile location (o.content.take fault.after) }, ?_, ?_,
      Store.write_eq_ok_iff.mpr ⟨location, htarget, rfl⟩⟩
    · rw [create, hfirst, hcreate]
    · have hfault : d.next.faults 0 = some fault := hsecond
      rw [write, hfault]
      rfl
  · cases h

/-! ## Several files -/

/-- The disk after files are written one after the other. -/
def saveAll (d : Disk) (outputs : List Output) : Except WriteError Disk := outputs.foldlM save d

theorem saveAll_cons_eq_ok_iff :
    d.saveAll (o :: outputs) = .ok d' ↔ ∃ d₁, d.save o = .ok d₁ ∧ d₁.saveAll outputs = .ok d' :=
  foldlM_cons_eq_ok_iff

theorem saveAll_append_eq_ok_iff :
    d.saveAll (before ++ later) = .ok d' ↔
      ∃ d₁, d.saveAll before = .ok d₁ ∧ d₁.saveAll later = .ok d' :=
  foldlM_append_eq_ok_iff

/-- One more file is written after the others. -/
theorem saveAll_concat {d₁ : Disk} (hbefore : d.saveAll before = .ok d₁)
    (hsave : d₁.save o = .ok d') : d.saveAll (before ++ [o]) = .ok d' :=
  saveAll_append_eq_ok_iff.mpr ⟨d₁, hbefore, saveAll_cons_eq_ok_iff.mpr ⟨d', hsave, rfl⟩⟩

/-- Files that are saved are written to the store. -/
theorem writeAll_of_saveAll (h : d.saveAll outputs = .ok d') :
    d.store.writeAll outputs = .ok d'.store := by
  -- each file starts from the disk that the one before it has left
  induction outputs generalizing d with
  | nil =>
    cases h
    rfl
  | cons o outputs ih =>
    obtain ⟨d₁, hsave, hrest⟩ := saveAll_cons_eq_ok_iff.mp h
    obtain ⟨-, -, store, hwrite, rfl⟩ := save_eq_ok_iff.mp hsave
    exact Store.writeAll_cons_eq_ok_iff.mpr ⟨store, hwrite, ih hrest⟩

/-- After some files the next one is not written as a whole. -/
def Fails (d : Disk) (before : List Output) (o : Output) (e : WriteError) : Prop :=
  ∃ d₁, d.saveAll before = .ok d₁ ∧ d₁.save o = .error e

/-- A file that is not written as a whole is in no list of files that are. -/
theorem Fails.not_saveAll (h : d.Fails before o e) (later : List Output) :
    d.saveAll (before ++ o :: later) ≠ .ok d' := by
  intro hall
  obtain ⟨d₁, hbefore, hsave⟩ := h
  obtain ⟨d₂, hbefore', hlater⟩ := saveAll_append_eq_ok_iff.mp hall
  obtain ⟨d₃, hsave', -⟩ := saveAll_cons_eq_ok_iff.mp hlater
  rw [hbefore] at hbefore'
  cases hbefore'
  rw [hsave] at hsave'
  cases hsave'

end Disk

end LatencyPlot.Storage
