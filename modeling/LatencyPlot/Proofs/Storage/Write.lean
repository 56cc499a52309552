/-
  LatencyPlot.Proofs.Storage.Write

  What writing a file does to a store: it puts the file at the location that
  the path leads to, which was no directory, and nothing else changes. So the
  directories stay the same and, with them, the locations that paths lead to.
-/
import LatencyPlot.Storage.Store

namespace LatencyPlot

/-! ## Results -/

/-- What goes on with a result succeeds iff there is a result and it goes on well. -/
theorem bind_eq_ok_iff {ε α β : Type} {x : Except ε α} {f : α → Except ε β} {b : β} :
    x >>= f = .ok b ↔ ∃ a, x = .ok a ∧ f a = .ok b := by
  cases x <;> simp [bind, Except.bind]

theorem mapError_eq_ok_iff {ε ε' α : Type} {x : Except ε α} {f : ε → ε'} {a : α} :
    x.mapError f = .ok a ↔ x = .ok a := by
  cases x with
  | error e => exact iff_of_false nofun nofun
  | ok v =>
    constructor
    · exact fun h => congrArg Except.ok (Except.ok.inj h)
    · exact fun h => congrArg Except.ok (Except.ok.inj h)

/-! A loop that may fail succeeds iff it comes through its first part, and through the rest from
    there. -/

theorem foldlM_cons_eq_ok_iff {ε α β : Type} {f : β → α → Except ε β} {init b : β} {a : α}
    {rest : List α} :
    (a :: rest).foldlM f init = .ok b ↔ ∃ next, f init a = .ok next ∧ rest.foldlM f next = .ok b := by
  rw [List.foldlM_cons, bind_eq_ok_iff]

theorem foldlM_append_eq_ok_iff {ε α β : Type} {f : β → α → Except ε β} {init b : β}
    {before later : List α} :
    (before ++ later).foldlM f init = .ok b ↔
      ∃ between, before.foldlM f init = .ok between ∧ later.foldlM f between = .ok b := by
  rw [List.foldlM_append, bind_eq_ok_iff]

namespace Storage

/-- A file to write as a whole. -/
structure Output where
  path : String
  content : List UInt8

namespace Store

variable {s s' : Store} {path : String} {location : Location} {content : List UInt8}

/-! ## The target of a path -/

theorem vacancy_eq_ok_iff {place : Location} :
    s.vacancy place = .ok location ↔
      place = location ∧ s.entryAt? location ≠ some .directory := by
  rw [vacancy]
  split
  · next hdir =>
    refine iff_of_false nofun ?_
    rintro ⟨rfl, hfree⟩
    exact hfree hdir
  · next hfree =>
    rw [Except.ok.injEq]
    exact ⟨fun h => ⟨h, h ▸ hfree⟩, And.left⟩

/-- A path can be written if a system call takes it, its last name is not empty and its names lead
    to a location without a directory. -/
theorem target_eq_ok_iff :
    s.target path = .ok location ↔
      vet path = .ok () ∧ path.endsWith "/" = false ∧
        s.locateNames (names path) = .ok location ∧ s.entryAt? location ≠ some .directory := by
  unfold target
  cases hvet : vet path with
  | error e => simp [bind, Except.bind]
  | ok u =>
      cases hslash : path.endsWith "/" with
      | true =>
          cases s.locateNames (parents path ++ ["."]) <;> simp [bind, Except.bind]
      | false =>
          cases hlocated : s.locateNames (names path) with
          | error e => simp [bind, Except.bind]
          | ok place => simp [bind, Except.bind, vacancy_eq_ok_iff]

/-- A path that can be written holds no NUL. -/
theorem not_mem_of_target (h : s.target path = .ok location) : '\x00' ∉ path.toList := by
  obtain ⟨hvet, -, -, -⟩ := target_eq_ok_iff.mp h
  intro hnul
  -- the path would have been turned away before anything was looked up
  rw [vet, if_pos (by simpa using hnul)] at hvet
  cases hvet

theorem not_prefix_of_target (h : s.target path = .ok location) : ¬ location <+: s.home := by
  obtain ⟨-, -, -, hfree⟩ := target_eq_ok_iff.mp h
  exact fun hhome => hfree (entryAt?_of_prefix_home hhome)

/-! ## One file -/

/-- The store with a file at a location that was made, or emptied, and then filled. -/
def withFile (s : Store) (location : Location) (content : List UInt8) : Store :=
  (s.set location (.file [])).fill location content

theorem entryAt?_withFile_self (h : ¬ location <+: s.home) (content : List UInt8) :
    (s.withFile location content).entryAt? location = some (.file content) := by
  have hmade : ¬ location <+: (s.set location (.file [])).home := h
  exact entryAt?_set_self hmade _

theorem entryAt?_withFile_of_ne {other : Location} (h : other ≠ location) (s : Store)
    (content : List UInt8) :
    (s.withFile location content).entryAt? other = s.entryAt? other := by
  rw [withFile, fill, entryAt?_set_of_ne h, entryAt?_set_of_ne h]

theorem create_eq_ok_iff :
    s.create path = .ok (location, s') ↔
      s.target path = .ok location ∧ s' = s.set location (.file []) := by
  rw [create, bind_eq_ok_iff]
  simp only [pure, Except.pure, Except.ok.injEq, Prod.mk.injEq]
  constructor
  · rintro ⟨_, htarget, rfl, rfl⟩
    exact ⟨htarget, rfl⟩
  · rintro ⟨htarget, rfl⟩
    exact ⟨location, htarget, rfl, rfl⟩

/-- A file is written by putting it at the target of its path. -/
theorem write_eq_ok_iff :
    s.write path content = .ok s' ↔
      ∃ location, s.target path = .ok location ∧ s' = s.withFile location content := by
  rw [write, bind_eq_ok_iff]
  constructor
  · rintro ⟨⟨location, created⟩, hcreate, h⟩
    obtain ⟨htarget, rfl⟩ := create_eq_ok_iff.mp hcreate
    exact ⟨location, htarget, (Except.ok.inj h).symm⟩
  · rintro ⟨location, htarget, rfl⟩
    exact ⟨(location, s.set location (.file [])), create_eq_ok_iff.mpr ⟨htarget, rfl⟩, rfl⟩

/-! ## Directories -/

/-- Two stores have the same directories, and one of them for the working directory. -/
structure SameDirectories (s s' : Store) : Prop where
  home : s'.home = s.home
  directory : ∀ location,
    s'.entryAt? location = some .directory ↔ s.entryAt? location = some .directory

theorem SameDirectories.trans {s₁ s₂ s₃ : Store} (h : SameDirectories s₁ s₂)
    (h' : SameDirectories s₂ s₃) : SameDirectories s₁ s₃ where
  home := h'.home.trans h.home
  directory location := (h'.directory location).trans (h.directory location)

/-- Writing a file neither makes nor removes a directory. -/
theorem sameDirectories_withFile (h : s.target path = .ok location) :
    SameDirectories s (s.withFile location content) where
  home := rfl
  directory other := by
    obtain ⟨-, -, -, hfree⟩ := target_eq_ok_iff.mp h
    by_cases heq : other = location
    · rw [heq, entryAt?_withFile_self (not_prefix_of_target h)]
      simp [hfree]
    · rw [entryAt?_withFile_of_ne heq]

/-- Without a directory to stand in there is no next name. -/
theorem follow_of_not_directory (h : s.entryAt? location ≠ some .directory) (name : String)
    (rest : List String) (place : Location) :
    s.follow location (name :: rest) ≠ .ok place := by
  rcases hentry : s.entryAt? location with _ | _ | content
  · simp [follow, hentry]
  · exact absurd hentry h
  · simp [follow, hentry]

/-- Names lead to the same place in two stores with the same directories. Where they lead nowhere
    the reason may differ: a file may stand where nothing was. -/
theorem follow_eq_ok_iff (h : SameDirectories s s') (names : List String)
    (here place : Location) :
    s'.follow here names = .ok place ↔ s.follow here names = .ok place := by
  induction names generalizing here with
  | nil => simp [follow]
  | cons name rest ih =>
      by_cases hdir : s.entryAt? here = some .directory
      · have hdir' := (h.directory here).mpr hdir
        simp only [follow, hdir, hdir']
        split
        · exact ih _
        · split
          · exact ih _
          · split
            · rfl
            · exact ih _
      · -- where one store has no directory neither has the other: both refuse
        have hdir' := mt (h.directory here).mp hdir
        simp only [follow_of_not_directory hdir, follow_of_not_directory hdir']

theorem locateNames_eq_ok_iff (h : SameDirectories s s') (names : List String)
    (place : Location) :
    s'.locateNames names = .ok place ↔ s.locateNames names = .ok place := by
  unfold locateNames
  split
  · simp
  · exact follow_eq_ok_iff h _ _ _
  · rw [h.home]
    exact follow_eq_ok_iff h _ _ _

/-- Paths have the same targets in two stores with the same directories. -/
theorem target_eq_ok_iff_of_sameDirectories (h : SameDirectories s s') (path : String)
    (location : Location) : s'.target path = .ok location ↔ s.target path = .ok location := by
  rw [target_eq_ok_iff, target_eq_ok_iff, locateNames_eq_ok_iff h, ne_eq, ne_eq,
    h.directory location]

/-! ## Several files -/

/-- The store after files are written one after the other. -/
def writeAll (s : Store) (outputs : List Output) : Except StorageError Store :=
  outputs.foldlM (fun s o => s.write o.path o.content) s

theorem writeAll_cons_eq_ok_iff {o : Output} {rest : List Output} :
    s.writeAll (o :: rest) = .ok s' ↔
      ∃ s₁, s.write o.path o.content = .ok s₁ ∧ s₁.writeAll rest = .ok s' :=
  foldlM_cons_eq_ok_iff

theorem writeAll_append_eq_ok_iff {before later : List Output} :
    s.writeAll (before ++ later) = .ok s' ↔
      ∃ s₁, s.writeAll before = .ok s₁ ∧ s₁.writeAll later = .ok s' :=
  foldlM_append_eq_ok_iff

theorem sameDirectories_writeAll {outputs : List Output} (h : s.writeAll outputs = .ok s') :
    SameDirectories s s' := by
  induction outputs generalizing s with
  | nil =>
      cases h
      exact ⟨rfl, fun _ => Iff.rfl⟩
  | cons o rest ih =>
      obtain ⟨s₁, hwrite, hrest⟩ := writeAll_cons_eq_ok_iff.mp h
      obtain ⟨location, htarget, rfl⟩ := write_eq_ok_iff.mp hwrite
      exact (sameDirectories_withFile htarget).trans (ih hrest)

/-- Every file that was written had a target, before the first of them was written. -/
theorem exists_target_of_writeAll {outputs : List Output} (h : s.writeAll outputs = .ok s')
    {o : Output} (hmem : o ∈ outputs) : ∃ location, s.target o.path = .ok location := by
  obtain ⟨before, later, rfl⟩ := List.append_of_mem hmem
  obtain ⟨s₁, hbefore, hlater⟩ := writeAll_append_eq_ok_iff.mp h
  obtain ⟨s₂, hwrite, -⟩ := writeAll_cons_eq_ok_iff.mp hlater
  obtain ⟨location, htarget, -⟩ := write_eq_ok_iff.mp hwrite
  have hsame := sameDirectories_writeAll hbefore
  exact ⟨location, (target_eq_ok_iff_of_sameDirectories hsame _ _).mp htarget⟩

/-- **Writing files changes nothing but their targets.** -/
theorem entryAt?_writeAll_of_ne {outputs : List Output} (h : s.writeAll outputs = .ok s')
    (hne : ∀ o ∈ outputs, s.target o.path ≠ .ok location) :
    s'.entryAt? location = s.entryAt? location := by
  -- the store moves on with each file; that targets stay where they were carries `hne` along
  induction outputs generalizing s with
  | nil =>
      cases h
      rfl
  | cons o rest ih =>
      obtain ⟨s₁, hwrite, hrest⟩ := writeAll_cons_eq_ok_iff.mp h
      obtain ⟨here, htarget, rfl⟩ := write_eq_ok_iff.mp hwrite
      have hhere : location ≠ here := by
        rintro rfl
        exact hne o List.mem_cons_self htarget
      rw [ih hrest, entryAt?_withFile_of_ne hhere]
      intro p hp hlater
      apply hne p (List.mem_cons_of_mem _ hp)
      exact (target_eq_ok_iff_of_sameDirectories (sameDirectories_withFile htarget) _ _).mp hlater

/-- **A written file can be read back as a whole**, if no later one was written over it. -/
theorem read_writeAll {before later : List Output} {o : Output}
    (h : s.writeAll (before ++ o :: later) = .ok s')
    (hlast : ∀ p ∈ later, s.target p.path ≠ s.target o.path) :
    s'.read o.path = .ok o.content := by
  obtain ⟨s₁, hbefore, hrest⟩ := writeAll_append_eq_ok_iff.mp h
  obtain ⟨s₂, hwrite, hlater⟩ := writeAll_cons_eq_ok_iff.mp hrest
  obtain ⟨location, htarget, rfl⟩ := write_eq_ok_iff.mp hwrite
  -- the path has one target: in the store at first, when the file is written, and at the end
  have same₁ := sameDirectories_writeAll hbefore
  have same₂ : SameDirectories s₁ (s₁.withFile location o.content) :=
    sameDirectories_withFile htarget
  have htarget₀ : s.target o.path = .ok location :=
    (target_eq_ok_iff_of_sameDirectories same₁ _ _).mp htarget
  have htarget' : s'.target o.path = .ok location :=
    (target_eq_ok_iff_of_sameDirectories (sameDirectories_writeAll h) _ _).mpr htarget₀
  obtain ⟨hvet, -, hlocated, -⟩ := target_eq_ok_iff.mp htarget'
  -- no later file goes there, so what was written is still there
  have hentry : s'.entryAt? location = some (.file o.content) := by
    rw [entryAt?_writeAll_of_ne hlater, entryAt?_withFile_self (not_prefix_of_target htarget)]
    intro p hp hover
    apply hlast p hp
    rw [htarget₀, ← target_eq_ok_iff_of_sameDirectories same₁,
      ← target_eq_ok_iff_of_sameDirectories same₂]
    exact hover
  have hfind : s'.find o.path = .ok (.file o.content) := by
    simp only [find, locate, hvet, bind, Except.bind, hlocated, hentry]
  rw [read, hfind]

end Store

end Storage

end LatencyPlot
