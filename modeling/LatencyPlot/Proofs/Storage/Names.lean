/-
  LatencyPlot.Proofs.Storage.Names

  Where the names of a path lead, one step for each of them. A path to a file
  ends with a step down from a directory, so that another name in its place
  leads elsewhere; hence the default page for an input stands in the place of
  the input only where both have one name.
-/
import LatencyPlot.Proofs.Path.DefaultPage
import LatencyPlot.Proofs.Storage.Write

namespace LatencyPlot.Storage.Store

variable {s s' : Store} {location : Location} {path : String} {before : List String}
  {name next : String} {content : List UInt8} {here place : Location}

/-! ## One step -/

theorem length_dropLast_lt (h : location ≠ []) : location.dropLast.length < location.length := by
  have hpos := List.length_pos_of_ne_nil h
  rw [List.length_dropLast]
  omega

/-- Where one name leads to from a directory. -/
inductive Steps (s : Store) : Location → String → Location → Prop where
  | stay {location : Location} {name : String} : s.entryAt? location = some .directory →
      name = "" ∨ name = "." → Steps s location name location
  | up {location : Location} : s.entryAt? location = some .directory →
      Steps s location ".." location.dropLast
  | down {location : Location} {name : String} : s.entryAt? location = some .directory →
      ¬ (name = "" ∨ name = ".") → name ≠ ".." → name.utf8ByteSize ≤ maxName →
      Steps s location name (location ++ [name])

theorem Steps.follow_cons {between : Location} (h : Steps s here name between)
    (rest : List String) : s.follow here (name :: rest) = s.follow between rest := by
  cases h with
  | stay hdir hname => simp only [follow, hdir, if_pos hname]
  | up hdir =>
      simp only [follow, hdir, if_true]
      rw [if_neg (by decide)]
  | down hdir hstay hup hshort =>
      simp only [follow, hdir, if_neg hstay, if_neg hup, if_neg (Nat.not_lt.mpr hshort)]

theorem exists_steps_of_follow {rest : List String}
    (h : s.follow here (name :: rest) = .ok place) : ∃ between, Steps s here name between := by
  rcases hentry : s.entryAt? here with _ | _ | content
  · simp [follow, hentry] at h
  · -- the name stays, goes up, is too long, or goes down
    by_cases hstay : name = "" ∨ name = "."
    · exact ⟨_, .stay hentry hstay⟩
    by_cases hup : name = ".."
    · rw [hup]
      exact ⟨_, .up hentry⟩
    by_cases hlong : maxName < name.utf8ByteSize
    · simp only [follow, hentry, if_neg hstay, if_neg hup, if_pos hlong] at h
      cases h
    · exact ⟨_, .down hentry hstay hup (Nat.not_lt.mp hlong)⟩
  · simp [follow, hentry] at h

theorem follow_cons_eq_ok_iff {rest : List String} :
    s.follow here (name :: rest) = .ok place ↔
      ∃ between, Steps s here name between ∧ s.follow between rest = .ok place := by
  constructor
  · intro h
    obtain ⟨between, hstep⟩ := exists_steps_of_follow h
    rw [hstep.follow_cons] at h
    exact ⟨between, hstep, h⟩
  · rintro ⟨between, hstep, h⟩
    rw [hstep.follow_cons]
    exact h

theorem follow_concat_eq_ok_iff :
    s.follow here (before ++ [name]) = .ok place ↔
      ∃ between, s.follow here before = .ok between ∧ Steps s between name place := by
  induction before generalizing here with
  | nil =>
      rw [List.nil_append, follow_cons_eq_ok_iff]
      simp [follow]
  | cons first rest ih =>
      simp only [List.cons_append, follow_cons_eq_ok_iff, ih]
      constructor
      · rintro ⟨next, hfirst, between, hrest, hlast⟩
        exact ⟨between, ⟨next, hfirst, hrest⟩, hlast⟩
      · rintro ⟨between, ⟨next, hfirst, hrest⟩, hlast⟩
        exact ⟨next, hfirst, between, hrest, hlast⟩

/-! ## Directories on the way -/

/-- All that a location stands in is a directory. -/
def Rooted (s : Store) (location : Location) : Prop :=
  ∀ upper, upper <+: location → upper ≠ location → s.entryAt? upper = some .directory

theorem rooted_of_prefix_home (h : location <+: s.home) : s.Rooted location :=
  fun _ hupper _ => entryAt?_of_prefix_home (hupper.trans h)

theorem Rooted.dropLast (h : s.Rooted location) : s.Rooted location.dropLast := by
  intro upper hupper hne
  refine h upper (hupper.trans (List.dropLast_prefix location)) ?_
  rintro rfl
  by_cases hroot : upper = []
  · rw [hroot] at hne
    exact hne rfl
  · -- a location is longer than the one above it
    exact absurd hupper.length_le (Nat.not_le.mpr (length_dropLast_lt hroot))

theorem Steps.rooted {between : Location} (h : Steps s here name between)
    (hhere : s.Rooted here) : s.Rooted between := by
  cases h with
  | stay => exact hhere
  | up => exact hhere.dropLast
  | down hdir =>
      intro upper hupper hne
      rcases List.prefix_concat_iff.mp hupper with rfl | hupper
      · exact absurd rfl hne
      · by_cases heq : upper = here
        · rw [heq, hdir]
        · exact hhere upper hupper heq

theorem rooted_of_follow {names : List String} (hhere : s.Rooted here)
    (h : s.follow here names = .ok place) : s.Rooted place := by
  induction names generalizing here with
  | nil =>
      cases h
      exact hhere
  | cons name rest ih =>
      obtain ⟨between, hstep, hrest⟩ := follow_cons_eq_ok_iff.mp h
      exact ih (hstep.rooted hhere) hrest

/-! ## The last name of a path -/

/-- The location that the names before the last one lead to. -/
def parent (s : Store) : List String → Except StorageError Location
  | [] => .ok s.home
  | "" :: rest => s.follow [] rest
  | names => s.follow s.home names

theorem rooted_of_parent (h : s.parent before = .ok place) : s.Rooted place := by
  have hhome : s.Rooted s.home := rooted_of_prefix_home (List.prefix_refl _)
  have hroot : s.Rooted [] := rooted_of_prefix_home List.nil_prefix
  unfold parent at h
  split at h
  · cases h
    exact hhome
  · exact rooted_of_follow hroot h
  · exact rooted_of_follow hhome h

theorem locateNames_concat_eq_ok_iff :
    s.locateNames (before ++ [name]) = .ok place ↔
      (before = [] → name ≠ "") ∧ ∃ between, s.parent before = .ok between ∧
        Steps s between name place := by
  cases before with
  | nil =>
      by_cases hname : name = ""
      · subst hname
        simp [locateNames]
      · have hnames : s.locateNames [name] = s.follow s.home ([] ++ [name]) := by
          unfold locateNames
          split <;> simp_all
        rw [List.nil_append, hnames, follow_concat_eq_ok_iff]
        simp [parent, follow, hname]
  | cons first rest =>
      by_cases hfirst : first = ""
      · subst hfirst
        have hnames : s.locateNames ("" :: rest ++ [name]) = s.follow [] (rest ++ [name]) := by
          unfold locateNames
          split <;> simp_all
        rw [hnames, follow_concat_eq_ok_iff]
        simp [parent]
      · have hnames : s.locateNames (first :: rest ++ [name]) =
            s.follow s.home (first :: rest ++ [name]) := by
          unfold locateNames
          split <;> simp_all
        have hparent : s.parent (first :: rest) = s.follow s.home (first :: rest) := by
          unfold parent
          split <;> simp_all
        rw [hnames, follow_concat_eq_ok_iff, hparent]
        simp

/-! ## Files -/

/-- A file stands in a directory, under the last name of a path to it. -/
theorem exists_parent_of_file (h : s.locateNames (before ++ [name]) = .ok place)
    (hfile : s.entryAt? place = some (.file content)) :
    ∃ up, s.parent before = .ok up ∧ place = up ++ [name] ∧
      ¬ (name = "" ∨ name = ".") ∧ name ≠ ".." := by
  obtain ⟨-, between, hparent, hstep⟩ := locateNames_concat_eq_ok_iff.mp h
  -- any other step leads to a directory
  cases hstep with
  | stay hdir =>
      rw [hdir] at hfile
      cases hfile
  | up hdir =>
      by_cases hroot : between = []
      · rw [hroot] at hdir hfile
        exact absurd (hdir.symm.trans hfile) nofun
      · have hlonger : between.dropLast ≠ between := fun heq =>
          Nat.ne_of_lt (length_dropLast_lt hroot) (congrArg List.length heq)
        have hupper := rooted_of_parent hparent _ (List.dropLast_prefix between) hlonger
        exact absurd (hupper.symm.trans hfile) nofun
  | down hdir hstay hup => exact ⟨between, hparent, rfl, hstay, hup⟩

/-- Beside a file another name leads to another place. -/
theorem locateNames_beside (h : s.locateNames (before ++ [name]) = .ok place)
    (hfile : s.entryAt? place = some (.file content)) :
    s.locateNames (before ++ [next]) = .ok place ↔ next = name := by
  obtain ⟨up, hparent, rfl, -, -⟩ := exists_parent_of_file h hfile
  constructor
  · intro hnext
    obtain ⟨-, between, hparent', hstep⟩ := locateNames_concat_eq_ok_iff.mp hnext
    rw [hparent] at hparent'
    cases hparent'
    generalize hplace : up ++ [name] = reached at hstep
    -- only a step down leads to a location that is one name longer
    cases hstep with
    | stay => simp at hplace
    | up =>
        have hlength := congrArg List.length hplace
        rw [List.length_append, List.length_singleton, List.length_dropLast] at hlength
        omega
    | down => exact (List.singleton_inj.mp (List.append_cancel_left hplace)).symm
  · rintro rfl
    exact h

/-! ## Paths as texts -/

theorem names_eq_concat {directory last : List Char} (hpath : path.toList = directory ++ last)
    (hdirectory : Path.IsParent directory) (hslash : '/' ∉ last) :
    names path = (directory.splitOn '/').dropLast.map String.ofList ++ [String.ofList last] := by
  have hlast : last.splitOn '/' = [last] := List.splitOn_eq_singleton hslash
  rw [names, hpath]
  rcases hdirectory with rfl | hend
  · simp [hlast]
  · obtain ⟨front, rfl⟩ := List.getLast?_eq_some_iff.mp hend
    rw [List.append_assoc, List.singleton_append, List.splitOn_append_cons_self,
      List.splitOn_append_cons_self, hlast]
    simp

theorem locate_eq_ok_iff :
    s.locate path = .ok place ↔ vet path = .ok () ∧ s.locateNames (names path) = .ok place := by
  rw [locate, bind_eq_ok_iff]
  constructor
  · rintro ⟨_, hvet, hnames⟩
    exact ⟨hvet, hnames⟩
  · rintro ⟨hvet, hnames⟩
    exact ⟨(), hvet, hnames⟩

theorem locate_eq_of_target (h : s.target path = .ok location) :
    s.locate path = .ok location := by
  obtain ⟨hvet, -, hnames, -⟩ := target_eq_ok_iff.mp h
  exact locate_eq_ok_iff.mpr ⟨hvet, hnames⟩

/-- A path to a file has a file name. -/
theorem exists_name_of_file (h : s.locate path = .ok place)
    (hfile : s.entryAt? place = some (.file content)) :
    ∃ directory last, path.toList = directory ++ last ∧ Path.IsParent directory ∧
      Path.IsName last ∧ last ≠ ['.', '.'] := by
  obtain ⟨directory, last, hpath, hdirectory, hslash⟩ := Path.exists_parent path.toList
  have hnames := (locate_eq_ok_iff.mp h).2
  rw [names_eq_concat hpath hdirectory hslash] at hnames
  obtain ⟨-, -, -, hstay, hup⟩ := exists_parent_of_file hnames hfile
  refine ⟨directory, last, hpath, hdirectory, ⟨hslash, ?_, ?_⟩, ?_⟩
  · rintro rfl
    exact hstay (.inl rfl)
  · rintro rfl
    exact hstay (.inr rfl)
  · rintro rfl
    exact hup rfl

/-- A file can be written where it is. -/
theorem target_of_file (h : s.locate path = .ok location)
    (hfile : s.entryAt? location = some (.file content)) : s.target path = .ok location := by
  obtain ⟨hvet, hnames⟩ := locate_eq_ok_iff.mp h
  obtain ⟨directory, last, hpath, -, hlast, -⟩ := exists_name_of_file h hfile
  refine target_eq_ok_iff.mpr ⟨hvet, ?_, hnames, by simp [hfile]⟩
  rw [Bool.eq_false_iff]
  intro hslash
  have hend : "/".toList <:+ path.toSlice.copy.toList := String.Slice.endsWith_string_iff.mp hslash
  obtain ⟨front, hfront⟩ : ['/'] <:+ directory ++ last := by simpa [hpath] using hend
  -- then the slash would be the last character of the file name
  have hgetLast := congrArg List.getLast? hfront
  rw [List.getLast?_append_of_ne_nil _ hlast.ne_nil, List.getLast?_concat] at hgetLast
  exact hlast.slash (List.mem_of_getLast? hgetLast.symm)

theorem find_eq_ok_iff {entry : Entry} :
    s.find path = .ok entry ↔ ∃ place, s.locate path = .ok place ∧
      s.entryAt? place = some entry := by
  rw [find, bind_eq_ok_iff]
  refine exists_congr fun place => and_congr_right fun _ => ?_
  cases s.entryAt? place <;> simp

theorem exists_location_of_isFile (h : s.isFile path = true) :
    ∃ location content, s.locate path = .ok location ∧
      s.entryAt? location = some (.file content) := by
  unfold isFile at h
  split at h
  · next content hfind =>
    obtain ⟨location, hlocate, hentry⟩ := find_eq_ok_iff.mp hfind
    exact ⟨location, content, hlocate, hentry⟩
  · cases h

/-- Writing files leaves a path to another place as it is. -/
theorem read_writeAll_of_ne {outputs : List Output} (h : s.writeAll outputs = .ok s')
    (hlocate : s.locate path = .ok location)
    (hne : ∀ o ∈ outputs, s.target o.path ≠ .ok location) : s'.read path = s.read path := by
  obtain ⟨hvet, hnames⟩ := locate_eq_ok_iff.mp hlocate
  have hlocate' : s'.locate path = .ok location :=
    locate_eq_ok_iff.mpr
      ⟨hvet, (locateNames_eq_ok_iff (sameDirectories_writeAll h) _ _).mpr hnames⟩
  have hfind : s'.find path = s.find path := by
    rw [find, find, hlocate, hlocate']
    simp only [bind, Except.bind, entryAt?_writeAll_of_ne h hne]
  rw [read, read, hfind]

/-! ## Default pages -/

theorem locateNames_defaultPage (h : s.locate path = .ok place)
    (hfile : s.entryAt? place = some (.file content)) :
    s.locateNames (names (Path.defaultPage path)) = .ok place ↔ Path.HasPageName path := by
  obtain ⟨directory, last, hpath, hdirectory, hlast, hup⟩ := exists_name_of_file h hfile
  have hpage := Path.toList_defaultPage hpath hdirectory hlast hup
  have hnames := (locate_eq_ok_iff.mp h).2
  rw [names_eq_concat hpath hdirectory hlast.slash] at hnames
  rw [names_eq_concat hpage hdirectory hlast.pageName.slash, locateNames_beside hnames hfile,
    String.ofList_inj, Path.pageName_eq_self_iff hlast hup, Path.HasPageName, hpath,
    Path.fileName?_append hdirectory hlast, if_neg hup]
  simp

/-- A file with the name of a page is its own default page. -/
theorem defaultPage_eq_self (h : s.locate path = .ok place)
    (hfile : s.entryAt? place = some (.file content)) (hname : Path.HasPageName path) :
    Path.defaultPage path = path := by
  obtain ⟨directory, last, hpath, hdirectory, hlast, hup⟩ := exists_name_of_file h hfile
  obtain ⟨name, hfileName, hpageName⟩ := hname
  rw [hpath, Path.fileName?_append hdirectory hlast, if_neg hup, Option.some.injEq] at hfileName
  subst hfileName
  rw [← String.toList_inj, Path.toList_defaultPage hpath hdirectory hlast hup,
    (Path.pageName_eq_self_iff hlast hup).mpr hpageName, hpath]

/-- The default page for a file stands in its place iff the file has the name of a page. -/
theorem locate_defaultPage_iff (h : s.isFile path = true) :
    s.locate (Path.defaultPage path) = s.locate path ↔ Path.HasPageName path := by
  obtain ⟨location, content, hlocate, hentry⟩ := exists_location_of_isFile h
  constructor
  · intro hpage
    rw [hlocate] at hpage
    exact (locateNames_defaultPage hlocate hentry).mp (locate_eq_ok_iff.mp hpage).2
  · intro hname
    rw [defaultPage_eq_self hlocate hentry hname]

end LatencyPlot.Storage.Store
