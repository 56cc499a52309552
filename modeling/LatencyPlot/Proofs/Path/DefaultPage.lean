/-
  LatencyPlot.Proofs.Path.DefaultPage

  The default page for an input. All that happens to a path happens to the name
  at its end: it loses the extension of a compressed file, then one more, and
  gets that of a page (`toList_defaultPage`). The name comes out unchanged only
  for a stem without an extension before the extension of a page
  (`pageName_eq_self_iff`).
-/
import LatencyPlot.Path
import Mathlib.Data.List.Basic

namespace LatencyPlot.Path

variable {directory name stem extension : List Char}

/-! ## Names at the end of a path -/

/-- What may stand before a file name: nothing, or a text that ends with a slash. -/
def IsParent (directory : List Char) : Prop :=
  directory = [] ∨ directory.getLast? = some '/'

/-- What may stand behind the last slash of a path and counts there. -/
structure IsName (name : List Char) : Prop where
  slash : '/' ∉ name
  ne_nil : name ≠ []
  ne_dot : name ≠ ['.']

theorem exists_parent (path : List Char) :
    ∃ directory name, path = directory ++ name ∧ IsParent directory ∧ '/' ∉ name := by
  refine ⟨(path.reverse.dropWhile (· != '/')).reverse, (path.reverse.takeWhile (· != '/')).reverse,
    ?_, ?_, ?_⟩
  · rw [← List.reverse_append, List.takeWhile_append_dropWhile, List.reverse_reverse]
  · -- the text before the name ends where the slash stands that stops the search
    rw [IsParent, List.reverse_eq_nil_iff, List.getLast?_reverse]
    cases hrest : path.reverse.dropWhile (· != '/') with
    | nil => exact .inl rfl
    | cons c rest =>
      have hhead := List.head?_dropWhile_not (· != '/') path.reverse
      rw [hrest] at hhead
      exact .inr (by simpa using hhead)
  · intro hmem
    have hne := List.all_eq_true.mp List.all_takeWhile _ (List.mem_reverse.mp hmem)
    simp at hne

theorem dropTail_reverse_append (hname : IsName name) (directory : List Char) :
    dropTail (name.reverse ++ directory) = name.reverse ++ directory := by
  have hslash : '/' ∉ name.reverse := by simpa using hname.slash
  have hdot : name.reverse ≠ ['.'] := by simpa using hname.ne_dot
  -- The path ends with a character of the name; a dot there has another one before it.
  cases hrev : name.reverse with
  | nil => exact absurd (List.reverse_eq_nil_iff.mp hrev) hname.ne_nil
  | cons c cs =>
    rw [hrev] at hslash hdot
    rw [List.cons_append]
    unfold dropTail
    split
    · next heq => simp_all
    · next rest heq =>
      cases cs with
      | nil => simp_all
      | cons d ds => simp_all
    · rfl

/-- What stands behind the last slash of a path, seen from its end, and what stands before. -/
theorem span_reverse_append (hdirectory : IsParent directory) (hslash : '/' ∉ name) :
    (name.reverse ++ directory.reverse).takeWhile (· != '/') = name.reverse ∧
      (name.reverse ++ directory.reverse).dropWhile (· != '/') = directory.reverse := by
  have hne : ∀ c ∈ name.reverse, (c != '/') = true := by
    intro c hc
    rw [bne_iff_ne]
    rintro rfl
    exact hslash (List.mem_reverse.mp hc)
  have hstop : directory.reverse = [] ∨ ∃ rest, directory.reverse = '/' :: rest := by
    rcases hdirectory with rfl | hlast
    · exact .inl rfl
    · exact .inr (List.head?_eq_some_iff.mp (by rw [List.head?_reverse, hlast]))
  rw [List.takeWhile_append_of_pos hne, List.dropWhile_append_of_pos hne]
  rcases hstop with h | ⟨rest, h⟩ <;> simp [h]

/-- A path is parted before the name at its end. -/
theorem split?_append (hdirectory : IsParent directory) (hname : IsName name) :
    split? (directory ++ name) = if name = ['.', '.'] then none else some (directory, name) := by
  obtain ⟨htake, hdrop⟩ := span_reverse_append hdirectory hname.slash
  simp only [split?, List.reverse_append, dropTail_reverse_append hname, htake, hdrop,
    List.reverse_reverse, hname.ne_nil, hname.ne_dot, false_or]

theorem fileName?_append (hdirectory : IsParent directory) (hname : IsName name) :
    fileName? (directory ++ name) = if name = ['.', '.'] then none else some name := by
  rw [fileName?, split?_append hdirectory hname]
  split <;> rfl

/-! ## Stems -/

theorem ne_nil_of_splitName (h : splitName name = (stem, some extension)) : stem ≠ [] := by
  simp only [splitName] at h
  split at h
  · simp at h
  · split at h
    · simp at h
    · next hne =>
      simp only [Prod.mk.injEq] at h
      rw [← h.1]
      simpa using hne

/-- A name is parted at its last dot. -/
theorem splitName_append (hstem : stem ≠ []) (hextension : '.' ∉ extension) :
    splitName (stem ++ '.' :: extension) = (stem, some extension) := by
  have hne : ∀ c ∈ extension.reverse, (c != '.') = true := by
    intro c hc
    rw [bne_iff_ne]
    rintro rfl
    exact hextension (List.mem_reverse.mp hc)
  have hreverse : (stem ++ '.' :: extension).reverse =
      extension.reverse ++ '.' :: stem.reverse := by simp
  simp only [splitName, hreverse, List.takeWhile_append_of_pos hne,
    List.dropWhile_append_of_pos hne]
  simp [hstem]

/-- Without a dot behind its first character a name has no extension, and only then. -/
theorem splitName_eq_none_iff : (splitName name).2 = none ↔ '.' ∉ name.tail := by
  constructor
  · intro h hmem
    obtain ⟨c, rest, rfl⟩ : ∃ c rest, name = c :: rest := by
      cases name with
      | nil => simp at hmem
      | cons c rest => exact ⟨c, rest, rfl⟩
    -- the last of these dots parts the name
    obtain ⟨after, before, hsplit, hafter⟩ :=
      List.eq_append_cons_of_mem (List.mem_reverse.mpr hmem)
    have hrest : c :: rest = (c :: before.reverse) ++ '.' :: after.reverse := by
      have := congrArg List.reverse hsplit
      simpa using this
    rw [hrest, splitName_append (List.cons_ne_nil _ _) (by simpa using hafter)] at h
    simp at h
  · intro h
    cases hsplit : splitName name with
    | mk stem extension =>
      cases extension with
      | none => rfl
      | some extension =>
        exfalso
        have hname := splitName_of_some hsplit
        obtain ⟨c, rest, rfl⟩ := List.exists_cons_of_ne_nil (ne_nil_of_splitName hsplit)
        rw [← hname] at h
        simp at h

theorem splitName_of_not_mem (h : '.' ∉ name.tail) : splitName name = (name, none) := by
  have hnone := splitName_eq_none_iff.mpr h
  have hstem : (splitName name).1 = name :=
    splitName_of_none (show splitName name = ((splitName name).1, none) by rw [← hnone])
  exact Prod.ext hstem hnone

/-! ## Other extensions -/

/-- A name with another extension. A lone dot for a stem leads to the directory above. -/
def rename (extension name : List Char) : List Char :=
  if (splitName name).1 = ['.'] then ['.', '.']
  else (splitName name).1 ++ if extension = [] then [] else '.' :: extension

theorem extension?_append (hdirectory : IsParent directory) (hname : IsName name) :
    extension? (directory ++ name) = if name = ['.', '.'] then none else (splitName name).2 := by
  rw [extension?, fileName?_append hdirectory hname]
  split <;> rfl

/-- A name without an extension has nothing to lose. -/
theorem clip_append_of_none (hdirectory : IsParent directory) (hname : IsName name)
    (h : name = ['.', '.'] ∨ (splitName name).2 = none) :
    clip (directory ++ name) = directory ++ name := by
  have hnone : extension? (directory ++ name) = none := by
    rw [extension?_append hdirectory hname]
    rcases h with h | h
    · rw [if_pos h]
    · rw [h, ite_self]
  rw [clip, hnone]

/-- The old extension goes, and its dot stays. -/
theorem clip_append (hdirectory : IsParent directory) (hname : IsName (stem ++ '.' :: extension))
    (hparts : splitName (stem ++ '.' :: extension) = (stem, some extension))
    (habove : stem ++ '.' :: extension ≠ ['.', '.']) :
    clip (directory ++ (stem ++ '.' :: extension)) = directory ++ (stem ++ ['.']) := by
  have htext : directory ++ (stem ++ '.' :: extension) =
      directory ++ (stem ++ ['.']) ++ extension := by simp
  rw [clip, extension?_append hdirectory hname, if_neg habove, hparts, htext, List.length_append]
  simp only [Nat.add_sub_cancel, List.take_left]

theorem extend_append (hdirectory : IsParent directory) (hname : IsName name) :
    extend extension (directory ++ name) =
      directory ++ if name = ['.', '.'] then ['.', '.']
        else (splitName name).1 ++ if extension = [] then [] else '.' :: extension := by
  rw [extend, split?_append hdirectory hname]
  by_cases habove : name = ['.', '.']
  · simp only [habove, if_true]
  · simp only [if_neg habove, List.append_assoc]

/-- Another extension changes only the name at the end of a path. -/
theorem withExtension_append (hdirectory : IsParent directory) (hname : IsName name) :
    withExtension extension (directory ++ name) = directory ++ rename extension name := by
  rw [withExtension, rename]
  by_cases habove : name = ['.', '.']
  · subst habove
    rw [clip_append_of_none hdirectory hname (.inl rfl), extend_append hdirectory hname]
    rfl
  cases hparts : splitName name with
  | mk stem old =>
    cases old with
    | none =>
      obtain rfl := splitName_of_none hparts
      rw [clip_append_of_none hdirectory hname (.inr (by rw [hparts])),
        extend_append hdirectory hname, if_neg habove, hparts, if_neg hname.ne_dot]
    | some old =>
      obtain rfl := splitName_of_some hparts
      have hstem := ne_nil_of_splitName hparts
      have hrest : IsName (stem ++ ['.']) :=
        ⟨fun hmem => hname.slash (by simp_all), by simp, by simpa using hstem⟩
      have hdot : stem ++ ['.'] = ['.', '.'] ↔ stem = ['.'] := by
        rw [show ['.', '.'] = ['.'] ++ ['.'] from rfl, List.append_left_inj]
      -- with the extension gone, a stem of one dot and the dot behind it make two
      rw [clip_append hdirectory hname hparts habove, extend_append hdirectory hrest,
        splitName_append hstem List.not_mem_nil]
      simp only [hdot]

theorem rename_append (hstem : stem ≠ []) (hdot : '.' ∉ extension) (hne : stem ≠ ['.'])
    (other : List Char) :
    rename other (stem ++ '.' :: extension) = stem ++ if other = [] then [] else '.' :: other := by
  rw [rename, splitName_append hstem hdot, if_neg hne]

theorem rename_of_not_mem (hdot : '.' ∉ name.tail) (hne : name ≠ ['.']) (other : List Char) :
    rename other name = name ++ if other = [] then [] else '.' :: other := by
  rw [rename, splitName_of_not_mem hdot, if_neg hne]

theorem IsName.splitName_fst (hname : IsName name) :
    (splitName name).1 ≠ [] ∧ '/' ∉ (splitName name).1 := by
  cases hparts : splitName name with
  | mk stem old =>
    cases old with
    | none =>
      obtain rfl := splitName_of_none hparts
      exact ⟨hname.ne_nil, hname.slash⟩
    | some old =>
      refine ⟨ne_nil_of_splitName hparts, fun hmem => hname.slash ?_⟩
      rw [← splitName_of_some hparts]
      exact List.mem_append_left _ hmem

/-- A name with another extension is a name. -/
theorem IsName.rename (hname : IsName name) (hextension : '/' ∉ extension) :
    IsName (rename extension name) := by
  obtain ⟨hnil, hslash⟩ := hname.splitName_fst
  rw [Path.rename]
  split
  · exact ⟨by decide, by decide, by decide⟩
  · next hdot =>
    split
    · rw [List.append_nil]
      exact ⟨hslash, hnil, hdot⟩
    · exact ⟨by simp [hslash, hextension], by simp, by simp [List.append_eq_singleton_iff, hnil]⟩

/-! ## The default page -/

/-- The name of the page for an input with some name. -/
def pageName (name : List Char) : List Char :=
  let isCompressed := (splitName name).2.any fun extension =>
    extension.map Char.toLower == ['g', 'z']
  rename ['h', 't', 'm', 'l'] (rename [] (if isCompressed then rename [] name else name))

theorem isCompressed_append (hdirectory : IsParent directory) (hname : IsName name)
    (habove : name ≠ ['.', '.']) :
    isCompressed (directory ++ name) =
      (splitName name).2.any fun extension => extension.map Char.toLower == ['g', 'z'] := by
  rw [isCompressed, extension?_append hdirectory hname, if_neg habove]

/-- The default page stands beside its input. -/
theorem toList_defaultPage {path : String} (hpath : path.toList = directory ++ name)
    (hdirectory : IsParent directory) (hname : IsName name) (habove : name ≠ ['.', '.']) :
    (defaultPage path).toList = directory ++ pageName name := by
  have hnil : '/' ∉ ([] : List Char) := List.not_mem_nil
  rw [defaultPage, String.toList_ofList, inputStem, hpath,
    isCompressed_append hdirectory hname habove, pageName]
  cases (splitName name).2.any fun extension => extension.map Char.toLower == ['g', 'z'] with
  | true =>
    simp only [if_true]
    rw [withExtension_append hdirectory hname, withExtension_append hdirectory (hname.rename hnil),
      withExtension_append hdirectory ((hname.rename hnil).rename hnil)]
  | false =>
    simp only [Bool.false_eq_true, if_false]
    rw [withExtension_append hdirectory hname, withExtension_append hdirectory (hname.rename hnil)]

theorem IsName.pageName (hname : IsName name) : IsName (pageName name) := by
  have hnil : '/' ∉ ([] : List Char) := List.not_mem_nil
  have hhtml : '/' ∉ ['h', 't', 'm', 'l'] := by decide
  rw [Path.pageName]
  split
  · exact ((hname.rename hnil).rename hnil).rename hhtml
  · exact (hname.rename hnil).rename hhtml

/-- A file name whose default page has the same name: a stem without a dot behind its first
    character, and not a lone dot, before the extension of a page. -/
def IsPageName (name : List Char) : Prop :=
  ∃ stem, name = stem ++ ['.', 'h', 't', 'm', 'l'] ∧ stem ≠ [] ∧ stem ≠ ['.'] ∧ '.' ∉ stem.tail

theorem pageName_eq_self_iff (hname : IsName name) (habove : name ≠ ['.', '.']) :
    pageName name = name ↔ IsPageName name := by
  constructor
  · intro h
    rw [pageName] at h
    generalize hold : (if ((splitName name).2.any fun extension =>
      extension.map Char.toLower == ['g', 'z']) = true then rename [] name else name) = old at h
    rw [rename] at h
    split at h
    · exact absurd h.symm habove
    · next hdot =>
      -- the name is a stem and the extension of a page, so there is nothing to decompress
      generalize hstem : (splitName (rename [] old)).1 = stem at h hdot
      rw [if_neg (List.cons_ne_nil _ _)] at h
      have hnil : stem ≠ [] := by
        have holdname : IsName old := by
          rw [← hold]
          split
          · exact hname.rename List.not_mem_nil
          · exact hname
        rw [← hstem]
        exact (holdname.rename List.not_mem_nil).splitName_fst.1
      have hparts : splitName name = (stem, some ['h', 't', 'm', 'l']) := by
        rw [← h, splitName_append hnil (by decide)]
      obtain rfl : name = old := by simpa [hparts] using hold
      rw [rename, hparts, if_neg hdot, if_pos rfl, List.append_nil] at hstem
      refine ⟨stem, h.symm, hnil, hdot, ?_⟩
      rw [← splitName_eq_none_iff]
      cases hrest : splitName stem with
      | mk first last =>
        cases last with
        | none => rfl
        | some last =>
          -- a stem with an extension is longer than its own stem
          have hshort := splitName_of_some hrest
          rw [hrest] at hstem
          rw [← hstem] at hshort
          simp at hshort
  · rintro ⟨stem, rfl, hnil, hdot, htail⟩
    have hhtml : '.' ∉ ['h', 't', 'm', 'l'] := by decide
    have hparts := splitName_append hnil hhtml
    have hrename := rename_append hnil hhtml hdot
    simp [pageName, hparts, hrename, rename_of_not_mem htail hdot]

instance : DecidablePred IsPageName := fun name =>
  let stem := name.take (name.length - 5)
  decidable_of_iff (name = stem ++ ['.', 'h', 't', 'm', 'l'] ∧ stem ≠ [] ∧ stem ≠ ['.'] ∧
      '.' ∉ stem.tail) <| by
    constructor
    · exact fun h => ⟨stem, h⟩
    · rintro ⟨stem', rfl, h⟩
      have hstem : stem = stem' := by simp [stem]
      rw [hstem]
      exact ⟨rfl, h⟩

/-- The file name of a path is one of those that stay as they are. -/
def HasPageName (path : String) : Prop :=
  ∃ name, fileName? path.toList = some name ∧ IsPageName name

instance : DecidablePred HasPageName := fun path =>
  match hname : fileName? path.toList with
  | none => isFalse fun ⟨_, heq, _⟩ => by
      rw [hname] at heq
      cases heq
  | some name => decidable_of_iff (IsPageName name) <| by
      constructor
      · exact fun h => ⟨name, hname, h⟩
      · rintro ⟨name', heq, h⟩
        rw [hname] at heq
        rwa [Option.some.inj heq]

end LatencyPlot.Path
