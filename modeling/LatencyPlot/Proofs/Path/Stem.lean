/-
  LatencyPlot.Proofs.Path.Stem

  The default page and title by the stem of the input. A path with a file name
  is a directory, the name, and a tail of slashes and lone dots that does not
  count (`split?_eq_some_iff`). The stem of the input is what its name is without
  the extension of a compressed file and without one more. It is the title, and
  the page has it for a name, unless the stem looks as if it had an extension of
  its own: that is lost on the page, though not in the title.
-/
import LatencyPlot.Proofs.Path.DefaultPage

namespace LatencyPlot.Path

variable {path directory name tail : List Char}

/-! ## What stands behind the name -/

/-- What may stand behind the name at the end of a path: slashes, and lone dots behind them. -/
inductive IsTail : List Char → Prop
  | nil : IsTail []
  | slash {tail : List Char} (h : IsTail tail) : IsTail ('/' :: tail)
  | dot {tail : List Char} (h : IsTail tail) : IsTail ('/' :: '.' :: tail)

theorem IsTail.append {other : List Char} (h : IsTail tail) (hother : IsTail other) :
    IsTail (tail ++ other) := by
  induction h with
  | nil => exact hother
  | slash _ ih => exact .slash ih
  | dot _ ih => exact .dot ih

/-- A tail may end anywhere. -/
theorem IsTail.take (h : IsTail tail) (n : Nat) : IsTail (tail.take n) := by
  induction h generalizing n with
  | nil => rw [List.take_nil]; exact .nil
  | slash _ ih =>
    cases n with
    | zero => exact .nil
    | succ n => exact .slash (ih n)
  | dot _ ih =>
    match n with
    | 0 => exact .nil
    | 1 => exact .slash .nil
    | n + 2 => exact .dot (ih n)

theorem dropTail_append (h : IsTail tail) (reversed : List Char) :
    dropTail (tail.reverse ++ reversed) = dropTail reversed := by
  induction h generalizing reversed with
  | nil => rfl
  | slash _ ih =>
    rw [List.reverse_cons, List.append_assoc, ih]
    rfl
  | dot _ ih =>
    rw [List.reverse_cons, List.reverse_cons, List.append_assoc, List.append_assoc, ih]
    rfl

/-- What is dropped from the end of a path is a tail. -/
theorem exists_tail (reversed : List Char) :
    ∃ tail, IsTail tail ∧ reversed = tail.reverse ++ dropTail reversed := by
  fun_induction dropTail reversed with
  | case1 cs ih =>
    obtain ⟨tail, htail, hcs⟩ := ih
    refine ⟨tail ++ ['/'], htail.append (.slash .nil), ?_⟩
    rw [List.reverse_concat, List.cons_append, ← hcs]
  | case2 cs ih =>
    obtain ⟨tail, htail, hcs⟩ := ih
    refine ⟨tail ++ ['/', '.'], htail.append (.dot .nil), ?_⟩
    rw [List.reverse_append, List.append_assoc, ← hcs]
    rfl
  | case3 cs => exact ⟨[], .nil, rfl⟩

theorem split?_append_tail (h : IsTail tail) (path : List Char) :
    split? (path ++ tail) = split? path := by
  rw [split?, split?, List.reverse_append, dropTail_append h]

/-- **The parts of a path with a file name**: a directory, the name, and a tail that does not
    count. -/
theorem split?_eq_some_iff : split? path = some (directory, name) ↔
    IsParent directory ∧ IsName name ∧ name ≠ ['.', '.'] ∧
      ∃ tail, IsTail tail ∧ path = directory ++ name ++ tail := by
  constructor
  · intro h
    obtain ⟨tail, htail, hpath⟩ := exists_tail path.reverse
    obtain ⟨before, last, hlast, hbefore, hslash⟩ := exists_parent (dropTail path.reverse).reverse
    have hreverse : dropTail path.reverse = last.reverse ++ before.reverse := by
      rw [← List.reverse_append, ← hlast, List.reverse_reverse]
    obtain ⟨htake, hdrop⟩ := span_reverse_append hbefore hslash
    simp only [split?, hreverse, htake, hdrop, List.reverse_reverse] at h
    split at h
    · cases h
    · next hname =>
      rw [not_or, not_or] at hname
      simp only [Option.some.injEq, Prod.mk.injEq] at h
      obtain ⟨rfl, rfl⟩ := h
      refine ⟨hbefore, ⟨hslash, hname.1, hname.2.1⟩, hname.2.2, tail, htail, ?_⟩
      have hwhole := congrArg List.reverse hpath
      rwa [List.reverse_reverse, List.reverse_append, hlast, List.reverse_reverse] at hwhole
  · rintro ⟨hdirectory, hname, habove, tail, htail, rfl⟩
    rw [split?_append_tail htail, split?_append hdirectory hname, if_neg habove]

/-! ## Another extension -/

theorem not_mem_of_splitName {stem extension : List Char}
    (h : splitName name = (stem, some extension)) : '.' ∉ extension := by
  simp only [splitName] at h
  split at h
  · simp at h
  · split at h
    · simp at h
    · simp only [Prod.mk.injEq, Option.some.injEq] at h
      rw [← h.2]
      intro hmem
      have hne := List.all_eq_true.mp List.all_takeWhile _ (List.mem_reverse.mp hmem)
      simp at hne

theorem extension?_of_split? (h : split? path = some (directory, name)) :
    extension? path = (splitName name).2 := by
  rw [extension?, fileName?, h]
  rfl

/-- What is left of a path when as many characters are cut off its end as the extension has. -/
theorem clip_append_tail {stem extension : List Char}
    (h : split? (directory ++ (stem ++ '.' :: extension) ++ tail) =
      some (directory, stem ++ '.' :: extension))
    (hparts : splitName (stem ++ '.' :: extension) = (stem, some extension)) :
    clip (directory ++ (stem ++ '.' :: extension) ++ tail) =
      directory ++ (stem ++ '.' :: (extension ++ tail).take tail.length) := by
  have htext : directory ++ (stem ++ '.' :: extension) ++ tail =
      (directory ++ stem ++ ['.']) ++ (extension ++ tail) := by simp
  have hlength : (directory ++ stem ++ ['.']).length + (extension ++ tail).length -
      extension.length = (directory ++ stem ++ ['.']).length + tail.length := by
    simp only [List.length_append]
    omega
  rw [clip, extension?_of_split? h, hparts]
  simp only
  rw [htext, List.length_append, hlength, List.take_length_add_append]
  simp

theorem isName_of_stem {stem rest : List Char} (hstem : stem ≠ [])
    (hslash : '/' ∉ stem ++ '.' :: rest) : IsName (stem ++ '.' :: rest) :=
  ⟨hslash, by simp, by simp [List.append_eq_singleton_iff, hstem]⟩

theorem ne_above_of_stem {stem : List Char} (hstem : stem ≠ []) (hdot : stem ≠ ['.'])
    (rest : List Char) : stem ++ '.' :: rest ≠ ['.', '.'] := by
  intro htwo
  cases stem with
  | nil => exact hstem rfl
  | cons c cs => cases cs <;> simp_all

/-- What is cut off the end of a path leaves the stem of its name. If the tail is shorter than the
    extension, a part of the extension is left, and with no tail the dot is: behind a lone dot it
    makes the name of the directory above. -/
theorem exists_split?_clip (h : split? path = some (directory, name))
    (hdot : (splitName name).1 ≠ ['.']) :
    ∃ name', split? (clip path) = some (directory, name') ∧
      (splitName name').1 = (splitName name).1 := by
  cases hparts : splitName name with
  | mk stem old =>
    rw [hparts] at hdot
    cases old with
    | none =>
      refine ⟨name, ?_, by rw [hparts]⟩
      rw [clip, extension?_of_split? h, hparts]
      exact h
    | some old =>
      obtain ⟨hdirectory, hname, habove, tail, htail, rfl⟩ := split?_eq_some_iff.mp h
      have hmem := not_mem_of_splitName hparts
      have hstem := ne_nil_of_splitName hparts
      obtain rfl := splitName_of_some hparts
      rw [clip_append_tail h hparts]
      rcases Nat.le_total tail.length old.length with hle | hle
      · have hrest : '.' ∉ old.take tail.length := fun hc => hmem (List.mem_of_mem_take hc)
        have hslash : '/' ∉ stem ++ '.' :: old.take tail.length := by
          intro hc
          apply hname.slash
          simp only [List.mem_append, List.mem_cons] at hc ⊢
          exact hc.imp_right (Or.imp_right List.mem_of_mem_take)
        refine ⟨stem ++ '.' :: old.take tail.length, ?_, by rw [splitName_append hstem hrest]⟩
        rw [List.take_append_of_le_length hle,
          split?_append hdirectory (isName_of_stem hstem hslash),
          if_neg (ne_above_of_stem hstem hdot _)]
      · -- the name is left whole, with a part of the tail
        refine ⟨stem ++ '.' :: old, ?_, by rw [hparts]⟩
        rw [List.take_append, List.take_of_length_le hle, split?_eq_some_iff]
        exact ⟨hdirectory, hname, habove, tail.take (tail.length - old.length), htail.take _,
          by simp⟩

/-- Another extension changes only the name, and does away with the tail. -/
theorem withExtension_of_split? (h : split? path = some (directory, name))
    (hdot : (splitName name).1 ≠ ['.']) (extension : List Char) :
    withExtension extension path = directory ++ rename extension name := by
  obtain ⟨name', hclip, hname'⟩ := exists_split?_clip h hdot
  rw [withExtension, extend, hclip, rename, if_neg hdot]
  simp only [hname', List.append_assoc]

theorem rename_nil (hdot : (splitName name).1 ≠ ['.']) : rename [] name = (splitName name).1 := by
  rw [rename, if_neg hdot, if_pos rfl, List.append_nil]

/-! ## The stem of an input -/

/-- Whether a name has the extension of a compressed file, in any letter case. -/
def isPackedName (name : List Char) : Bool :=
  (splitName name).2.any fun extension => extension.map Char.toLower == ['g', 'z']

/-- A name without the extension of a compressed file. -/
def unpackedName (name : List Char) : List Char :=
  if isPackedName name then (splitName name).1 else name

/-- The stem of the name of an input, be it compressed or not. -/
def stem (name : List Char) : List Char := (splitName (unpackedName name)).1

theorem isCompressed_of_split? (h : split? path = some (directory, name)) :
    isCompressed path = isPackedName name := by
  rw [isCompressed, extension?_of_split? h, isPackedName]

theorem inputStem_eq (h : split? path = some (directory, name)) (hdot : stem name ≠ ['.']) :
    inputStem path = directory ++ stem name ∧ IsName (stem name) := by
  obtain ⟨hdirectory, hname, -, -⟩ := split?_eq_some_iff.mp h
  obtain ⟨hnil, hslash⟩ := hname.splitName_fst
  rw [inputStem, isCompressed_of_split? h]
  rw [stem, unpackedName] at hdot ⊢
  cases hpacked : isPackedName name with
  | true =>
    simp only [hpacked, if_true] at hdot ⊢
    -- a lone dot would be its own stem
    have hinner : (splitName name).1 ≠ ['.'] := fun heq => hdot (by rw [heq]; rfl)
    have hunpacked : IsName (splitName name).1 := ⟨hslash, hnil, hinner⟩
    obtain ⟨hnil', hslash'⟩ := hunpacked.splitName_fst
    rw [withExtension_of_split? h hinner, rename_nil hinner,
      withExtension_append hdirectory hunpacked, rename_nil hdot]
    exact ⟨rfl, hslash', hnil', hdot⟩
  | false =>
    simp only [hpacked, Bool.false_eq_true, if_false] at hdot ⊢
    rw [withExtension_of_split? h hdot, rename_nil hdot]
    exact ⟨rfl, hslash, hnil, hdot⟩

/-- The title for an input is the stem of its name, if that is a name. -/
theorem defaultTitle_eq {path : String} (h : split? path.toList = some (directory, name))
    (hdot : stem name ≠ ['.']) (habove : stem name ≠ ['.', '.']) :
    defaultTitle path = String.ofList (stem name) := by
  obtain ⟨hdirectory, -, -, -⟩ := split?_eq_some_iff.mp h
  obtain ⟨hstem, hisName⟩ := inputStem_eq h hdot
  have hfile : fileName? (inputStem path.toList) = some (stem name) := by
    rw [hstem, fileName?_append hdirectory hisName, if_neg habove]
  unfold defaultTitle
  rw [hfile]

/-- The page for an input has the stem of its name with another extension. -/
theorem toList_defaultPage_of_split? {path : String}
    (h : split? path.toList = some (directory, name)) (hdot : stem name ≠ ['.']) :
    (defaultPage path).toList = directory ++ rename ['h', 't', 'm', 'l'] (stem name) := by
  obtain ⟨hdirectory, -, -, -⟩ := split?_eq_some_iff.mp h
  obtain ⟨hstem, hisName⟩ := inputStem_eq h hdot
  rw [defaultPage, String.toList_ofList, hstem, withExtension_append hdirectory hisName]

/-! ## Stems that stay whole -/

/-- A stem with an extension of its own loses it. -/
theorem rename_eq_append_iff (hname : name ≠ ['.']) (extension : List Char) (hne : extension ≠ []) :
    rename extension name = name ++ '.' :: extension ↔ '.' ∉ name.tail := by
  constructor
  · intro h
    rw [← splitName_eq_none_iff]
    cases hparts : splitName name with
    | mk stem old =>
      cases old with
      | none => rfl
      | some old =>
        obtain rfl := splitName_of_some hparts
        have hlength := congrArg List.length h
        rw [rename, hparts] at hlength
        split at hlength
        · next hdot =>
          rw [show stem = ['.'] from hdot] at hlength
          simp at hlength
        · simp at hlength
          omega
  · intro h
    rw [rename_of_not_mem h hname, if_neg hne]

/-- Two names come out the same with the extension of a page iff they had the same stem. -/
theorem rename_page_inj {a b : List Char} :
    rename ['h', 't', 'm', 'l'] a = rename ['h', 't', 'm', 'l'] b ↔
      (splitName a).1 = (splitName b).1 := by
  -- the name of the directory above is too short for a page
  have hshort (cs : List Char) : ['.', '.'] ≠ cs ++ ['.', 'h', 't', 'm', 'l'] := fun h => by
    simpa using congrArg List.length h
  rw [rename, rename, if_neg (List.cons_ne_nil _ _)]
  by_cases ha : (splitName a).1 = ['.']
  · by_cases hb : (splitName b).1 = ['.']
    · simp only [ha, hb]
    · rw [if_pos ha, if_neg hb, ha]
      exact iff_of_false (hshort _) (Ne.symm hb)
  · by_cases hb : (splitName b).1 = ['.']
    · rw [if_neg ha, if_pos hb, hb]
      exact iff_of_false (hshort _).symm ha
    · rw [if_neg ha, if_neg hb, List.append_left_inj]

/-! ## Inputs and their pages -/

/-- **The default page by the stem of the input**, for a path with a file name and a stem that is
    no lone dot. The stem is the title. The page beside the input with the stem for its name and
    the extension of a page is the default page iff there is no dot in the stem behind its first
    character; then its name is the title with that extension, and inputs in one directory share
    their page only if they have one stem. Whatever the stems are, they do so iff the stems agree
    without one more extension. -/
theorem defaultPage_stem {path : String} (h : split? path.toList = some (directory, name))
    (hdot : stem name ≠ ['.']) :
    (stem name ≠ ['.', '.'] → (defaultTitle path).toList = stem name) ∧
    ((defaultPage path).toList = directory ++ (stem name ++ ".html".toList) ↔
      '.' ∉ (stem name).tail) ∧
    ('.' ∉ (stem name).tail →
      split? (defaultPage path).toList =
        some (directory, (defaultTitle path).toList ++ ".html".toList) ∧
      splitName ((defaultTitle path).toList ++ ".html".toList) =
        (stem name, some "html".toList)) ∧
    ∀ (other : String) (name' : List Char), split? other.toList = some (directory, name') →
      stem name' ≠ ['.'] →
      (defaultPage other = defaultPage path ↔
        (splitName (stem name')).1 = (splitName (stem name)).1) ∧
      ('.' ∉ (stem name).tail → '.' ∉ (stem name').tail → stem name' ≠ stem name →
        defaultPage other ≠ defaultPage path) := by
  obtain ⟨hdirectory, -, -, -⟩ := split?_eq_some_iff.mp h
  have hpage := toList_defaultPage_of_split? h hdot
  have hwhole : (defaultPage path).toList = directory ++ (stem name ++ ".html".toList) ↔
      '.' ∉ (stem name).tail := by
    rw [hpage, List.append_right_inj]
    exact rename_eq_append_iff hdot ['h', 't', 'm', 'l'] (by decide)
  have htitle (habove : stem name ≠ ['.', '.']) : (defaultTitle path).toList = stem name := by
    rw [defaultTitle_eq h hdot habove, String.toList_ofList]
  refine ⟨htitle, hwhole, ?_, ?_⟩
  · intro htail
    -- the name of the directory above has a dot behind its first character
    have habove : stem name ≠ ['.', '.'] := by
      intro htwo
      rw [htwo] at htail
      exact htail (by decide)
    obtain ⟨-, hslash, hnil, -⟩ := inputStem_eq h hdot
    rw [hwhole.mpr htail, htitle habove]
    have hisPage : '/' ∉ stem name ++ '.' :: ['h', 't', 'm', 'l'] := by simp [hslash]
    constructor
    · exact (split?_append hdirectory (isName_of_stem hnil hisPage)).trans
        (if_neg (ne_above_of_stem hnil hdot _))
    · exact splitName_append hnil (by decide)
  · intro other name' hother hdot'
    have hshare : defaultPage other = defaultPage path ↔
        (splitName (stem name')).1 = (splitName (stem name)).1 := by
      rw [← String.toList_inj, toList_defaultPage_of_split? hother hdot', hpage,
        List.append_right_inj, rename_page_inj]
    refine ⟨hshare, fun htail htail' hne heq => hne ?_⟩
    have hstems := hshare.mp heq
    rwa [splitName_of_not_mem htail, splitName_of_not_mem htail'] at hstems

/-- A compressed input in a directory with a dot in its name, and another input beside it. -/
theorem defaultPage_stem_packed :
    split? "data/v1.0/runs.csv.GZ/".toList = some ("data/v1.0/".toList, "runs.csv.GZ".toList) ∧
      stem "runs.csv.GZ".toList = "runs".toList ∧
      (defaultPage "data/v1.0/runs.csv.GZ/").toList = "data/v1.0/runs.html".toList ∧
      (defaultTitle "data/v1.0/runs.csv.GZ/").toList = "runs".toList ∧
      defaultPage "data/v1.0/more.csv" ≠ defaultPage "data/v1.0/runs.csv.GZ/" := by
  have hparts : split? "data/v1.0/runs.csv.GZ/".toList =
      some ("data/v1.0/".toList, "runs.csv.GZ".toList) := by decide
  have hother : split? "data/v1.0/more.csv".toList =
      some ("data/v1.0/".toList, "more.csv".toList) := by decide
  have hstem : stem "runs.csv.GZ".toList = "runs".toList := by decide
  obtain ⟨htitle, hpage, -, hshare⟩ := defaultPage_stem hparts (by decide)
  refine ⟨hparts, hstem, hpage.mpr (by decide), htitle (by decide), ?_⟩
  exact (hshare _ _ hother (by decide)).2 (by decide) (by decide) (by decide)

/-- What stands behind the last dot of a stem is lost, so two inputs share their page, which has
    neither of their titles for a name. A stem of a lone dot leads to no page at all. -/
theorem defaultPage_loses_version :
    stem "runs.v1.csv".toList = "runs.v1".toList ∧ stem "runs.v2.csv".toList = "runs.v2".toList ∧
      defaultTitle "runs.v1.csv" = "runs.v1" ∧ defaultTitle "runs.v2.csv" = "runs.v2" ∧
      defaultPage "runs.v1.csv" = "runs.html" ∧ defaultPage "runs.v2.csv" = "runs.html" ∧
      defaultPage "..csv" = ".." := by
  decide

end LatencyPlot.Path
