/-
  LatencyPlot.Path

  File names at the end of paths, their extensions, and the page and the title
  that a plot gets when none are asked for. A path is a text; a slash divides
  it, and a slash or a lone dot at its end does not count.
-/

namespace LatencyPlot.Path

/-! ## File names -/

/-- A reversed path without the slashes and lone dots that it ends in. -/
def dropTail : List Char → List Char
  | '/' :: cs => dropTail cs
  | '.' :: '/' :: cs => dropTail cs
  | cs => cs

/-- The path before its file name, and the file name. A path that ends in two dots, or that is a
    lone dot, has none. -/
def split? (path : List Char) : Option (List Char × List Char) :=
  let reversed := dropTail path.reverse
  let name := (reversed.takeWhile (· != '/')).reverse
  if name = [] ∨ name = ['.'] ∨ name = ['.', '.'] then none
  else some ((reversed.dropWhile (· != '/')).reverse, name)

/-- The part of a file name before its last dot, and the part after it. A dot at the front does
    not count. -/
def splitName (name : List Char) : List Char × Option (List Char) :=
  let extension := (name.reverse.takeWhile (· != '.')).reverse
  match name.reverse.dropWhile (· != '.') with
  | [] => (name, none)
  | _ :: stem => if stem = [] then (name, none) else (stem.reverse, some extension)

/-- A stem, the dot and the extension make up the file name again. -/
theorem splitName_of_some {name stem extension : List Char}
    (h : splitName name = (stem, some extension)) : stem ++ '.' :: extension = name := by
  have hname : name = (name.reverse.dropWhile (· != '.')).reverse ++
      (name.reverse.takeWhile (· != '.')).reverse := by
    rw [← List.reverse_append, List.takeWhile_append_dropWhile, List.reverse_reverse]
  simp only [splitName] at h
  split at h
  · simp at h
  · next c before hdrop =>
    split at h
    · simp at h
    · -- The character at which the extension begins is the dot.
      have hc : c = '.' := by
        have hhead := List.head?_dropWhile_not (· != '.') name.reverse
        rw [hdrop] at hhead
        simpa using hhead
      simp only [Prod.mk.injEq, Option.some.injEq] at h
      rw [← h.1, ← h.2]
      conv => rhs; rw [hname, hdrop, hc]
      simp

/-- A file name without an extension is its own stem. -/
theorem splitName_of_none {name stem : List Char} (h : splitName name = (stem, none)) :
    stem = name := by
  simp only [splitName] at h
  split at h
  · exact (Prod.mk.inj h).1.symm
  · split at h
    · exact (Prod.mk.inj h).1.symm
    · simp at h

/-- The file name of a path. -/
def fileName? (path : List Char) : Option (List Char) := (split? path).map Prod.snd

/-- The extension of the file name of a path, without its dot. -/
def extension? (path : List Char) : Option (List Char) :=
  (fileName? path).bind fun name => (splitName name).2

/-- The path with `extension`, if it is not empty, in place of all that follows the stem of its
    file name. A path without a file name stays as it is. -/
def extend (extension path : List Char) : List Char :=
  match split? path with
  | none => path
  | some (directory, name) =>
    directory ++ (splitName name).1 ++ if extension = [] then [] else '.' :: extension

/-- The path without as many characters at its end as its extension has. The dot before the
    extension stays, so that a stem of one dot becomes the name of the directory above. -/
def clip (path : List Char) : List Char :=
  match extension? path with
  | none => path
  | some extension => path.take (path.length - extension.length)

/-- The path with another extension, or with none if `extension` is empty. -/
def withExtension (extension path : List Char) : List Char := extend extension (clip path)

/-! ## Defaults -/

/-- Whether the extension of a path is the one of a compressed file, in any letter case. -/
def isCompressed (path : List Char) : Bool :=
  (extension? path).any fun extension => extension.map Char.toLower == ['g', 'z']

/-- The path without the extension of a compressed file and without one more extension. -/
def inputStem (path : List Char) : List Char :=
  withExtension [] (if isCompressed path then withExtension [] path else path)

/-- The page for an input: beside it, with its own name. -/
def defaultPage (input : String) : String :=
  String.ofList (withExtension ['h', 't', 'm', 'l'] (inputStem input.toList))

/-- The title for an input: its file name without extensions. -/
def defaultTitle (input : String) : String :=
  match fileName? (inputStem input.toList) with
  | some name => String.ofList name
  | none => "latency"

end LatencyPlot.Path
