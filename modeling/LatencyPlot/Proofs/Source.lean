/-
  LatencyPlot.Proofs.Source

  Compression does not show. An input is stored as it is, or as members one
  after the other, cut at any place (`Stores`); in each way its bytes are the
  same when it is opened and read, and so are its records or its error.
-/
import LatencyPlot.Proofs.Archive.Packing
import LatencyPlot.Proofs.Text.Bytes

namespace LatencyPlot

open Archive

/-- A text does not begin like a member: no character begins with the second byte of one. -/
theorem isMagic_toUTF8 (s : String) : Gzip.isMagic s.toUTF8.toList = false := by
  have hsecond (cs : List Char) (b : UInt8) :
      ∀ rest, cs.flatMap String.utf8EncodeChar = b :: rest → b ≠ 0x8B := by
    rintro rest hcs rfl
    cases cs with
    | nil => cases hcs
    | cons c cs =>
      rw [List.flatMap_cons] at hcs
      rcases Text.utf8EncodeChar_cases c with ⟨a, hc, ha⟩ | ⟨a, tail, hc, ha⟩ <;> rw [hc] at hcs <;>
        rw [(List.cons.inj hcs).1] at ha <;> revert ha <;> decide
  rw [Text.toList_toUTF8]
  cases s.toList with
  | nil => rfl
  | cons c cs =>
    rw [List.flatMap_cons]
    rcases Text.utf8EncodeChar_cases c with ⟨a, hc, -⟩ | ⟨a, tail, hc, ha⟩
    · rw [hc, List.singleton_append]
      cases hcs : cs.flatMap String.utf8EncodeChar with
      | nil => rfl
      | cons b rest =>
        rw [Gzip.isMagic, beq_eq_false_iff_ne.mpr (hsecond cs b rest hcs), Bool.and_false]
    · have hne : a ≠ 0x1F := by
        rintro rfl
        exact absurd ha (by decide)
      rw [hc, List.cons_append]
      cases tail ++ cs.flatMap String.utf8EncodeChar with
      | nil => rfl
      | cons b rest => rw [Gzip.isMagic, beq_eq_false_iff_ne.mpr hne, Bool.false_and]

namespace Source

/-- How a content can be stored in a file at `path`: as it is, if neither the name nor the first two
    bytes tell of a compressed file, or as one or more members under any name. -/
inductive Stores (path : String) : (content file : List UInt8) → Prop where
  | plain {content : List UInt8} (hname : Path.isCompressed path.toList = false)
      (hmagic : Gzip.isMagic content = false) : Stores path content content
  | members {contents parts : List (List UInt8)} (hne : parts ≠ [])
      (h : List.Forall₂ Gzip.IsMemberOf parts contents) :
      Stores path contents.flatten parts.flatten

/-- What is read is what is stored, in either way. -/
theorem read_of_stores {path : String} {content file : List UInt8}
    (h : Stores path content file) : read path (.ok file) = .ok (.ok content) := by
  cases h with
  | plain hname hmagic =>
    simp only [read, detect, hname, hmagic, Bool.false_eq_true, if_false]
    rfl
  | members hne h =>
    have hdetect : ∀ file : List UInt8, Gzip.isMagic file = true →
        detect path (.ok file) = .ok .compressed := by
      intro file hmagic
      simp only [detect, hmagic, if_true, ite_self]
    rw [read, hdetect _ (Gzip.isMagic_flatten hne h)]
    show Except.ok (bytes .compressed _) = _
    rw [bytes, Gzip.decode_flatten hne h]
    rfl

/-- A file of fewer than two bytes does not begin like a member. -/
theorem isMagic_of_length_lt {bytes : List UInt8} (h : bytes.length < 2) :
    Gzip.isMagic bytes = false := by
  match bytes, h with
  | [], _ => rfl
  | [_], _ => rfl

/-- Any pieces can be stored in members, one for each. -/
theorem forall₂_pack (pieces : List (List UInt8)) :
    List.Forall₂ Gzip.IsMemberOf (pieces.map Gzip.pack) pieces := by
  rw [List.forall₂_map_left_iff]
  exact List.forall₂_same.mpr fun piece _ => Gzip.isMemberOf_pack piece

/-- **Compression is transparent.** What is stored in a file is what is read from it: the contents
    of its members, one after the other, under any name, and the bytes of any other file whose name
    is not that of a compressed one, short files among them. A text can be stored as it is, and cut
    into members at any places; its records, or its error, are the same for all of them. -/
theorem read_transparent :
    (∀ (path : String) (parts contents : List (List UInt8)), parts ≠ [] →
      List.Forall₂ Gzip.IsMemberOf parts contents →
      read path (.ok parts.flatten) = .ok (.ok contents.flatten)) ∧
    (∀ (path : String) (file : List UInt8), Path.isCompressed path.toList = false →
      Gzip.isMagic file = false → read path (.ok file) = .ok (.ok file)) ∧
    (∀ file : List UInt8, file.length < 2 → Gzip.isMagic file = false) ∧
    (∀ (text : String) (path path' : String) (file : List UInt8),
      Path.isCompressed path.toList = false → Stores path' text.toUTF8.toList file →
      ∀ header, (read path (.ok text.toUTF8.toList)).map (readRecords header) =
          .ok ((Table.read header text).mapError .row) ∧
        (read path' (.ok file)).map (readRecords header) =
          (read path (.ok text.toUTF8.toList)).map (readRecords header)) ∧
    ∀ (path : String) (pieces : List (List UInt8)), pieces ≠ [] →
      ∃ parts, List.Forall₂ Gzip.IsMemberOf parts pieces ∧
        Stores path pieces.flatten parts.flatten := by
  refine ⟨fun path parts contents hne h => read_of_stores (.members hne h),
    fun path file hname hmagic => read_of_stores (.plain hname hmagic),
    fun file h => isMagic_of_length_lt h, ?_, ?_⟩
  · intro text path path' file hname hstores header
    rw [read_of_stores hstores, read_of_stores (.plain hname (isMagic_toUTF8 text))]
    exact ⟨congrArg Except.ok (readRecords_toUTF8 header text), rfl⟩
  · intro path pieces hne
    refine ⟨pieces.map Gzip.pack, forall₂_pack pieces, .members ?_ (forall₂_pack pieces)⟩
    simpa using hne

/-- A row that is cut into two members inside its numbers, in a file with the name of a plain
    one. -/
theorem read_transparent_cut :
    Path.isCompressed "runs.csv".toList = false ∧
    ∃ parts : List (List UInt8), parts ≠ [] ∧
      List.Forall₂ Gzip.IsMemberOf parts
        ["'a',1,2".toUTF8.toList, ",3,4,5\n".toUTF8.toList] ∧
      read "runs.csv" (.ok parts.flatten) = .ok (.ok "'a',1,2,3,4,5\n".toUTF8.toList) ∧
      (read "runs.csv" (.ok parts.flatten)).map (readRecords false) =
        (read "runs.csv" (.ok "'a',1,2,3,4,5\n".toUTF8.toList)).map (readRecords false) := by
  have hname : Path.isCompressed "runs.csv".toList = false := by decide +kernel
  have hcontent : ["'a',1,2".toUTF8.toList, ",3,4,5\n".toUTF8.toList].flatten =
      "'a',1,2,3,4,5\n".toUTF8.toList := by decide +kernel
  obtain ⟨hmembers, -, -, hrecords, hcut⟩ := read_transparent
  obtain ⟨parts, hparts, hstores⟩ := hcut "runs.csv" _ (List.cons_ne_nil _ _)
  rw [hcontent] at hstores
  have hne : parts ≠ [] := by
    rintro rfl
    cases hparts
  refine ⟨hname, parts, hne, hparts, ?_, (hrecords _ _ _ _ hname hstores false).2⟩
  rw [hmembers "runs.csv" parts _ hne hparts, hcontent]

end Source

end LatencyPlot
