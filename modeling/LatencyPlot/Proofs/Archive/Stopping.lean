/-
  LatencyPlot.Proofs.Archive.Stopping

  Where the reading of compressed data stops. A reading that succeeds on some
  bytes gives the same result on those bytes with any others behind them, and
  leaves the others unread. This is kept by sequencing, so it goes from single
  bits through codes and symbols to whole blocks.

  Fuel is counted by the bits that are left, and more bytes mean more fuel; so
  the property relates two readings (`Extends`), of which the second one may
  have more fuel than the first one.
-/
import LatencyPlot.Archive.Inflate

namespace LatencyPlot.Archive

namespace Bits

/-- The same place before more bytes. -/
def followedBy (s : Bits) (more : List UInt8) : Bits := ⟨s.begun, s.rest ++ more⟩

theorem followedBy_ofBytes (bytes more : List UInt8) :
    (ofBytes bytes).followedBy more = ofBytes (bytes ++ more) := rfl

theorem size_le_followedBy (s : Bits) (more : List UInt8) : s.size ≤ (s.followedBy more).size := by
  simp only [size, followedBy, List.length_append]
  omega

theorem next?_followedBy {s t : Bits} {b : Bool} (h : s.next? = some (b, t))
    (more : List UInt8) : (s.followedBy more).next? = some (b, t.followedBy more) := by
  obtain ⟨begun, rest⟩ := s
  cases begun with
  | cons c begun =>
    cases h
    rfl
  | nil =>
    cases rest with
    | nil => cases h
    | cons byte rest =>
      cases h
      rfl

theorem number?_followedBy {s t : Bits} {n k : Nat} (h : s.number? n = some (k, t))
    (more : List UInt8) : (s.followedBy more).number? n = some (k, t.followedBy more) := by
  induction n generalizing s k with
  | zero =>
    cases h
    rfl
  | succ n ih =>
    rw [number?, Option.bind_eq_bind, Option.bind_eq_some_iff] at h
    obtain ⟨⟨b, u⟩, hbit, h⟩ := h
    rw [Option.bind_eq_bind, Option.bind_eq_some_iff] at h
    obtain ⟨⟨high, v⟩, hrest, h⟩ := h
    cases h
    simp only [number?, next?_followedBy hbit more, Option.bind_eq_bind, Option.bind_some,
      ih hrest]
    rfl

end Bits

/-! ## Readings -/

/-- Where `read` succeeds, `read'` does the same on the same bytes with any others behind them, and
    leaves those. -/
def Extends {α : Type} (read read' : Bits → Except BlockError (α × Bits)) : Prop :=
  ∀ s a t, read s = .ok (a, t) → ∀ more, read' (s.followedBy more) = .ok (a, t.followedBy more)

namespace Extends

variable {α β : Type}

theorem error (e : BlockError) (read' : Bits → Except BlockError (α × Bits)) :
    Extends (fun _ => .error e) read' := by
  intro s a t h
  cases h

theorem pure (a : α) : Extends (fun s => .ok (a, s)) (fun s => .ok (a, s)) := by
  intro s b t h more
  cases h
  rfl

/-- One reading after the other. -/
theorem bind {read read' : Bits → Except BlockError (α × Bits)}
    {next next' : α × Bits → Except BlockError (β × Bits)} (hread : Extends read read')
    (hnext : ∀ a, Extends (fun s => next (a, s)) (fun s => next' (a, s))) :
    Extends (fun s => read s >>= next) (fun s => read' s >>= next') := by
  intro s b u h more
  dsimp only at h ⊢
  cases hfirst : read s with
  | error e =>
    rw [hfirst] at h
    cases h
  | ok r =>
    obtain ⟨a, t⟩ := r
    rw [hfirst] at h
    rw [hread s a t hfirst more]
    exact hnext a t b u h more

theorem ite {c : Prop} [Decidable c] {yes yes' no no' : Bits → Except BlockError (α × Bits)}
    (hyes : Extends yes yes') (hno : Extends no no') :
    Extends (fun s => if c then yes s else no s) (fun s => if c then yes' s else no' s) := by
  by_cases hc : c
  · simpa only [if_pos hc] using hyes
  · simpa only [if_neg hc] using hno

end Extends

theorem extends_take (n : Nat) : Extends (take · n) (take · n) := by
  intro s k t h more
  simp only [take] at h ⊢
  cases hnumber : s.number? n with
  | none =>
    rw [hnumber] at h
    cases h
  | some r =>
    rw [hnumber] at h
    cases h
    rw [Bits.number?_followedBy hnumber more]

/-! ## Codes -/

theorem extends_symbolFrom (symbols : Array Nat) (counts : List Nat) (word first index : Nat) :
    Extends (PrefixCode.symbolFrom symbols counts word first index)
      (PrefixCode.symbolFrom symbols counts word first index) := by
  induction counts generalizing word first index with
  | nil => exact .error _ _
  | cons count counts ih =>
    intro s a t h more
    rw [PrefixCode.symbolFrom] at h ⊢
    cases hnext : s.next? with
    | none =>
      rw [hnext] at h
      cases h
    | some r =>
      obtain ⟨b, u⟩ := r
      rw [hnext] at h
      rw [Bits.next?_followedBy hnext more]
      simp only at h ⊢
      split
      · next hword =>
        rw [if_pos hword] at h
        split at h
        · cases h
          rfl
        · cases h
      · next hword =>
        rw [if_neg hword] at h
        exact ih _ _ _ u a t h more

theorem extends_symbol (code : PrefixCode) : Extends code.symbol code.symbol :=
  extends_symbolFrom code.symbols code.counts 0 0 0

theorem extends_extended (table : List (Nat × Nat)) (symbol : Nat) :
    Extends (extended table symbol) (extended table symbol) := by
  show Extends (fun bits => extended table symbol bits) (fun bits => extended table symbol bits)
  unfold extended
  cases table[symbol]? with
  | none => exact .error _ _
  | some entry => exact (extends_take entry.2).bind fun more => .pure _

theorem extends_triples (n : Nat) : Extends (triples · n) (triples · n) := by
  induction n with
  | zero => exact .pure _
  | succ n ih => exact (extends_take 3).bind fun first => ih.bind fun more => .pure _

theorem extends_lengthRun (lengths : List Nat) (symbol : Nat) :
    Extends (lengthRun lengths symbol) (lengthRun lengths symbol) := by
  refine .ite (.pure _) (.ite ?_ (.ite ?_ ?_))
  · cases lengths with
    | nil => exact .error _ _
    | cons last lengths => exact (extends_take 2).bind fun more => .pure _
  · exact (extends_take 3).bind fun more => .pure _
  · exact (extends_take 7).bind fun more => .pure _

theorem extends_readLengths (code : PrefixCode) (wanted fuel : Nat) (lengths : List Nat) :
    Extends (readLengths code wanted fuel lengths) (readLengths code wanted fuel lengths) := by
  induction fuel generalizing lengths with
  | zero => exact .error _ _
  | succ fuel ih =>
    exact .ite (.pure _) (.ite (.error _ _) ((extends_symbol code).bind fun symbol =>
      (extends_lengthRun lengths symbol).bind fun run => ih (run ++ lengths)))

theorem extends_readCodes : Extends readCodes readCodes := by
  refine (extends_take 5).bind fun l => (extends_take 5).bind fun d => (extends_take 4).bind
    fun c => .ite (.error _ _) ((extends_triples (c + 4)).bind fun given => .ite (.error _ _)
      ((extends_readLengths _ _ _ _).bind fun reversed => ?_))
  -- the two codes are made of lengths that have been read
  dsimp only
  cases ownCode (reversed.reverse.take (l + 257)) with
  | error e => exact .error _ _
  | ok literalCode =>
    show Extends (fun s => ownCode (reversed.reverse.drop (l + 257)) >>= _) _
    cases ownCode (reversed.reverse.drop (l + 257)) with
    | error e => exact .error _ _
    | ok distanceCode => exact .pure _

/-! ## Blocks -/

theorem extends_symbols (codes : Codes) {fuel fuel' : Nat} (h : fuel ≤ fuel')
    (out : Array UInt8) :
    Extends (symbols codes fuel out) (symbols codes fuel' out) := by
  induction fuel generalizing fuel' out with
  | zero => exact .error _ _
  | succ fuel ih =>
    cases fuel' with
    | zero => exact absurd h (Nat.not_succ_le_zero fuel)
    | succ fuel' =>
      have hrest (out : Array UInt8) := ih (Nat.le_of_succ_le_succ h) out
      refine (extends_symbol codes.literals).bind fun symbol => .ite (hrest _) (.ite (.pure _) ?_)
      exact (extends_extended lengthTable (symbol - 257)).bind fun length =>
        (extends_symbol codes.distances).bind fun symbol =>
          (extends_extended distanceTable symbol).bind fun distance => hrest _

/-- The fuel for the symbols of a block may count the bytes behind the block. -/
theorem extends_symbols_size (codes : Codes) (out : Array UInt8) :
    Extends (fun s => symbols codes (s.size + 1) out s)
      (fun s => symbols codes (s.size + 1) out s) := by
  intro s a t h more
  exact extends_symbols codes (Nat.succ_le_succ (s.size_le_followedBy more)) out s a t h more

theorem stored_append {out result : Array UInt8} {bytes : List UInt8} {t : Bits}
    (h : stored out bytes = .ok (result, t)) (more : List UInt8) :
    stored out (bytes ++ more) = .ok (result, t.followedBy more) := by
  match bytes, h with
  | a :: b :: c :: d :: rest, h =>
    simp only [stored, List.cons_append] at h ⊢
    split at h
    · cases h
    · next hcomplement =>
      split at h
      · cases h
      · next hlength =>
        cases h
        have hle : a.toNat + 256 * b.toNat ≤ rest.length := Nat.le_of_not_lt hlength
        rw [if_neg hcomplement, if_neg (by rw [List.length_append]; omega),
          List.take_append_of_le_length hle, List.drop_append_of_le_length hle,
          Bits.followedBy_ofBytes]

theorem extends_block (out : Array UInt8) : Extends (block out) (block out) := by
  refine (extends_take 2).bind fun kind => .ite ?_ (.ite (extends_symbols_size fixedCodes out)
    (.ite (extends_readCodes.bind fun codes => extends_symbols_size codes out) (.error _ _)))
  intro s a t h more
  exact stored_append h more

theorem extends_blocks {fuel fuel' : Nat} (h : fuel ≤ fuel') (out : Array UInt8) :
    Extends (blocks fuel out) (blocks fuel' out) := by
  induction fuel generalizing fuel' out with
  | zero => exact .error _ _
  | succ fuel ih =>
    cases fuel' with
    | zero => exact absurd h (Nat.not_succ_le_zero fuel)
    | succ fuel' =>
      exact (extends_take 1).bind fun last => (extends_block out).bind fun out =>
        .ite (.pure _) (ih (Nat.le_of_succ_le_succ h) out)

/-- Compressed data are read up to their last block; what stands behind that is left as it is. -/
theorem inflate_append {bytes content rest : List UInt8}
    (h : inflate bytes = .ok (content, rest)) (more : List UInt8) :
    inflate (bytes ++ more) = .ok (content, rest ++ more) := by
  rw [inflate] at h ⊢
  cases hblocks : blocks ((Bits.ofBytes bytes).size + 1) #[] (Bits.ofBytes bytes) with
  | error e =>
    rw [hblocks] at h
    cases h
  | ok r =>
    rw [hblocks] at h
    cases h
    have hsize := (Bits.ofBytes bytes).size_le_followedBy more
    have hmore := extends_blocks (Nat.succ_le_succ hsize) #[] _ _ _ hblocks more
    rw [Bits.followedBy_ofBytes] at hmore
    rw [hmore]
    rfl

end LatencyPlot.Archive
