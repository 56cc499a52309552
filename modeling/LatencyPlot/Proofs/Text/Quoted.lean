/-
  LatencyPlot.Proofs.Text.Quoted

  A quoted text stands on one line, and reads back as the text. The reader knows
  from the characters so far whether it is at a character of the text, at an
  escaped letter, or at the digits of a code point; the closing quote ends it
  there, whatever follows.
-/
import LatencyPlot.Proofs.Number.Written
import LatencyPlot.Text.Quoted
import Mathlib.Data.List.Basic

namespace LatencyPlot.Text

/-! ## Reading what is quoted -/

/-- Where the reading of a quoted text stands. -/
inductive QuoteState where
  /-- At a character. -/
  | plain
  /-- After a backslash. -/
  | escaped
  /-- In front of the brace of a code point. -/
  | brace
  /-- At a digit of a code point, of which those before stand for `n`. -/
  | digits (n : ℕ)

/-- What an escaped letter stands for. -/
def letter? : Char → Option Char
  | '0' => some '\x00'
  | 't' => some '\t'
  | 'n' => some '\n'
  | 'r' => some '\r'
  | '"' => some '"'
  | '\\' => some '\\'
  | _ => none

/-- What a hexadecimal digit stands for. -/
def hexValue (c : Char) : ℕ := if c.isDigit then c.toNat - '0'.toNat else c.toNat - 'a'.toNat + 10

/-- Puts a character in front of the text that has been read. -/
def keep (c : Char) (read : List Char × List Char) : List Char × List Char := (c :: read.1, read.2)

/-- Reads a quoted text from a state on: the text, and what follows its closing quote. -/
def readFrom : QuoteState → List Char → Option (List Char × List Char)
  | _, [] => none
  | .plain, c :: cs =>
    if c = '"' then some ([], cs)
    else if c = '\\' then readFrom .escaped cs
    else (readFrom .plain cs).map (keep c)
  | .escaped, c :: cs =>
    if c = 'u' then readFrom .brace cs
    else (letter? c).bind fun d => (readFrom .plain cs).map (keep d)
  | .brace, c :: cs => if c = '\x7b' then readFrom (.digits 0) cs else none
  | .digits n, c :: cs =>
    if c = '\x7d' then (readFrom .plain cs).map (keep (Char.ofNat n))
    else readFrom (.digits (16 * n + hexValue c)) cs

/-- Reads a text between quotes. -/
def readQuoted? : List Char → Option (List Char × List Char)
  | '"' :: cs => readFrom .plain cs
  | _ => none

/-! ## Code points -/

theorem hexValue_digitChar : ∀ d < 16, hexValue (Nat.digitChar d) = d := by decide

/-- What digits stand for when they follow others. -/
def hexFrom (n : ℕ) (digits : List Char) : ℕ := digits.foldl (fun n c => 16 * n + hexValue c) n

theorem hexFrom_toDigits (n : ℕ) : hexFrom 0 (Nat.toDigits 16 n) = n := by
  refine Number.toDigits_induction (motive := fun n digits => hexFrom 0 digits = n) (by decide)
    (fun n hlt => ?_) (fun n _ ih => ?_) n
  · simp [hexFrom, hexValue_digitChar n hlt]
  · -- the last digit is that of the remainder
    have hvalue := hexValue_digitChar (n % 16) (Nat.mod_lt _ (by decide))
    rw [hexFrom] at ih ⊢
    rw [List.foldl_append, ih, List.foldl_cons, List.foldl_nil, hvalue]
    omega

theorem exists_of_mem_toDigits (n : ℕ) :
    ∀ c ∈ Nat.toDigits 16 n, ∃ d < 16, c = Nat.digitChar d := by
  refine Number.toDigits_induction
    (motive := fun _ digits => ∀ c ∈ digits, ∃ d < 16, c = Nat.digitChar d) (by decide)
    (fun n hlt => ?_) (fun n _ ih => ?_) n
  · exact List.forall_mem_singleton.mpr ⟨n, hlt, rfl⟩
  · exact List.forall_mem_append.mpr
      ⟨ih, List.forall_mem_singleton.mpr ⟨n % 16, Nat.mod_lt _ (by decide), rfl⟩⟩

theorem readFrom_digits_append {digits : List Char} (h : '\x7d' ∉ digits) (n : ℕ)
    (cs : List Char) :
    readFrom (.digits n) (digits ++ cs) = readFrom (.digits (hexFrom n digits)) cs := by
  induction digits generalizing n with
  | nil => rfl
  | cons c digits ih =>
    have hc : c ≠ '\x7d' := fun heq => h (heq ▸ List.mem_cons_self)
    have hdigits : '\x7d' ∉ digits := fun hmem => h (List.mem_cons_of_mem c hmem)
    rw [List.cons_append, readFrom, if_neg hc, ih hdigits]
    rfl

theorem readFrom_codePoint_append (c : Char) (cs : List Char) :
    readFrom .plain (codePoint c ++ cs) = (readFrom .plain cs).map (keep c) := by
  have hbrace : '\x7d' ∉ Nat.toDigits 16 c.toNat := by
    intro hmem
    obtain ⟨d, hd, hdigit⟩ := exists_of_mem_toDigits _ _ hmem
    revert hdigit
    revert d
    decide
  -- behind the brace the state is that of a code point without digits so far
  show readFrom (.digits 0) (Nat.toDigits 16 c.toNat ++ ['\x7d'] ++ cs) = _
  rw [List.append_assoc, readFrom_digits_append hbrace, hexFrom_toDigits, List.singleton_append,
    readFrom, if_pos rfl, Char.ofNat_toNat]

/-! ## Reading back -/

/-- However a character is written, it is read. -/
theorem readFrom_escapeChar_append (c : Char) (cs : List Char) :
    readFrom .plain (escapeChar c ++ cs) = (readFrom .plain cs).map (keep c) := by
  rw [escapeChar]
  -- a letter after a backslash, a code point, or the character itself
  split
  · next h => rw [h]; rfl
  split
  · next h => rw [h]; rfl
  split
  · next h => rw [h]; rfl
  split
  · next h => rw [h]; rfl
  split
  · next h => rw [h]; rfl
  split
  · next h => rw [h]; rfl
  split
  · exact readFrom_codePoint_append c cs
  · next hquote hbackslash _ =>
    rw [List.singleton_append, readFrom, if_neg hquote, if_neg hbackslash]

theorem toList_quoted (s : String) : (quoted s).toList = quote s.toList := String.toList_ofList

/-- A quoted text reads back as the text, up to its closing quote. -/
theorem readQuoted?_quote_append (cs rest : List Char) :
    readQuoted? (quote cs ++ rest) = some (cs, rest) := by
  rw [quote, List.cons_append, List.append_assoc, readQuoted?]
  induction cs with
  | nil => rfl
  | cons c cs ih => rw [List.flatMap_cons, List.append_assoc, readFrom_escapeChar_append, ih]; rfl

/-! ## One line -/

/-- Whether a character is a control character of ASCII, as line ends are. -/
def IsControl (c : Char) : Prop := c.toNat < 0x20 ∨ c.toNat = 0x7F

instance : DecidablePred IsControl := fun _ => inferInstanceAs (Decidable (_ ∨ _))

/-- Control characters are in the first two ranges. -/
theorem isInvisible_of_isControl {c : Char} (h : IsControl c) : isInvisible c = true := by
  have hranges : invisibleRanges = (0x0, 0x1F) :: (0x7F, 0xA0) :: invisibleRanges.tail.tail := rfl
  rw [isInvisible, hranges]
  rcases h with h | h
  · rw [List.find?_cons_of_pos (by simpa using Nat.le_of_lt_succ h)]
    exact decide_eq_true (Nat.zero_le _)
  · rw [List.find?_cons_of_neg (by rw [h]; decide), List.find?_cons_of_pos (by rw [h]; decide), h]
    rfl

theorem not_isControl_digitChar : ∀ d < 16, ¬ IsControl (Nat.digitChar d) := by decide

theorem not_isControl_of_mem_codePoint {c d : Char} (h : d ∈ codePoint c) : ¬ IsControl d := by
  simp only [codePoint, List.mem_cons, List.mem_append, List.not_mem_nil, or_false] at h
  rcases h with rfl | rfl | rfl | h | rfl
  · decide
  · decide
  · decide
  · obtain ⟨n, hn, rfl⟩ := exists_of_mem_toDigits _ _ h
    exact not_isControl_digitChar n hn
  · decide

/-- A character is written with characters that can be seen. -/
theorem not_isControl_of_mem_escapeChar {c d : Char} (h : d ∈ escapeChar c) : ¬ IsControl d := by
  have hletter {letter : Char} (hvisible : ¬ IsControl letter) (h : d ∈ ['\\', letter]) :
      ¬ IsControl d := by
    rw [List.mem_pair] at h
    rcases h with rfl | rfl
    · decide
    · exact hvisible
  rw [escapeChar] at h
  split at h
  · exact hletter (by decide) h
  split at h
  · exact hletter (by decide) h
  split at h
  · exact hletter (by decide) h
  split at h
  · exact hletter (by decide) h
  split at h
  · exact hletter (by decide) h
  split at h
  · exact hletter (by decide) h
  split at h
  · exact not_isControl_of_mem_codePoint h
  · next hvisible =>
    rw [List.mem_singleton.mp h]
    exact fun hcontrol => hvisible (isInvisible_of_isControl hcontrol)

/-- What is quoted is on one line. -/
theorem not_isControl_of_mem_quote {cs : List Char} {c : Char} (h : c ∈ quote cs) :
    ¬ IsControl c := by
  rw [quote, List.mem_cons, List.mem_append, List.mem_singleton] at h
  rcases h with rfl | h | rfl
  · decide
  · obtain ⟨d, -, h⟩ := List.mem_flatMap.mp h
    exact not_isControl_of_mem_escapeChar h
  · decide

end LatencyPlot.Text
