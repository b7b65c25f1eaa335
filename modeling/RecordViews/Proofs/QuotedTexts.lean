import Mathlib.Tactic.IntervalCases
import RecordViews.Text.Quoted

/-! A text that is quoted is read back. Each character is written as itself or as an escape, and the
reader takes it off again in one turn, whatever follows. -/

namespace RecordViews.Text

theorem bracedChar_digit {d : Nat} (small : d < 16) (value : Nat) (rest : List Char) :
    bracedChar value (Nat.digitChar d :: rest) = bracedChar (value * 16 + d) rest := by
  interval_cases d <;> rfl

/-- Digits are read as the number that they were written for. -/
theorem bracedChar_hexDigits (n : Nat) (rest : List Char) :
    bracedChar 0 (hexDigits n ++ rest) = bracedChar n rest := by
  induction n using Nat.strongRecOn generalizing rest with
  | _ n ih =>
    unfold hexDigits
    by_cases small : n < 16
    · rw [Nat.toDigits_of_lt_base small, List.singleton_append, bracedChar_digit small,
        Nat.zero_mul, Nat.zero_add]
    · rw [Nat.toDigits_of_base_le (by decide) (Nat.le_of_not_lt small), List.append_assoc,
        List.singleton_append, ← hexDigits, ih _ (by omega), bracedChar_digit (by omega),
        Nat.div_add_mod']

/-- A character that stands for itself is taken as it is. -/
theorem unescape_plain {c : Char} (quote : c ≠ '"') (backslash : c ≠ '\\') (back : c ≠ '\r')
    (fuel : Nat) (rest : List Char) :
    unescape (fuel + 1) (c :: rest) = c :: unescape fuel rest := by
  rw [unescape] <;> simp_all

theorem unescape_unicode (c : Char) (fuel : Nat) (rest : List Char) :
    unescape (fuel + 1) (unicodeEscape c ++ rest) = c :: unescape fuel rest := by
  have digits : bracedChar 0 (hexDigits c.toNat ++ '\x7d' :: rest) = some (c, rest) := by
    rw [bracedChar_hexDigits, bracedChar, Char.ofNat_toNat]
  have start : unicodeEscape c ++ rest =
      '\\' :: 'u' :: '\x7b' :: (hexDigits c.toNat ++ '\x7d' :: rest) := by
    simp [unicodeEscape]
  rw [start, unescape]
  dsimp only [List.drop]
  rw [digits]

theorem unescape_escapeChar (c : Char) (next : List Char) (fuel : Nat) (rest : List Char) :
    unescape (fuel + 1) (escapeChar c next ++ rest) = c :: unescape fuel rest := by
  unfold escapeChar
  split
  · split
    · split <;> rfl
    · rfl
  · rfl
  · rfl
  · rfl
  · rfl
  · rfl
  · split
    · exact unescape_unicode c fuel rest
    · exact unescape_plain ‹_› ‹_› ‹_› fuel rest

theorem escapeChar_length (c : Char) (next : List Char) : 0 < (escapeChar c next).length := by
  unfold escapeChar
  split
  · split
    · split <;> decide
    · decide
  all_goals first
    | decide
    | split <;> simp [unicodeEscape]

theorem unescape_escape (s : List Char) {fuel : Nat} (enough : (escape s).length < fuel) :
    unescape fuel (escape s ++ ['"']) = s := by
  induction s generalizing fuel with
  | nil =>
    obtain ⟨n, rfl⟩ := Nat.exists_eq_add_of_lt enough
    rw [escape, List.nil_append, unescape]
  | cons c rest ih =>
    rw [escape, List.length_append] at enough
    have taken := escapeChar_length c rest
    obtain ⟨n, rfl⟩ : ∃ n, fuel = n + 1 := ⟨fuel - 1, by omega⟩
    rw [escape, List.append_assoc, unescape_escapeChar, ih (by omega)]

/-- A quoted text stands for the text. -/
theorem stringValue?_quote (s : String) : stringValue? (quote s) = some s := by
  have contents : (quote s).toList = '"' :: (escape s.toList ++ ['"']) := String.toList_ofList
  unfold stringValue?
  simp only [contents]
  rw [unescape_escape s.toList (by simp), String.ofList_toList]

end RecordViews.Text
