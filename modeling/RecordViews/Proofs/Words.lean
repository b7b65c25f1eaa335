import Mathlib.Data.List.TakeWhile
import RecordViews.Token.Identifier

/-! What the words of a text consist of. A word is read character by character, and a mark ends it;
so no word has a colon or a point in it, and words that marks join can be told apart again. What
goes on with a word may stand behind another word too. -/

namespace RecordViews

/-- Letters, digits, the underscore and the mark of raw identifiers, and whatever is not ASCII. -/
def isWordCharacter (c : Char) : Bool :=
  128 ≤ c.toNat || c.isAlphanum || c == '_' || c == '#'

def Wordy (s : String) : Prop :=
  ∀ c ∈ s.toList, isWordCharacter c = true

instance (s : String) : Decidable (Wordy s) :=
  decidable_of_iff (s.toList.all isWordCharacter = true) List.all_eq_true

def WordyScope (scope : List String) : Prop :=
  ∀ w ∈ scope, Wordy w

theorem Wordy.not_mem {s : String} (h : Wordy s) {c : Char} (mark : isWordCharacter c = false) :
    c ∉ s.toList := fun there => by
  rw [h c there] at mark
  cases mark

theorem wordy_ofList {s : List Char} (h : ∀ c ∈ s, isWordCharacter c = true) :
    Wordy (String.ofList s) := by
  unfold Wordy
  rwa [String.toList_ofList]

theorem wordCharacter_of_start {c : Char} (h : Text.isIdentifierStart c = true) :
    isWordCharacter c = true := by
  unfold Text.isIdentifierStart at h
  unfold isWordCharacter
  by_cases wide : c.toNat < 128
  · rw [if_pos wide] at h
    simp only [Bool.or_eq_true, Char.isAlphanum] at h ⊢
    grind
  · simp [Nat.le_of_not_lt wide]

theorem wordCharacter_of_continue {c : Char} (h : Text.isIdentifierContinue c = true) :
    isWordCharacter c = true := by
  unfold Text.isIdentifierContinue at h
  unfold isWordCharacter
  by_cases wide : c.toNat < 128
  · rw [if_pos wide] at h
    simp only [Bool.or_eq_true] at h ⊢
    grind
  · simp [Nat.le_of_not_lt wide]

/-- A character that can start an identifier, and others that can go on with it. -/
def IsName : List Char → Prop
  | [] => False
  | c :: rest =>
    Text.isIdentifierStart c = true ∧ ∀ d ∈ rest, Text.isIdentifierContinue d = true

/-- A name, or one behind the mark of raw identifiers. -/
def IsWord (s : List Char) : Prop :=
  IsName s ∨ ∃ name, s = 'r' :: '#' :: name ∧ IsName name

theorem IsName.characters {s : List Char} (h : IsName s) : ∀ c ∈ s, isWordCharacter c = true := by
  cases s with
  | nil => cases h
  | cons first rest =>
    exact List.forall_mem_cons.2
      ⟨wordCharacter_of_start h.1, fun c hc => wordCharacter_of_continue (h.2 c hc)⟩

theorem IsWord.characters {s : List Char} (h : IsWord s) : ∀ c ∈ s, isWordCharacter c = true := by
  rcases h with name | ⟨name, rfl, own⟩
  · exact name.characters
  · exact List.forall_mem_cons.2 ⟨by decide, List.forall_mem_cons.2 ⟨by decide, own.characters⟩⟩

namespace Lexer

theorem name?_isName {s w rest : List Char} (h : name? s = some (w, rest)) : IsName w := by
  cases s with
  | nil => cases h
  | cons first more =>
    rw [name?] at h
    split at h
    · rename_i start
      cases h
      exact ⟨start, fun c hc => List.all_eq_true.1 List.all_takeWhile c hc⟩
    · cases h

theorem identifier?_isWord {s w rest : List Char} (h : identifier? s = some (w, rest)) :
    IsWord w := by
  unfold identifier? at h
  split at h
  · split at h
    · rename_i name _ found
      split at h
      · cases h
      · cases h
        exact Or.inr ⟨name, rfl, name?_isName found⟩
    · cases h
  · exact Or.inl (name?_isName h)

/-- A word is read as an identifier: a literal and a mark are none. -/
theorem leaf?_ident {s rest : List Char} {w : String} (h : leaf? s = some (.ident w, rest)) :
    ∃ name, identifier? s = some (name, rest) ∧ w = String.ofList name := by
  unfold leaf? at h
  split at h
  · cases h
  · split at h
    · cases h
    · split at h
      · rename_i mark
        unfold punct? at mark
        grind
      · split at h
        · cases h
        · obtain ⟨⟨name, after⟩, found, e⟩ := Option.map_eq_some_iff.1 h
          cases e
          exact ⟨name, found, rfl⟩

theorem leaf?_isWord {s rest : List Char} {w : String} (h : leaf? s = some (.ident w, rest)) :
    IsWord w.toList := by
  obtain ⟨name, found, rfl⟩ := leaf?_ident h
  rw [String.toList_ofList]
  exact identifier?_isWord found

theorem docTokens_isWord {text : List Char} {inner : Bool} {w : String}
    (h : .ident w ∈ docTokens text inner) : IsWord w.toList := by
  have doc : w = "doc" := by
    revert h
    cases inner <;>
      simp [docTokens, words, Token.splitBlanks, Token.ofWord, Token.operator, Tokens.brackets,
        Tokens.enclose]
  subst doc
  exact Or.inl ⟨by decide, List.all_eq_true.1 (by decide)⟩

theorem tokens?_isWord {n : Nat} {stack : List Delimiter} {s : List Char} {placed : List Placed}
    (h : tokens? n stack s = some placed) {p : Placed} (hp : p ∈ placed) {w : String}
    (word : p.token = .ident w) : IsWord w.toList := by
  induction n generalizing stack s placed with
  | zero => cases h
  | succ n ih =>
    rw [tokens?] at h
    generalize skipBlanks (s.length + 1) s = s at h
    split at h
    · obtain ⟨more, later, rfl⟩ := Option.map_eq_some_iff.1 h
      rcases List.mem_append.1 hp with doc | hp
      · obtain ⟨t, there, rfl⟩ := List.mem_map.1 doc
        obtain rfl : t = .ident w := word
        exact docTokens_isWord there
      · exact ih later hp
    split at h
    · -- the end of the text
      split at h
      · cases h
        cases hp
      · cases h
    split at h
    · obtain ⟨more, later, rfl⟩ := Option.map_eq_some_iff.1 h
      rcases List.mem_cons.1 hp with rfl | hp
      · cases word
      · exact ih later hp
    · split at h
      · split at h
        · obtain ⟨more, later, rfl⟩ := Option.map_eq_some_iff.1 h
          rcases List.mem_cons.1 hp with rfl | hp
          · cases word
          · exact ih later hp
        · cases h
      · cases h
    · -- what is neither a bracket nor documentation
      split at h
      · rename_i t rest found
        obtain ⟨more, later, rfl⟩ := Option.map_eq_some_iff.1 h
        rcases List.mem_cons.1 hp with rfl | hp
        · obtain rfl : t = .ident w := word
          exact leaf?_isWord found
        · exact ih later hp
      · cases h

/-- The letter in front starts neither a literal nor a mark, so that the whole text is a word. -/
theorem tokens?_setter {n : Nat} {rest : List Char}
    (h : ∀ c ∈ rest, Text.isIdentifierContinue c = true) :
    tokens? (n + 2) [] ('s' :: rest) =
      some [⟨.ident (String.ofList ('s' :: rest)), rest.length + 1⟩] := by
  have blanks : skipBlanks (('s' :: rest).length + 1) ('s' :: rest) = 's' :: rest := rfl
  have comment : docComment? ('s' :: rest) = none := rfl
  have word : leaf? ('s' :: rest) =
      some (.ident (String.ofList ('s' :: rest.takeWhile Text.isIdentifierContinue)),
        rest.dropWhile Text.isIdentifierContinue) := rfl
  rw [List.takeWhile_eq_self_iff.2 h, List.dropWhile_eq_nil_iff.2 h] at word
  rw [tokens?, blanks, comment]
  dsimp only
  rw [word]
  rfl

end Lexer

theorem soleWord?_isWord {s w : String} (h : soleWord? s = some w) : IsWord w.toList := by
  unfold soleWord? at h
  split at h
  · rename_i found
    cases h
    exact Lexer.tokens?_isWord found List.mem_cons_self rfl
  · cases h

theorem soleWord?_wordy {s w : String} (h : soleWord? s = some w) : Wordy w :=
  (soleWord?_isWord h).characters

theorem soleWord?_setter {bare : String}
    (h : ∀ c ∈ bare.toList, Text.isIdentifierContinue c = true) :
    soleWord? ("set_" ++ bare) = some ("set_" ++ bare) := by
  have start : ("set_" ++ bare).toList = 's' :: 'e' :: 't' :: '_' :: bare.toList := by
    rw [String.toList_append]
    rfl
  have behind : ∀ c ∈ 'e' :: 't' :: '_' :: bare.toList, Text.isIdentifierContinue c = true := by
    simp only [List.forall_mem_cons]
    exact ⟨by decide, by decide, by decide, h⟩
  have word := Lexer.tokens?_setter (n := bare.toList.length + 3) behind
  rw [← start, String.ofList_toList] at word
  have unmarked : (("set_" ++ bare).toList.head? == some byteOrderMark) = false := by
    rw [start]
    rfl
  have length : ("set_" ++ bare).toList.length + 1 = bare.toList.length + 3 + 2 := by
    simp [start]
  rw [soleWord?, lex?]
  simp only [unmarked, Bool.false_eq_true, if_false, length, word]

end RecordViews
