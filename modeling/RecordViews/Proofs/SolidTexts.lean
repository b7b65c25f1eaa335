import RecordViews.Proofs.CharacterTables
import RecordViews.Proofs.Spelling
import RecordViews.Proofs.Words

/-! Texts without separators. There is nothing in them that the lexer skips, so a text of this kind
that is one word is the word itself. -/

namespace RecordViews

open Text (Solid)

def SolidText (s : List Char) : Prop :=
  ∀ c ∈ s, Solid c

instance (s : List Char) : Decidable (SolidText s) :=
  List.decidableBAll Solid s

namespace Lexer

variable {s rest : List Char} {n : Nat}

theorem startsWith_solid {text : String} {d : Char} {more : List Char} (solid : SolidText s)
    (start : text.toList = d :: more) (mark : ¬ Solid d) : startsWith s text = false := by
  rw [startsWith, start]
  cases s with
  | nil => rfl
  | cons c rest =>
    have ne : d ≠ c := (Text.Solid.ne (solid c List.mem_cons_self) mark).symm
    simp [List.isPrefixOf, ne]

theorem no_comment (solid : SolidText s) : startsWith s "//" = false ∧ startsWith s "/*" = false ∧
    startsWith s "/**/" = false ∧ startsWith s "//!" = false ∧ startsWith s "///" = false ∧
    startsWith s "/*!" = false ∧ startsWith s "/**" = false := by
  refine ⟨?_, ?_, ?_, ?_, ?_, ?_, ?_⟩ <;> exact startsWith_solid solid rfl (by decide : ¬ Solid '/')

theorem skipBlanks_solid (solid : SolidText s) : skipBlanks n s = s := by
  obtain ⟨line, block, empty, -⟩ := no_comment solid
  cases n with
  | zero => rfl
  | succ n =>
    cases s with
    | nil => rfl
    | cons c rest =>
      have spacing := (solid c List.mem_cons_self).not_spacing
      simp [skipBlanks, isPlainLineComment, isPlainBlockComment, line, block, empty, spacing]

theorem docComment?_solid (solid : SolidText s) : docComment? s = none := by
  obtain ⟨-, -, -, innerLine, outerLine, innerBlock, outerBlock⟩ := no_comment solid
  simp [docComment?, innerLine, outerLine, innerBlock, outerBlock]

/-- Such a text without tokens is empty. -/
theorem eq_nil_of_tokens? (solid : SolidText s) (h : tokens? n [] s = some []) : s = [] := by
  cases n with
  | zero => cases h
  | succ n =>
    rw [tokens?, skipBlanks_solid solid, docComment?_solid solid] at h
    cases s with
    | nil => rfl
    | cons c rest =>
      dsimp only at h
      split at h
      · simp at h
      · simp at h
      · split at h
        · simp at h
        · cases h

theorem identifier?_solid {name : List Char} (solid : SolidText s)
    (h : identifier? s = some (name, rest)) : name ++ rest = s := by
  have bare : startsWith s "r#" = false := by
    rw [← Bool.not_eq_true]
    intro raw
    obtain ⟨more, rfl⟩ := List.isPrefixOf_iff_prefix.1 raw
    exact absurd (solid '#' (by simp)) (by decide)
  rw [identifier?, bare] at h
  cases s with
  | nil => cases h
  | cons c more =>
    simp only [Bool.false_eq_true, if_false, name?] at h
    split at h
    · cases h
      exact congrArg (c :: ·) List.takeWhile_append_dropWhile
    · cases h

theorem leaf?_solid {w : String} (solid : SolidText s)
    (h : leaf? s = some (.ident w, rest)) : w.toList ++ rest = s := by
  obtain ⟨name, found, rfl⟩ := leaf?_ident h
  rw [String.toList_ofList]
  exact identifier?_solid solid found

/-- Such a text that is one word consists of it. -/
theorem tokens?_single {left : Nat} {w : String} (solid : SolidText s)
    (h : tokens? n [] s = some [⟨.ident w, left⟩]) : w.toList = s := by
  cases n with
  | zero => cases h
  | succ n =>
    rw [tokens?, skipBlanks_solid solid, docComment?_solid solid] at h
    cases s with
    | nil => cases h
    | cons c rest =>
      dsimp only at h
      split at h
      · simp at h
      · simp at h
      · split at h
        · rename_i t more found
          obtain ⟨others, later, same⟩ := Option.map_eq_some_iff.1 h
          obtain ⟨first, rfl⟩ := List.cons.inj same
          cases first
          have whole := leaf?_solid solid found
          have none : more = [] := by
            refine eq_nil_of_tokens? (fun d hd => solid d ?_) later
            rw [← whole]
            exact List.mem_append_right _ hd
          rw [← whole, none, List.append_nil]
        · cases h

end Lexer

variable {text w : String}

theorem soleWord?_solid (solid : SolidText text.toList) (h : soleWord? text = some w) :
    w = text := by
  unfold soleWord? at h
  split at h
  · rename_i word left found
    cases h
    have plain : (text.toList.head? == some byteOrderMark) = false := by
      rw [← Bool.not_eq_true]
      intro marked
      have first := List.mem_of_mem_head? (beq_iff_eq.1 marked)
      exact absurd (solid _ first) (by decide)
    rw [lex?, plain] at found
    exact String.toList_injective (Lexer.tokens?_single solid found)
  · cases h

theorem unraw_solid (solid : SolidText text.toList) : unraw text = text := by
  unfold unraw
  split
  · rename_i marked
    exact absurd (solid '#' (by simp [marked])) (by decide)
  · rfl

/-- If such a text can be written as an identifier, it is one word. -/
theorem plain_of_solid (solid : SolidText text.toList) (h : identifier? text = some w) :
    Plain text := by
  rw [Plain, unraw_solid solid]
  refine ⟨?_, unraw_solid solid⟩
  rcases identifier_cases (identifier?_eq_some_iff.1 h) with sole | ⟨-, sole⟩
  · rw [unraw_solid solid] at sole
    rw [sole, soleWord?_solid solid sole]
  · rwa [unraw_solid solid] at sole

/-- The word of such a text stands alone, so that nothing is taken for an identifier that is none. -/
theorem identifier_ne_abort (solid : SolidText text.toList) : identifier text ≠ .error (.abort w) := by
  unfold identifier
  dsimp only
  rw [unraw_solid solid]
  split
  · nofun
  · rename_i word sole
    obtain rfl := soleWord?_solid solid sole
    split
    · nofun
    · split
      · nofun
      · rw [asIdentifier, if_pos sole]
        nofun

end RecordViews
