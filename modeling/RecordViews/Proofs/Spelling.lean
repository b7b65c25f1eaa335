import RecordViews.Repeated
import RecordViews.Token.Identifier

/-! Names and the identifiers that they are written as. A mark of a raw identifier in front of a
name does not count, so that a name with it and the name without it are two spellings of one
identifier. For names that are one word apart from the mark these are the only such pairs. -/

namespace RecordViews

theorem unraw_raw (s : String) : unraw ("r#" ++ s) = s := by
  have marked : ("r#" ++ s).toList = 'r' :: '#' :: s.toList := by
    rw [String.toList_append]
    rfl
  simp only [unraw, marked, String.ofList_toList]

theorem raw_ne (s : String) : "r#" ++ s ≠ s := by
  intro h
  have lengths := congrArg String.length h
  rw [String.length_append, show "r#".length = 2 from rfl] at lengths
  omega

theorem unraw_cases (name : String) : unraw name = name ∨ name = "r#" ++ unraw name := by
  unfold unraw
  split
  · rename_i rest marked
    have bare : (String.ofList rest).toList = rest := String.toList_ofList
    refine Or.inr (String.toList_injective ?_)
    rw [marked, String.toList_append, bare]
    rfl
  · exact Or.inl rfl

/-- The name is one word apart from a mark in front: there are no blanks, comments or further
marks. -/
def Plain (name : String) : Prop :=
  soleWord? (unraw name) = some (unraw name) ∧ unraw (unraw name) = unraw name

instance (name : String) : Decidable (Plain name) :=
  instDecidableAnd

theorem identifier?_eq_some_iff {name i : String} :
    identifier? name = some i ↔ identifier name = .ok i := by
  unfold identifier?
  cases identifier name <;> simp [Except.toOption]

theorem identifier?_eq_none_iff {name : String} :
    identifier? name = none ↔ ∃ f, identifier name = .error f := by
  unfold identifier?
  cases identifier name <;> simp [Except.toOption]

theorem asIdentifier_ok_iff {text i : String} :
    asIdentifier text = .ok i ↔ i = text ∧ soleWord? text = some text := by
  unfold asIdentifier
  split
  · rename_i sole
    simp [sole, eq_comm]
  · rename_i other
    simp [other]

theorem asIdentifier_ne_invalid {text name : String} :
    asIdentifier text ≠ .error (.invalid name) := by
  unfold asIdentifier
  split <;> nofun

/-- Only what stands behind the mark counts. -/
theorem identifier?_congr {n m : String} (h : unraw n = unraw m) :
    identifier? n = identifier? m := by
  unfold identifier? identifier
  dsimp only
  rw [h]
  cases soleWord? (unraw m) with
  | none => rfl
  | some word =>
    dsimp only
    split
    · rfl
    · by_cases root : (unraw m == "_" || pathRoots.contains (unraw m)) = true
      · simp only [if_pos root, Except.toOption]
      · simp only [if_neg root]

theorem identifier_invalid {name n : String} (h : identifier name = .error (.invalid n)) :
    n = name := by
  unfold identifier at h
  dsimp only at h
  split at h
  · cases h
    rfl
  · split at h
    · cases h
    · split at h
      · cases h
        rfl
      · unfold asIdentifier at h
        split at h <;> cases h

/-- A name is written as the word that it is, or as a keyword with a mark. -/
theorem identifier_cases {name i : String} (h : identifier name = .ok i) :
    soleWord? (unraw name) = some i ∨
      i = "r#" ++ unraw name ∧ soleWord? (unraw name) = some (unraw name) := by
  unfold identifier at h
  dsimp only at h
  split at h
  · cases h
  · rename_i word sole
    split at h
    · rw [sole]
      exact Or.inl (congrArg some (Except.ok.inj h))
    · split at h
      · cases h
      · cases keyword : asIdentifier (unraw name) with
        | error f =>
          rw [keyword] at h
          cases h
        | ok word =>
          rw [keyword] at h
          obtain ⟨rfl, sole⟩ := asIdentifier_ok_iff.1 keyword
          exact Or.inr ⟨(Except.ok.inj h).symm, sole⟩

namespace Plain

variable {n m i : String}

/-- The identifier is the name up to the mark. -/
theorem unraw_identifier (plain : Plain n) (h : identifier? n = some i) : unraw i = unraw n := by
  rcases identifier_cases (identifier?_eq_some_iff.1 h) with sole | ⟨rfl, -⟩
  · rw [plain.1] at sole
    obtain rfl := Option.some.inj sole
    exact plain.2
  · exact unraw_raw (unraw n)

theorem identifier?_eq_iff (plain : Plain n) (plain' : Plain m) (h : identifier? n = some i) :
    identifier? n = identifier? m ↔ unraw n = unraw m := by
  constructor
  · intro same
    rw [← plain.unraw_identifier h, plain'.unraw_identifier (same ▸ h)]
  · exact identifier?_congr

theorem unraw_eq_iff (plain : Plain n) (plain' : Plain m) (ne : n ≠ m) :
    unraw n = unraw m ↔ n = "r#" ++ m ∨ m = "r#" ++ n := by
  constructor
  · intro same
    -- two names of one rest differ if just one of them is marked
    rcases unraw_cases n with e | e <;> rcases unraw_cases m with e' | e'
    · exact absurd (e.symm.trans (same.trans e')) ne
    · exact Or.inr (by rw [← e, same]; exact e')
    · exact Or.inl (by rw [← e', ← same]; exact e)
    · exact absurd (e.trans ((congrArg ("r#" ++ ·) same).trans e'.symm)) ne
  · rintro (rfl | rfl)
    · rw [← plain.2, unraw_raw]
    · rw [← plain'.2, unraw_raw]

/-- Two names stand for one identifier only if one of them is the other with a mark. -/
theorem same_identifier_iff (plain : Plain n) (plain' : Plain m) (ne : n ≠ m)
    (h : identifier? n = some i) :
    identifier? n = identifier? m ↔ n = "r#" ++ m ∨ m = "r#" ++ n :=
  (plain.identifier?_eq_iff plain' h).trans (plain.unraw_eq_iff plain' ne)

end Plain

/-- A list has no element that came up before if all differ, also from those seen at the start. -/
theorem firstRepeated?_eq_none_iff {α : Type} [DecidableEq α] {seen l : List α} :
    firstRepeated? seen l = none ↔ l.Nodup ∧ ∀ a ∈ l, a ∉ seen := by
  induction l generalizing seen with
  | nil => simp [firstRepeated?]
  | cons a rest ih =>
    unfold firstRepeated?
    split
    · rename_i old
      simp [old]
    · rename_i new
      rw [ih, List.nodup_cons]
      constructor
      · rintro ⟨nodup, apart⟩
        refine ⟨⟨fun again => apart a again List.mem_cons_self, nodup⟩, ?_⟩
        intro b hb
        rcases List.mem_cons.1 hb with rfl | hb
        · exact new
        · exact fun hs => apart b hb (List.mem_cons_of_mem a hs)
      · rintro ⟨⟨once, nodup⟩, apart⟩
        refine ⟨nodup, fun b hb hs => ?_⟩
        rcases List.mem_cons.1 hs with rfl | hs
        · exact once hb
        · exact apart b (List.mem_cons_of_mem a hb) hs

end RecordViews
