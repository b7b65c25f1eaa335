import RecordViews.Generated
import RecordViews.Proofs.NameOrder

/-! The names generated so far as a set: a name is in it by its text, and inserting a name that is
not in it adds this name and nothing else. -/

namespace RecordViews.GeneratedNames

variable {g : GeneratedNames} {n : TypeName}

theorem contains_iff : g.contains n = true ↔ ∃ m ∈ g.names, m.text = n.text := by
  simp [contains]

theorem contains_eq_false_iff : g.contains n = false ↔ ∀ m ∈ g.names, m.text ≠ n.text := by
  simp [contains]

theorem insert_perm (new : g.contains n = false) : (g.insert n).names.Perm (n :: g.names) := by
  simp only [insert, new]
  exact TypeName.insertIn_perm id n g.names (contains_eq_false_iff.1 new)

/-- What is in a set that `g` and further names make up. -/
theorem contains_of_perm {g' : GeneratedNames} {names : List TypeName}
    (h : g'.names.Perm (g.names ++ names)) (n : TypeName) :
    g'.contains n = true ↔ g.contains n = true ∨ ∃ m ∈ names, m.text = n.text := by
  rw [contains_iff, contains_iff]
  constructor
  · rintro ⟨m, hm, e⟩
    rcases List.mem_append.1 (h.mem_iff.1 hm) with hm | hm
    · exact Or.inl ⟨m, hm, e⟩
    · exact Or.inr ⟨m, hm, e⟩
  · rintro (⟨m, hm, e⟩ | ⟨m, hm, e⟩)
    · exact ⟨m, h.mem_iff.2 (List.mem_append_left _ hm), e⟩
    · exact ⟨m, h.mem_iff.2 (List.mem_append_right _ hm), e⟩

end RecordViews.GeneratedNames
