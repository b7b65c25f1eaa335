import RecordViews.Property.Customiser

/-! What customising does to the properties of a view: `change_ok_iff` takes a change apart into its
steps, and `applyOverride_eq` says that a change goes to the first property of its name and leaves
the others where and as they are. -/

namespace RecordViews

section Lists

variable {α : Type}

def editFirst (hit : α → Bool) (f : α → Option α) : List α → List α
  | [] => []
  | a :: rest => if hit a then (f a).toList ++ rest else a :: editFirst hit f rest

theorem editFirst_of_findIdx?_none {hit : α → Bool} {f : α → Option α} {l : List α}
    (h : l.findIdx? hit = none) : editFirst hit f l = l := by
  induction l with
  | nil => rfl
  | cons a rest ih =>
    rw [List.findIdx?_eq_none_iff] at h ih
    rw [editFirst, h a List.mem_cons_self]
    exact congrArg (a :: ·) (ih fun b hb => h b (List.mem_cons_of_mem a hb))

/-- The element that is hit first, and what comes of the list if it is replaced or taken out. -/
theorem editFirst_of_findIdx?_some {hit : α → Bool} {f : α → Option α} {l : List α} {i : Nat}
    (h : l.findIdx? hit = some i) :
    ∃ a, l[i]? = some a ∧ l.find? hit = some a ∧
      (∀ b, f a = some b → editFirst hit f l = l.set i b) ∧
      (f a = none → editFirst hit f l = l.eraseIdx i) := by
  induction l generalizing i with
  | nil => simp at h
  | cons a rest ih =>
    rw [List.findIdx?_cons] at h
    by_cases ha : hit a = true
    · rw [if_pos ha] at h
      obtain rfl := Option.some.inj h
      refine ⟨a, rfl, by rw [List.find?_cons_of_pos ha], fun b hb => ?_, fun hb => ?_⟩
      · simp [editFirst, ha, hb]
      · simp [editFirst, ha, hb]
    · rw [if_neg ha] at h
      obtain ⟨j, hj, rfl⟩ := Option.map_eq_some_iff.1 h
      obtain ⟨b, hget, hfind, hset, herase⟩ := ih hj
      refine ⟨b, by simpa using hget, by rw [List.find?_cons_of_neg ha, hfind], ?_, ?_⟩
      · intro b' hb'
        simp [editFirst, ha, hset b' hb']
      · intro hb'
        simp [editFirst, ha, herase hb']

/-- Where two tests hit the same element first, editing by either is the same. -/
theorem editFirst_congr {hit hit' : α → Bool} {l : List α} (h : l.find? hit = l.find? hit')
    (f : α → Option α) : editFirst hit f l = editFirst hit' f l := by
  induction l with
  | nil => rfl
  | cons a rest ih =>
    rw [List.find?_cons, List.find?_cons] at h
    cases ha : hit a <;> cases ha' : hit' a <;> simp only [ha, ha'] at h
    · simp [editFirst, ha, ha', ih h]
    · rw [List.find?_some h] at ha
      cases ha
    · rw [List.find?_some h.symm] at ha'
      cases ha'
    · simp [editFirst, ha, ha']

end Lists

theorem bind_ok_iff {ε α β : Type} {x : Except ε α} {f : α → Except ε β} {b : β} :
    (x >>= f) = .ok b ↔ ∃ a, x = .ok a ∧ f a = .ok b := by
  cases x with
  | error e => simp [bind, Except.bind]
  | ok a => simp [bind, Except.bind]

theorem bind_error_iff {ε α β : Type} {x : Except ε α} {f : α → Except ε β} {e : ε} :
    (x >>= f) = .error e ↔ x = .error e ∨ ∃ a, x = .ok a ∧ f a = .error e := by
  cases x with
  | error e => simp [bind, Except.bind]
  | ok a => simp [bind, Except.bind]

theorem map_ok_iff {ε α β : Type} {x : Except ε α} {f : α → β} {b : β} :
    x.map f = .ok b ↔ ∃ a, x = .ok a ∧ f a = b := by
  cases x <;> simp [Except.map]

theorem map_error_iff {ε α β : Type} {x : Except ε α} {f : α → β} {e : ε} :
    x.map f = .error e ↔ x = .error e := by
  cases x <;> simp [Except.map]

theorem mapError_ok_iff {ε ε' α : Type} {x : Except ε α} {f : ε → ε'} {a : α} :
    x.mapError f = .ok a ↔ x = .ok a := by
  cases x with
  | error e => exact iff_of_false nofun nofun
  | ok b => constructor <;> exact fun same => congrArg Except.ok (Except.ok.inj same)

theorem toOption_eq_some_iff {ε α : Type} {x : Except ε α} {a : α} :
    x.toOption = some a ↔ x = .ok a := by
  cases x <;> simp [Except.toOption]

namespace Customiser

open Grammar (Ty)

variable {c : Customiser} {o : Override} {p q : Property}

/-- A change is its steps, each of which may fail. -/
theorem change_ok_iff : c.change o p = .ok q ↔
    ∃ p₁, c.changeSetter o (changeGetter o p) = .ok p₁ ∧
      ∃ p₂, c.changeExtractor o p₁ = .ok p₂ ∧
      ∃ p₃, c.changeConverter o p₂ = .ok p₃ ∧
      ∃ p₄, c.changeView o p₃ = .ok p₄ ∧ c.changeName o (changeComment o p₄) = .ok q := by
  simp only [change, bind_ok_iff]

theorem changeGetter_cases (o : Override) (p : Property) :
    changeGetter o p = p ∨ ∃ access, changeGetter o p = p.withGetter access := by
  unfold changeGetter
  cases o.getter with
  | none => exact Or.inl rfl
  | some access => exact Or.inr ⟨access, rfl⟩

theorem changeSetter_cases (h : c.changeSetter o p = .ok q) :
    q = p ∨ ∃ access, q = p.withSetter access := by
  unfold changeSetter at h
  split at h
  · exact Or.inl (Except.ok.inj h).symm
  · split at h
    · cases h
    · exact Or.inr ⟨_, (Except.ok.inj h).symm⟩

theorem changeExtractor_cases (h : c.changeExtractor o p = .ok q) :
    o.extractor = none ∧ q = p ∨
      ∃ s, o.extractor = some s ∧ q = p.withExtractor (.function s) := by
  unfold changeExtractor at h
  split at h
  · rename_i none
    exact Or.inl ⟨none, (Except.ok.inj h).symm⟩
  · rename_i s some
    obtain ⟨_, _, h⟩ := bind_ok_iff.1 h
    exact Or.inr ⟨s, some, (Except.ok.inj h).symm⟩

/-- A converter is bound to the type that the property has so far, and only where no function was
given. -/
theorem changeConverter_cases (h : c.changeConverter o p = .ok q) :
    o.converter = none ∧ q = p ∨
      ∃ k, o.converter.isSome ∧ p.explicit = none ∧ k.input = p.ty ∧
        q = (p.withConverter k).withType k.output none := by
  unfold changeConverter at h
  split at h
  · rename_i none
    exact Or.inl ⟨none, (Except.ok.inj h).symm⟩
  · rename_i choice some
    split at h
    · cases h
    · rename_i read
      refine Or.inr ⟨_, by rw [some]; rfl, by simpa using read, rfl, (Except.ok.inj h).symm⟩

/-- A property is projected only where no function was given. -/
theorem changeView_cases (h : c.changeView o p = .ok q) :
    o.view = none ∧ q = p ∨
      ∃ view ty, o.view = some view ∧ p.explicit = none ∧ Ty.ofName view c.scope = .ok ty ∧
        q = p.withType ty (some view) := by
  unfold changeView at h
  split at h
  · rename_i none
    exact Or.inl ⟨none, (Except.ok.inj h).symm⟩
  · rename_i view some
    split at h
    · cases h
    · rename_i read
      split at h
      · rename_i ty named
        exact Or.inr ⟨view, ty, some, by simpa using read, named, (Except.ok.inj h).symm⟩
      · cases h

theorem changeComment_cases (o : Override) (p : Property) :
    changeComment o p = p ∨ ∃ comment, changeComment o p = p.withComment comment := by
  unfold changeComment
  split
  · exact Or.inr ⟨_, rfl⟩
  · exact Or.inl rfl

theorem changeName_cases (h : c.changeName o p = .ok q) :
    o.rename = none ∧ q = p ∨ ∃ name, o.rename = some name ∧ q = p.withName name := by
  unfold changeName at h
  split at h
  · rename_i none
    exact Or.inl ⟨none, (Except.ok.inj h).symm⟩
  · rename_i name some
    obtain ⟨_, _, h⟩ := bind_ok_iff.1 h
    exact Or.inr ⟨name, some, (Except.ok.inj h).symm⟩

theorem changeGetter_keeps (o : Override) (p : Property) :
    (changeGetter o p).source = p.source ∧ (changeGetter o p).name = p.name := by
  rcases changeGetter_cases o p with e | ⟨_, e⟩ <;> rw [e] <;> exact ⟨rfl, rfl⟩

theorem changeSetter_keeps (h : c.changeSetter o p = .ok q) :
    q.source = p.source ∧ q.name = p.name := by
  rcases changeSetter_cases h with rfl | ⟨_, rfl⟩ <;> exact ⟨rfl, rfl⟩

theorem changeExtractor_keeps (h : c.changeExtractor o p = .ok q) :
    q.source = p.source ∧ q.name = p.name := by
  rcases changeExtractor_cases h with ⟨_, rfl⟩ | ⟨_, _, rfl⟩ <;> exact ⟨rfl, rfl⟩

theorem changeConverter_keeps (h : c.changeConverter o p = .ok q) :
    q.source = p.source ∧ q.name = p.name := by
  rcases changeConverter_cases h with ⟨_, rfl⟩ | ⟨_, _, _, _, rfl⟩ <;> exact ⟨rfl, rfl⟩

theorem changeView_keeps (h : c.changeView o p = .ok q) :
    q.source = p.source ∧ q.name = p.name := by
  rcases changeView_cases h with ⟨_, rfl⟩ | ⟨_, _, _, _, _, rfl⟩ <;> exact ⟨rfl, rfl⟩

theorem changeComment_keeps (o : Override) (p : Property) :
    (changeComment o p).source = p.source ∧ (changeComment o p).name = p.name := by
  rcases changeComment_cases o p with e | ⟨_, e⟩ <;> rw [e] <;> exact ⟨rfl, rfl⟩

theorem changeName_keeps (h : c.changeName o p = .ok q) :
    q.source = p.source ∧ q.name = o.rename.getD p.name := by
  rcases changeName_cases h with ⟨none, rfl⟩ | ⟨_, some, rfl⟩
  · exact ⟨rfl, by rw [none]; rfl⟩
  · exact ⟨rfl, by rw [some]; rfl⟩

/-- A changed property still comes from its member, and has another name only if the change gives it
one. -/
theorem change_keeps (h : c.change o p = .ok q) :
    q.source = p.source ∧ q.name = o.rename.getD p.name := by
  obtain ⟨p₁, h₁, p₂, h₂, p₃, h₃, p₄, h₄, h⟩ := change_ok_iff.1 h
  obtain ⟨source, name⟩ := changeName_keeps h
  -- no step before the last touches the source or the name
  have kept : (changeComment o p₄).source = p.source ∧ (changeComment o p₄).name = p.name := by
    rw [(changeComment_keeps o p₄).1, (changeView_keeps h₄).1, (changeConverter_keeps h₃).1,
      (changeExtractor_keeps h₂).1, (changeSetter_keeps h₁).1, (changeComment_keeps o p₄).2,
      (changeView_keeps h₄).2, (changeConverter_keeps h₃).2, (changeExtractor_keeps h₂).2,
      (changeSetter_keeps h₁).2]
    exact changeGetter_keeps o p
  exact ⟨source.trans kept.1, name.trans (by rw [kept.2])⟩

/-- An addition is computed by its function. -/
theorem newProperty_ok {a : Addition} (h : c.newProperty a = .ok p) :
    p = Property.computed a.name a.function (a.getter.getD c.getters) := by
  unfold newProperty at h
  obtain ⟨_, _, h⟩ := bind_ok_iff.1 h
  split at h
  · cases h
  · obtain ⟨_, _, h⟩ := bind_ok_iff.1 h
    exact (Except.ok.inj h).symm

/-- The message of a change or an addition that cannot be made. -/
def complaint? {α : Type} (e : Except Failure α) : Option String :=
  match e with
  | .ok _ => none
  | .error f => some f.message

/-- A change goes to the first property of its name and to no other; if it cannot be made, this
property goes and leaves a message. -/
theorem applyOverride_eq (c : Customiser) (s : Customised) (o : Override) :
    (c.applyOverride s o).properties =
        editFirst (·.name == o.name) (fun p => (c.change o p).toOption) s.properties ∧
      (c.applyOverride s o).errors = s.errors ++
        ((s.properties.find? (·.name == o.name)).bind fun p => complaint? (c.change o p)).toList := by
  unfold applyOverride
  cases hi : s.properties.findIdx? (·.name == o.name) with
  | none =>
    have hfind : s.properties.find? (·.name == o.name) = none := by
      rw [List.find?_eq_none]
      intro p hp
      simp [List.findIdx?_eq_none_iff.1 hi p hp]
    rw [editFirst_of_findIdx?_none hi, hfind]
    dsimp only
    split <;> exact ⟨rfl, (List.append_nil _).symm⟩
  | some i =>
    obtain ⟨p, hget, hfind, hset, herase⟩ :=
      editFirst_of_findIdx?_some (f := fun p => (c.change o p).toOption) hi
    rw [hfind]
    dsimp only
    rw [hget]
    dsimp only [Option.bind_some]
    cases h : c.change o p with
    | ok q => exact ⟨(hset q (by rw [h]; rfl)).symm, (List.append_nil _).symm⟩
    | error f => exact ⟨(herase (by rw [h]; rfl)).symm, rfl⟩

theorem applyAddition_eq (c : Customiser) (s : Customised) (a : Addition) :
    (c.applyAddition s a).properties = s.properties ++ (c.newProperty a).toOption.toList ∧
      (c.applyAddition s a).errors = s.errors ++ (complaint? (c.newProperty a)).toList := by
  unfold applyAddition
  cases c.newProperty a with
  | ok p => exact ⟨rfl, (List.append_nil _).symm⟩
  | error f => exact ⟨(List.append_nil _).symm, rfl⟩

theorem foldl_applyAddition (c : Customiser) (as : List Addition) (s : Customised) :
    (as.foldl c.applyAddition s).properties =
        s.properties ++ as.filterMap (fun a => (c.newProperty a).toOption) ∧
      (as.foldl c.applyAddition s).errors =
        s.errors ++ as.filterMap (fun a => complaint? (c.newProperty a)) := by
  induction as generalizing s with
  | nil => simp
  | cons a rest ih =>
    obtain ⟨properties, errors⟩ := applyAddition_eq c s a
    rw [List.foldl_cons, (ih _).1, (ih _).2, properties, errors]
    rw [List.filterMap_cons, List.filterMap_cons]
    cases c.newProperty a <;> simp [complaint?, Except.toOption]

end Customiser

end RecordViews
