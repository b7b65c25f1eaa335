import RecordViews.Proofs.Customising
import RecordViews.Proofs.Spelling

/-! A property that is dropped. It leaves one message, and what comes after goes on as if the
property had never been there: the changes and additions of a bearer are made twice here, once with
the property and once without it, and the two runs stay beside each other. -/

namespace RecordViews

/-- The second list has one element more. -/
def OneMore {α : Type} (a : α) (l l' : List α) : Prop :=
  ∃ front back, l = front ++ back ∧ l' = front ++ a :: back

namespace OneMore

variable {α : Type} {a : α} {l l' : List α}

theorem concat (l : List α) (a : α) : OneMore a l (l ++ [a]) :=
  ⟨l, [], (List.append_nil l).symm, rfl⟩

theorem append (h : OneMore a l l') (more : List α) : OneMore a (l ++ more) (l' ++ more) := by
  obtain ⟨front, back, rfl, rfl⟩ := h
  exact ⟨front, back ++ more, by simp, by simp⟩

/-- The one more is before or behind an element that both lists have, whatever takes its place. -/
theorem around {front back : List α} {b : α} (h : OneMore a (front ++ b :: back) l') :
    ∃ front' back', l' = front' ++ b :: back' ∧ (∀ x ∈ front', x ∈ front ∨ x = a) ∧
      ∀ mid, OneMore a (front ++ (mid ++ back)) (front' ++ (mid ++ back')) := by
  obtain ⟨l, rest, split, rfl⟩ := h
  rcases List.append_eq_append_iff.1 split with ⟨more, rfl, tail⟩ | ⟨more, rfl, rfl⟩
  · cases more with
    | nil =>
      obtain rfl : b :: back = rest := tail
      refine ⟨front ++ [a], back, by simp, ?_, fun mid => ⟨front, mid ++ back, rfl, by simp⟩⟩
      simp
    | cons b' more =>
      obtain ⟨rfl, rfl⟩ := List.cons.inj tail
      exact ⟨front, more ++ a :: rest, by simp, fun x hx => Or.inl hx,
        fun mid => ⟨front ++ mid ++ more, rest, by simp, by simp⟩⟩
  · refine ⟨l ++ a :: more, back, by simp, ?_,
      fun mid => ⟨l, more ++ (mid ++ back), by simp, by simp⟩⟩
    intro x hx
    rcases List.mem_append.1 hx with hx | hx
    · exact Or.inl (List.mem_append_left _ hx)
    · rcases List.mem_cons.1 hx with rfl | hx
      · exact Or.inr rfl
      · exact Or.inl (List.mem_append_right _ hx)

end OneMore

/-- Either nothing in a list is hit, or there is a first element that is. -/
theorem exists_first {α : Type} (hit : α → Bool) (l : List α) :
    (∀ a ∈ l, hit a = false) ∨
      ∃ front a back, l = front ++ a :: back ∧ hit a = true ∧ ∀ b ∈ front, hit b = false := by
  cases found : l.find? hit with
  | none => exact Or.inl (by simpa using found)
  | some a =>
    obtain ⟨ha, front, back, split, before⟩ := List.find?_eq_some_iff_append.1 found
    exact Or.inr ⟨front, a, back, split, ha, by simpa using before⟩

namespace Customiser

variable {c : Customiser} {o : Override} {s t : Customised} {p q : Property}
  {l rest : List Property} {n message : String}

def made (c : Customiser) (o : Override) (s : Customised) (l : List Property) (p : Property)
    (rest : List Property) : Customised :=
  match c.change o p with
  | .ok q => { s with properties := l ++ q :: rest }
  | .error f => c.drop { s with properties := l ++ rest } f

def missed (c : Customiser) (o : Override) (s : Customised) : Customised :=
  if (c.source.member? o.name).isSome then s
  else
    { s with
      diagnostics := s.diagnostics ++ [.warning c.config c.target (c.missingMessage o.name)] }

theorem applyOverride_missed (h : ∀ p ∈ s.properties, p.name ≠ o.name) :
    c.applyOverride s o = c.missed o s := by
  have none : s.properties.findIdx? (·.name == o.name) = none := by
    rw [List.findIdx?_eq_none_iff]
    simpa using h
  rw [applyOverride, none]
  rfl

theorem applyOverride_made (h : s.properties = l ++ p :: rest) (named : p.name = o.name)
    (front : ∀ q ∈ l, q.name ≠ o.name) : c.applyOverride s o = c.made o s l p rest := by
  have found : s.properties.findIdx? (·.name == o.name) = some l.length := by
    rw [h, List.findIdx?_append, List.findIdx?_eq_none_iff.2 (by simpa using front)]
    simp [List.findIdx?_cons, named]
  have here : s.properties[l.length]? = some p := by simp [h]
  rw [applyOverride, found]
  dsimp only
  rw [here, made]
  dsimp only
  cases c.change o p with
  | ok q => simp [h]
  | error f => simp [h, List.eraseIdx_append_of_length_le]

theorem checkName_ok_iff : c.checkName n = .ok () ↔ ∃ i, identifier n = .ok i := by
  unfold checkName checkIdentifier
  cases identifier n with
  | ok i => simp
  | error f => cases f <;> simp

theorem checkName_bad (bad : identifier n = .error (.invalid n)) :
    c.checkName n = c.fault (.propertyName n) := by
  unfold checkName checkIdentifier
  rw [bad]
  rfl

/-- A change that gives a new name gives one that can be written. -/
theorem identifier_of_renamed (h : c.change o p = .ok q) (renames : o.rename = some n) :
    ∃ i, identifier n = .ok i := by
  obtain ⟨_, -, _, -, _, -, _, -, h⟩ := change_ok_iff.1 h
  rw [changeName, renames] at h
  obtain ⟨_, checked, -⟩ := bind_ok_iff.1 h
  exact checkName_ok_iff.1 checked

theorem change_refused (c : Customiser) (p : Property) (renames : o.rename = some n)
    (bad : identifier n = .error (.invalid n)) : ∃ f, c.change o p = .error f := by
  cases change : c.change o p with
  | ok q =>
    obtain ⟨i, word⟩ := identifier_of_renamed change renames
    rw [bad] at word
    cases word
  | error f => exact ⟨f, rfl⟩

/-- Whatever property the change reaches is dropped, and nothing else. -/
def Discards (c : Customiser) (o : Override) : Prop :=
  ∀ s : Customised, (∀ p ∈ s.properties, p.name ≠ o.name) ∨
    ∃ l p rest f, s.properties = l ++ p :: rest ∧ p.name = o.name ∧
      c.applyOverride s o = c.drop { s with properties := l ++ rest } f

theorem discards_of_renamed (renames : o.rename = some n)
    (bad : identifier n = .error (.invalid n)) : c.Discards o := by
  intro s
  rcases exists_first (·.name == o.name) s.properties with none | ⟨l, p, rest, split, hit, front⟩
  · exact Or.inl (by simpa using none)
  · have named : p.name = o.name := by simpa using hit
    have front : ∀ q ∈ l, q.name ≠ o.name := by simpa using front
    obtain ⟨f, refused⟩ := c.change_refused p renames bad
    refine Or.inr ⟨l, p, rest, f, split, named, ?_⟩
    rw [applyOverride_made split named front, made, refused]

/-- So does an addition. -/
theorem identifier_of_new {a : Addition} (h : c.newProperty a = .ok p) :
    ∃ i, identifier a.name = .ok i := by
  obtain ⟨_, checked, -⟩ := bind_ok_iff.1 h
  exact checkName_ok_iff.1 checked

theorem newProperty_bad {a : Addition} (bad : identifier a.name = .error (.invalid a.name)) :
    c.newProperty a = .error (.configuration c.target (.propertyName a.name)) := by
  rw [newProperty, checkName_bad bad]
  rfl

theorem aborted_of_drop {f : Failure} (h : (c.drop s f).aborted = none) :
    s.aborted = none ∧ f.abort? = none :=
  Option.or_eq_none_iff.1 h

theorem aborted_of_applyOverride (h : (c.applyOverride s o).aborted = none) : s.aborted = none := by
  unfold applyOverride at h
  split at h
  · split at h <;> exact h
  · split at h
    · exact h
    · split at h
      · exact h
      · exact (aborted_of_drop h).1

theorem aborted_of_applyAddition {a : Addition} (h : (c.applyAddition s a).aborted = none) :
    s.aborted = none := by
  unfold applyAddition at h
  split at h
  · exact h
  · exact (aborted_of_drop h).1

theorem aborted_of_foldl {α : Type} {step : Customised → α → Customised}
    (kept : ∀ {s a}, (step s a).aborted = none → s.aborted = none) {as : List α}
    (h : (as.foldl step s).aborted = none) : s.aborted = none := by
  induction as generalizing s with
  | nil => exact h
  | cons a rest ih => exact kept (ih h)

/-- The second state is the first, where one more property was dropped. -/
structure DropsOne (c : Customiser) (message : String) (s t : Customised) : Prop where
  properties : t.properties = s.properties
  diagnostics : OneMore (.error c.config c.target message) s.diagnostics t.diagnostics
  errors : OneMore message s.errors t.errors
  aborted : t.aborted = s.aborted

namespace DropsOne

theorem drop (c : Customiser) (s : Customised) {f : Failure} (single : f.abort? = none) :
    c.DropsOne f.message s (c.drop s f) :=
  ⟨rfl, .concat _ _, .concat _ _, by rw [Customiser.drop, single, Option.or_none]⟩

theorem both (h : c.DropsOne message s t) (f : Failure) :
    c.DropsOne message (c.drop s f) (c.drop t f) :=
  ⟨h.properties, h.diagnostics.append _, h.errors.append _, congrArg (·.or f.abort?) h.aborted⟩

theorem applyOverride (h : c.DropsOne message s t) (o : Override) :
    c.DropsOne message (c.applyOverride s o) (c.applyOverride t o) := by
  rcases exists_first (·.name == o.name) s.properties with none | ⟨l, p, rest, split, named, front⟩
  · have none : ∀ p ∈ s.properties, p.name ≠ o.name := by simpa using none
    rw [applyOverride_missed none, applyOverride_missed (by rw [h.properties]; exact none)]
    unfold missed
    by_cases known : (c.source.member? o.name).isSome = true
    · rw [if_pos known, if_pos known]
      exact h
    · rw [if_neg known, if_neg known]
      exact ⟨h.properties, h.diagnostics.append _, h.errors, h.aborted⟩
  · have named : p.name = o.name := by simpa using named
    have front : ∀ q ∈ l, q.name ≠ o.name := by simpa using front
    rw [applyOverride_made split named front,
      applyOverride_made (h.properties.trans split) named front]
    unfold made
    cases c.change o p with
    | ok q => exact ⟨rfl, h.diagnostics, h.errors, h.aborted⟩
    | error f =>
      exact ⟨rfl, h.diagnostics.append _, h.errors.append _, congrArg (·.or f.abort?) h.aborted⟩

theorem applyAddition (h : c.DropsOne message s t) (a : Addition) :
    c.DropsOne message (c.applyAddition s a) (c.applyAddition t a) := by
  unfold Customiser.applyAddition
  cases c.newProperty a with
  | ok p => exact ⟨congrArg (· ++ [p]) h.properties, h.diagnostics, h.errors, h.aborted⟩
  | error f => exact h.both f

theorem foldl {α : Type} {step : Customised → α → Customised}
    (kept : ∀ {s t}, c.DropsOne message s t → ∀ a, c.DropsOne message (step s a) (step t a))
    (h : c.DropsOne message s t) (as : List α) :
    c.DropsOne message (as.foldl step s) (as.foldl step t) := by
  induction as generalizing s t with
  | nil => exact h
  | cons a rest ih => exact ih (kept h a)

end DropsOne

/-- An addition whose name cannot be written is dropped, and nothing else. -/
theorem apply_addition_dropped (c : Customiser) (b : Bearer) (ps : List Property)
    {front back : List Addition} {a : Addition} (bad : identifier a.name = .error (.invalid a.name)) :
    c.DropsOne (Failure.configuration c.target (.propertyName a.name)).message
      (c.apply { b with additions := front ++ back } ps)
      (c.apply { b with additions := front ++ a :: back } ps) := by
  have step (s : Customised) : c.DropsOne
      (Failure.configuration c.target (.propertyName a.name)).message s (c.applyAddition s a) := by
    have dropped : c.applyAddition s a =
        c.drop s (.configuration c.target (.propertyName a.name)) := by
      unfold applyAddition
      rw [newProperty_bad bad]
    rw [dropped]
    exact DropsOne.drop c s rfl
  rw [apply, apply, List.foldl_append, List.foldl_append, List.foldl_cons]
  exact DropsOne.foldl DropsOne.applyAddition (step _) back

/-- The second state is the first with one more property, the only one of this name. -/
structure Beside (n : String) (s t : Customised) : Prop where
  properties : ∃ p, OneMore p s.properties t.properties ∧ p.name = n
  others : ∀ q ∈ s.properties, q.name ≠ n
  diagnostics : t.diagnostics = s.diagnostics
  errors : t.errors = s.errors
  aborted : t.aborted = s.aborted

namespace Beside

/-- A change to the one property. The other run does not find it, and says nothing of it since there
is a member of this name. -/
theorem own (h : Beside o.name s t) (known : (c.source.member? o.name).isSome = true) :
    c.applyOverride s o = s ∧ ∃ p, p.name = o.name ∧
      (∀ q, c.change o p = .ok q → q.name = o.name → Beside o.name s (c.applyOverride t o)) ∧
      ∀ f, c.change o p = .error f → (c.applyOverride t o).aborted = none →
        c.DropsOne f.message s (c.applyOverride t o) := by
  obtain ⟨⟨p, ⟨l, rest, without, with_⟩, named⟩, others, diagnostics, errors, aborted⟩ := h
  have front : ∀ q ∈ l, q.name ≠ o.name := by
    intro q hq
    exact others q (by rw [without]; exact List.mem_append_left _ hq)
  refine ⟨?_, p, named, fun q changed kept => ?_, fun f refused goes => ?_⟩
  · rw [applyOverride_missed others, missed, if_pos known]
  · rw [applyOverride_made with_ named front, made, changed]
    exact ⟨⟨q, ⟨l, rest, without, rfl⟩, kept⟩, others, diagnostics, errors, aborted⟩
  · have dropped : c.applyOverride t o = c.drop { t with properties := l ++ rest } f := by
      rw [applyOverride_made with_ named front, made, refused]
    rw [dropped] at goes ⊢
    obtain ⟨goes, single⟩ := aborted_of_drop goes
    refine ⟨without.symm, ?_, ?_, ?_⟩
    · rw [← diagnostics]
      exact .concat _ _
    · rw [← errors]
      exact .concat _ _
    · rw [drop, single, Option.or_none]
      exact aborted

/-- A change to another property, which does not get the name, is made in both. -/
theorem other (h : Beside n s t) (ne : o.name ≠ n) (keeps : o.rename ≠ some n) :
    Beside n (c.applyOverride s o) (c.applyOverride t o) := by
  obtain ⟨⟨p, more, named⟩, others, diagnostics, errors, aborted⟩ := h
  rcases exists_first (·.name == o.name) s.properties with none | ⟨l, q, rest, split, hit, front⟩
  · have none : ∀ q ∈ s.properties, q.name ≠ o.name := by simpa using none
    have none' : ∀ q ∈ t.properties, q.name ≠ o.name := by
      obtain ⟨l, rest, without, with_⟩ := more
      intro q hq
      rw [with_, List.mem_append, List.mem_cons] at hq
      rcases hq with hq | rfl | hq
      · exact none q (by rw [without]; exact List.mem_append_left _ hq)
      · exact fun same => ne (same.symm.trans named)
      · exact none q (by rw [without]; exact List.mem_append_right _ hq)
    rw [applyOverride_missed none, applyOverride_missed none', missed, missed]
    split
    · exact ⟨⟨p, more, named⟩, others, diagnostics, errors, aborted⟩
    · exact ⟨⟨p, more, named⟩, others, congrArg (· ++ _) diagnostics, errors, aborted⟩
  · have hit : q.name = o.name := by simpa using hit
    have front : ∀ x ∈ l, x.name ≠ o.name := by simpa using front
    rw [split] at more others
    obtain ⟨l', rest', split', inside, around⟩ := more.around
    have front' : ∀ x ∈ l', x.name ≠ o.name := by
      intro x hx
      rcases inside x hx with hx | rfl
      · exact front x hx
      · exact fun same => ne (same.symm.trans named)
    rw [applyOverride_made split hit front, applyOverride_made split' hit front', made, made]
    have others : ∀ x ∈ l ++ rest, x.name ≠ n := by
      intro x hx
      refine others x ?_
      rw [List.mem_append] at hx ⊢
      exact hx.imp_right (List.mem_cons_of_mem q)
    cases changed : c.change o q with
    | ok q' =>
      have free : q'.name ≠ n := by
        rw [(change_keeps changed).2]
        cases renames : o.rename with
        | none => exact fun same => ne (hit.symm.trans same)
        | some name => exact fun same => keeps (renames.trans (congrArg some same))
      refine ⟨⟨p, around [q'], named⟩, fun x hx => ?_, diagnostics, errors, aborted⟩
      rcases List.mem_append.1 hx with hx | hx
      · exact others x (List.mem_append_left _ hx)
      · rcases List.mem_cons.1 hx with rfl | hx
        · exact free
        · exact others x (List.mem_append_right _ hx)
    | error f =>
      exact ⟨⟨p, around [], named⟩, others, congrArg (· ++ _) diagnostics,
        congrArg (· ++ _) errors, congrArg (·.or f.abort?) aborted⟩

/-- Changes that give no property the name, and do not rename the one that has it, leave it beside
the others, unless one of them drops it. -/
theorem foldl (h : Beside n s t) (known : (c.source.member? n).isSome = true) {os : List Override}
    (free : ∀ o ∈ os, o.rename ≠ some n ∧ (o.name = n → o.rename = none))
    (goes : (os.foldl c.applyOverride t).aborted = none) :
    Beside n (os.foldl c.applyOverride s) (os.foldl c.applyOverride t) ∨
      ∃ message, c.DropsOne message (os.foldl c.applyOverride s) (os.foldl c.applyOverride t) := by
  induction os generalizing s t with
  | nil => exact Or.inl h
  | cons o rest ih =>
    obtain ⟨⟨keeps, plain⟩, free⟩ := List.forall_mem_cons.1 free
    rw [List.foldl_cons] at goes
    rw [List.foldl_cons, List.foldl_cons]
    by_cases here : o.name = n
    · subst here
      obtain ⟨same, p, named, changed, refused⟩ := h.own known
      rw [same]
      cases change : c.change o p with
      | ok q =>
        have kept : q.name = o.name := by
          rw [(change_keeps change).2, plain rfl]
          exact named
        exact ih (changed q change kept) free goes
      | error f =>
        have dropped := refused f change (aborted_of_foldl aborted_of_applyOverride goes)
        exact Or.inr ⟨f.message, dropped.foldl DropsOne.applyOverride rest⟩
    · exact ih (h.other here keeps) free goes

end Beside

/-- Let a change give a property a name that cannot be written, and let no change before it give
some property the name of the member, or another name to the member's own property. Then this
property is dropped, and nothing else, unless a change ends the run. -/
theorem apply_rename_dropped (c : Customiser) {b : Bearer} {front back : List Override}
    {o : Override} {name : String} {l rest : List Property} {p : Property}
    (overrides : b.overrides = front ++ o :: back) (renames : o.rename = some name)
    (bad : identifier name = .error (.invalid name))
    (free : ∀ d ∈ front, d.rename ≠ some o.name ∧ (d.name = o.name → d.rename = none))
    (known : (c.source.member? o.name).isSome = true) (named : p.name = o.name)
    (others : ∀ q ∈ l ++ rest, q.name ≠ o.name)
    (goes : (c.apply b (l ++ p :: rest)).aborted = none) :
    ∃ message, c.DropsOne message (c.apply b (l ++ rest)) (c.apply b (l ++ p :: rest)) := by
  have start : Beside o.name { properties := l ++ rest } { properties := l ++ p :: rest } :=
    ⟨⟨p, ⟨l, rest, rfl, rfl⟩, named⟩, others, rfl, rfl, rfl⟩
  rw [apply, overrides, List.foldl_append, List.foldl_cons] at goes
  replace goes := aborted_of_foldl aborted_of_applyOverride
    (aborted_of_foldl aborted_of_applyAddition goes)
  have turn : ∃ message, c.DropsOne message
      (c.applyOverride (front.foldl c.applyOverride { properties := l ++ rest }) o)
      (c.applyOverride (front.foldl c.applyOverride { properties := l ++ p :: rest }) o) := by
    rcases start.foldl known free (aborted_of_applyOverride goes) with beside | ⟨message, dropped⟩
    · obtain ⟨same, p', -, -, refused⟩ := beside.own known
      obtain ⟨f, change⟩ := c.change_refused p' renames bad
      rw [same]
      exact ⟨f.message, refused f change goes⟩
    · exact ⟨message, dropped.applyOverride o⟩
  obtain ⟨message, dropped⟩ := turn
  refine ⟨message, ?_⟩
  rw [apply, apply, overrides, List.foldl_append, List.foldl_append, List.foldl_cons,
    List.foldl_cons]
  exact (dropped.foldl DropsOne.applyOverride back).foldl DropsOne.applyAddition b.additions

end Customiser

end RecordViews
