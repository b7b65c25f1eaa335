import RecordViews.Proofs.RelocatedUnits
import RecordViews.Proofs.UnwritableNames

/-! What a request comes to in another module. The properties, the view and the record move with the
records they are about; messages quote names of the module, so they have other texts there, but as
many of them come up. -/

namespace RecordViews

open Grammar (Ty Path)

variable {S T : Scope}

/-- Both fail, and their failures are related, or both give something, and what they give is. -/
inductive Together {α β ε ε' : Type} (fails : ε → ε' → Prop) (rel : α → β → Prop) :
    Except ε α → Except ε' β → Prop
  | fail {f : ε} {f' : ε'} (h : fails f f') : Together fails rel (.error f) (.error f')
  | give {a : α} {b : β} (h : rel a b) : Together fails rel (.ok a) (.ok b)

namespace Together

variable {α β γ δ ε : Type} {fails : ε → ε → Prop} {rel : α → β → Prop} {rel' : γ → δ → Prop}

theorem bind {x : Except ε α} {y : Except ε β} {f : α → Except ε γ} {g : β → Except ε δ}
    (h : Together fails rel x y) (next : ∀ a b, rel a b → Together fails rel' (f a) (g b)) :
    Together fails rel' (x >>= f) (y >>= g) := by
  cases h with
  | fail h => exact .fail h
  | give h => exact next _ _ h

/-- What is known of the first result may be used. -/
theorem and_left {x : Except ε α} {y : Except ε β} {p : α → Prop} (h : Together fails rel x y)
    (known : ∀ a, x = .ok a → p a) : Together fails (fun a b => p a ∧ rel a b) x y := by
  cases h with
  | fail h => exact .fail h
  | give h => exact .give ⟨known _ rfl, h⟩

theorem map {x : Except ε α} {y : Except ε β} {f : α → γ} {g : β → δ} (h : Together fails rel x y)
    (next : ∀ a b, rel a b → rel' (f a) (g b)) : Together fails rel' (x.map f) (y.map g) := by
  cases h with
  | fail h => exact .fail h
  | give h => exact .give (next _ _ h)

theorem ite {c c' : Prop} [Decidable c] [Decidable c'] {x x' : Except ε α} {y y' : Except ε β}
    (same : c ↔ c') (h : Together fails rel x y) (h' : Together fails rel x' y') :
    Together fails rel (if c then x else x') (if c' then y else y') := by
  by_cases there : c
  · rwa [if_pos there, if_pos (same.1 there)]
  · rwa [if_neg there, if_neg (mt same.2 there)]

theorem refl (own : ∀ f, fails f f) {x : Except ε α} : Together fails Eq x x := by
  cases x with
  | error f => exact .fail (own f)
  | ok a => exact .give rfl

theorem mapM {f : α → Except ε γ} {f' : β → Except ε γ} {g : α → β} {l : List α}
    (h : ∀ a ∈ l, Together fails Eq (f a) (f' (g a))) :
    Together fails Eq (l.mapM f) ((l.map g).mapM f') := by
  induction l with
  | nil => exact .give rfl
  | cons a rest ih =>
    obtain ⟨first, later⟩ := List.forall_mem_cons.1 h
    rw [List.map_cons, List.mapM_cons, List.mapM_cons]
    exact first.bind fun b _ same => (ih later).bind fun bs _ same' => .give (by rw [same, same'])

end Together

/-- Both failures end the round, with one text, or neither does. -/
def Failure.Alike (f f' : Failure) : Prop :=
  f'.abort? = f.abort?

theorem Failure.Alike.refl (f : Failure) : f.Alike f := rfl

theorem checkIdentifier_together (name : String) {f f' : Failure} (same : f.Alike f') :
    Together Failure.Alike Eq (checkIdentifier name f) (checkIdentifier name f') := by
  unfold checkIdentifier
  split
  · exact .give rfl
  · exact .fail same
  · exact .fail rfl

def Extractor.relocate (e : Extractor) (T : Scope) : Extractor :=
  match e with
  | .direct d => .direct d
  | .function s => .function (s.relocate T)

def Property.relocate (p : Property) (T : Scope) : Property :=
  { p with view := p.view.map (·.relocate T), explicit := p.explicit.map (·.relocate T) }

def Customiser.relocate (c : Customiser) (T : Scope) : Customiser :=
  { c with target := c.target.relocate T, source := c.source.relocate T,
           config := c.config.relocate T, scope := T }

/-- A record of the module is named there by its simple name. -/
theorem TypeName.pathFrom_relocate {n : TypeName} (hn : n.relocate S = n) (T : Scope) :
    (n.relocate T).pathFrom T = n.pathFrom S := by
  have here (m : TypeName) : (m.relocate T).segmentsFrom T = [m.simple] := if_pos rfl
  have there : n.segmentsFrom S = [n.simple] := if_pos (relocate_eq_self_iff.1 hn)
  rw [pathFrom, pathFrom, here, there]

theorem Grammar.Ty.isSharedRefTo_relocate {t : Ty} (h : t.isLocal = true) {n : TypeName}
    (hn : n.relocate S = n) (T : Scope) :
    t.isSharedRefTo (n.relocate T) T = t.isSharedRefTo n S := by
  unfold isSharedRefTo
  split
  · rename_i p
    rw [TypeName.resolve?_relocate h S T]
    cases resolved : TypeName.resolve? S p with
    | none => rfl
    | some m =>
      have hm : m.relocate S = m := by
        have back := TypeName.resolve?_relocate h S S
        rw [resolved] at back
        exact (Option.some.inj back).symm
      exact TypeName.relocate_beq hm hn
  · rfl

theorem Extractor.checkFunction_relocate {s : Signature} (hs : s.relocate S = s)
    (isLocal : s.isLocal = true) {n : TypeName} (hn : n.relocate S = n) (T : Scope)
    (expected : Option Ty) :
    checkFunction (s.relocate T) (n.relocate T) expected = checkFunction s n expected := by
  have module : s.container.module = S :=
    TypeName.relocate_eq_self_iff.1 (congrArg Signature.container hs)
  have there : (s.container.relocate T).module = T := rfl
  have refs : ∀ t ∈ s.params, t.isSharedRefTo (n.relocate T) T = t.isSharedRefTo n S :=
    fun t ht => Ty.isSharedRefTo_relocate (List.all_eq_true.1 isLocal t ht) hn T
  unfold checkFunction
  simp only [Signature.relocate, module, there, TypeName.relocate_simple]
  match h : s.params with
  | [] => rfl
  | [param] =>
    have ref := refs param (h ▸ List.mem_cons_self)
    simp only [ref]
  | _ :: _ :: _ => rfl

namespace Customiser

variable {c : Customiser} {o : Override} {p : Property}

theorem explicit_relocate : (p.relocate T).explicit.isSome = true ↔ p.explicit.isSome = true := by
  rw [Property.relocate, Option.isSome_map]

/-- What a change or an addition is about is in the module `S`. -/
structure In (c : Customiser) (S : Scope) : Prop where
  target : c.target.relocate S = c.target
  scope : c.scope = S

theorem changeSetter_together (c : Customiser) (o : Override) (p : Property) (T : Scope) :
    Together Failure.Alike (fun q q' => q' = q.relocate T) (c.changeSetter o p)
      ((c.relocate T).changeSetter (o.relocate T) (p.relocate T)) := by
  unfold changeSetter
  dsimp only [Override.relocate]
  split
  · exact .give rfl
  · exact .ite Iff.rfl (.fail rfl) (.give rfl)

theorem changeExtractor_together (inside : c.In S) (ho : o.relocate S = o)
    (isLocal : o.extractor.all Signature.isLocal = true) (p : Property) (T : Scope) :
    Together Failure.Alike (fun q q' => q' = q.relocate T) (c.changeExtractor o p)
      ((c.relocate T).changeExtractor (o.relocate T) (p.relocate T)) := by
  have placed : o.extractor.map (·.relocate S) = o.extractor := congrArg Override.extractor ho
  unfold changeExtractor
  dsimp only [Override.relocate]
  cases given : o.extractor with
  | none => exact .give rfl
  | some s =>
    rw [given] at placed isLocal
    have same := Extractor.checkFunction_relocate (Option.some.inj placed) isLocal inside.target T
      (some p.ty)
    have check : (Extractor.function (s.relocate T)).check (c.target.relocate T) (some p.ty) =
        (Extractor.function s).check c.target (some p.ty) :=
      congrArg (Except.mapError (Failure.function s.name)) same
    change Together _ _ _
      ((Extractor.function (s.relocate T)).check (c.target.relocate T) (some p.ty) >>= _)
    rw [check]
    exact (Together.refl Failure.Alike.refl).bind fun _ _ _ => .give rfl

theorem changeConverter_together (c : Customiser) (o : Override) (p : Property) (T : Scope) :
    Together Failure.Alike (fun q q' => q' = q.relocate T) (c.changeConverter o p)
      ((c.relocate T).changeConverter (o.relocate T) (p.relocate T)) := by
  unfold changeConverter
  dsimp only [Override.relocate]
  split
  · exact .give rfl
  · exact .ite explicit_relocate.symm (.fail rfl) (.give rfl)

theorem changeView_together (inside : c.In S) (ho : o.relocate S = o) (p : Property) (T : Scope) :
    Together Failure.Alike (fun q q' => q' = q.relocate T) (c.changeView o p)
      ((c.relocate T).changeView (o.relocate T) (p.relocate T)) := by
  have placed : o.view.map (·.relocate S) = o.view := congrArg Override.view ho
  unfold changeView
  dsimp only [Override.relocate]
  cases given : o.view with
  | none => exact .give rfl
  | some view =>
    rw [given] at placed
    have named : Ty.ofName (view.relocate T) T = Ty.ofName view c.scope := by
      rw [inside.scope, Ty.ofName, Ty.ofName, TypeName.pathFrom_relocate (Option.some.inj placed)]
    refine .ite explicit_relocate.symm (.fail rfl) ?_
    dsimp only [relocate]
    rw [named]
    split
    · exact .give rfl
    · exact .fail rfl

theorem checkName_together (c : Customiser) (name : String) (T : Scope) :
    Together Failure.Alike Eq (c.checkName name) ((c.relocate T).checkName name) := by
  unfold checkName
  exact checkIdentifier_together _ rfl

theorem changeName_together (c : Customiser) (o : Override) (p : Property) (T : Scope) :
    Together Failure.Alike (fun q q' => q' = q.relocate T) (c.changeName o p)
      ((c.relocate T).changeName (o.relocate T) (p.relocate T)) := by
  unfold changeName
  dsimp only [Override.relocate]
  split
  · exact .give rfl
  · exact (c.checkName_together _ T).bind fun _ _ _ => .give rfl

theorem changeGetter_relocate (o : Override) (p : Property) (T : Scope) :
    changeGetter (o.relocate T) (p.relocate T) = (changeGetter o p).relocate T := by
  unfold changeGetter
  dsimp only [Override.relocate]
  cases o.getter <;> rfl

theorem changeComment_relocate (o : Override) (p : Property) (T : Scope) :
    changeComment (o.relocate T) (p.relocate T) = (changeComment o p).relocate T := by
  change (if o.comment.isSome = true then (p.relocate T).withComment o.comment else p.relocate T) =
    (if o.comment.isSome = true then p.withComment o.comment else p).relocate T
  split <;> rfl

theorem change_together (inside : c.In S) (ho : o.relocate S = o)
    (isLocal : o.extractor.all Signature.isLocal = true) (p : Property) (T : Scope) :
    Together Failure.Alike (fun q q' => q' = q.relocate T) (c.change o p)
      ((c.relocate T).change (o.relocate T) (p.relocate T)) := by
  unfold change
  dsimp only
  rw [changeGetter_relocate]
  refine (c.changeSetter_together o _ T).bind fun p₁ _ same => ?_
  subst same
  refine (changeExtractor_together inside ho isLocal p₁ T).bind fun p₂ _ same => ?_
  subst same
  refine (c.changeConverter_together o p₂ T).bind fun p₃ _ same => ?_
  subst same
  refine (changeView_together inside ho p₃ T).bind fun p₄ _ same => ?_
  subst same
  rw [changeComment_relocate]
  exact c.changeName_together o _ T

theorem newProperty_together (inside : c.In S) {a : Addition} (ha : a.relocate S = a)
    (isLocal : a.function.isLocal = true) (T : Scope) :
    Together Failure.Alike (fun q q' => q' = q.relocate T) (c.newProperty a)
      ((c.relocate T).newProperty (a.relocate T)) := by
  have placed : a.function.relocate S = a.function := congrArg Addition.function ha
  have same := Extractor.checkFunction_relocate placed isLocal inside.target T none
  have check : (Extractor.function (a.relocate T).function).check (c.relocate T).target none =
      (Extractor.function a.function).check c.target none :=
    congrArg (Except.mapError (Failure.function a.function.name)) same
  unfold newProperty
  rw [check]
  refine (c.checkName_together a.name T).bind fun _ _ _ => ?_
  refine .ite Iff.rfl (.fail rfl) ?_
  exact (Together.refl Failure.Alike.refl).bind fun _ _ _ => .give rfl

end Customiser

/-- The second has the properties of the first, moved, and reports as much. -/
structure Customised.Moves (T : Scope) (s s' : Customised) : Prop where
  properties : s'.properties = s.properties.map (·.relocate T)
  diagnostics : s'.diagnostics.map (·.severity) = s.diagnostics.map (·.severity)
  errors : s'.errors.length = s.errors.length
  aborted : s'.aborted = s.aborted

theorem Customised.Moves.ite {s s' t t' : Customised} {c c' : Prop} [Decidable c] [Decidable c']
    (same : c ↔ c') (h : s.Moves T s') (h' : t.Moves T t') :
    (if c then s else t).Moves T (if c' then s' else t') := by
  by_cases there : c
  · rwa [if_pos there, if_pos (same.1 there)]
  · rwa [if_neg there, if_neg (mt same.2 there)]

namespace Customiser

variable {c : Customiser} {s s' : Customised}

theorem drop_moves (h : s.Moves T s') {f f' : Failure} (same : f.Alike f') :
    (c.drop s f).Moves T ((c.relocate T).drop s' f') where
  properties := h.properties
  diagnostics := by simp [drop, h.diagnostics, Diagnostic.error]
  errors := by simp [drop, h.errors]
  aborted := by
    dsimp only [drop]
    rw [h.aborted, show f'.abort? = f.abort? from same]

theorem applyOverride_moves (inside : c.In S) (h : s.Moves T s') {o : Override}
    (ho : o.relocate S = o) (isLocal : o.extractor.all Signature.isLocal = true) :
    (c.applyOverride s o).Moves T ((c.relocate T).applyOverride s' (o.relocate T)) := by
  have found : s'.properties.findIdx? (·.name == o.name) =
      s.properties.findIdx? (·.name == o.name) := by
    rw [h.properties, List.findIdx?_map]
    rfl
  unfold applyOverride
  dsimp only [Override.relocate]
  rw [found]
  split
  · exact .ite Iff.rfl h ⟨h.properties, by simp [h.diagnostics, Diagnostic.warning], h.errors, h.aborted⟩
  · rename_i i _
    rw [h.properties, List.getElem?_map]
    cases s.properties[i]? with
    | none => exact h
    | some p =>
      dsimp only [Option.map_some]
      have changed := change_together inside ho isLocal p T
      dsimp only [Override.relocate] at changed
      generalize c.change o p = x at changed
      generalize (c.relocate T).change _ (p.relocate T) = y at changed
      cases changed with
      | fail same =>
        have left : Customised.Moves T { s with properties := s.properties.eraseIdx i }
            { s' with properties := (s.properties.map (·.relocate T)).eraseIdx i } :=
          ⟨List.eraseIdx_map .., h.diagnostics, h.errors, h.aborted⟩
        exact drop_moves left same
      | give same =>
        subst same
        exact ⟨(List.map_set ..).symm, h.diagnostics, h.errors, h.aborted⟩

theorem applyAddition_moves (inside : c.In S) (h : s.Moves T s') {a : Addition}
    (ha : a.relocate S = a) (isLocal : a.function.isLocal = true) :
    (c.applyAddition s a).Moves T ((c.relocate T).applyAddition s' (a.relocate T)) := by
  have made := newProperty_together inside ha isLocal T
  unfold applyAddition
  generalize c.newProperty a = x at made
  generalize (c.relocate T).newProperty (a.relocate T) = y at made
  cases made with
  | fail same => exact drop_moves h same
  | give same =>
    subst same
    exact ⟨by simp [h.properties], h.diagnostics, h.errors, h.aborted⟩

theorem foldl_moves {α : Type} {f f' : Customised → α → Customised} {g : α → α} {l : List α}
    (h : s.Moves T s')
    (step : ∀ s s' : Customised, s.Moves T s' → ∀ a ∈ l, (f s a).Moves T (f' s' (g a))) :
    (l.foldl f s).Moves T ((l.map g).foldl f' s') := by
  induction l generalizing s s' with
  | nil => exact h
  | cons a rest ih =>
    obtain ⟨first, later⟩ := List.forall_mem_cons.1 fun a ha s s' h => step s s' h a ha
    exact ih (first s s' h) fun s s' h a ha => later a ha s s' h

/-- All changes and additions of a bearer of the module. -/
theorem apply_moves (inside : c.In S) {b : Bearer} (hb : b.relocate S = b)
    (isLocal : b.isLocal = true) (ps : List Property) (T : Scope) :
    (c.apply b ps).Moves T ((c.relocate T).apply (b.relocate T) (ps.map (·.relocate T))) := by
  have placed := Bearer.in_of_relocate hb
  obtain ⟨overrides, additions⟩ := Bool.and_eq_true_iff.1 isLocal
  unfold apply
  refine foldl_moves (foldl_moves ⟨rfl, rfl, rfl, rfl⟩ fun s s' h o ho => ?_) fun s s' h a ha => ?_
  · exact applyOverride_moves inside h (placed.overrides o ho) (List.all_eq_true.1 overrides o ho)
  · exact applyAddition_moves inside h (placed.additions a ha) (List.all_eq_true.1 additions a ha)

end Customiser

end RecordViews
