import RecordViews.Proofs.Pipeline

/-! What stands behind the properties of a view: a function, if there is one, that gives the value
as it is shown, and a member that can be assigned, if there is a setter. A change is checked against
the property as the changes before it left it, so both are invariants of single properties:
`change_sound` says that a change keeps them, and `Made.sound` that any number of changes do, by
whatever names they reach the property. -/

namespace RecordViews

open Grammar (Ty)

/-- The function needs no receiver and gives an owned value of the type shown. It takes nothing, or
a shared reference to the record that is viewed, whose path is read where the function's container
is. -/
structure Signature.Backs (s : Signature) (target : TypeName) (ty : Ty) : Prop where
  static : s.receiver = false
  owned : s.result.isStorable = true
  shown : s.result = ty
  source : s.params = [] ∨
    ∃ lifetime path, s.params = [.reference lifetime false (.path path)] ∧
      TypeName.resolve? s.container.module path = some target

theorem Grammar.Ty.isSharedRefTo_iff {t : Ty} {target : TypeName} {scope : Scope} :
    t.isSharedRefTo target scope = true ↔
      ∃ lifetime path, t = .reference lifetime false (.path path) ∧
        TypeName.resolve? scope path = some target := by
  constructor
  · intro h
    unfold isSharedRefTo at h
    split at h
    · exact ⟨_, _, rfl, eq_of_beq h⟩
    · cases h
  · rintro ⟨lifetime, path, rfl, named⟩
    exact beq_iff_eq.2 named

namespace Extractor

variable {s : Signature} {target : TypeName} {expected : Option Ty}

/-- What passes the check can stand behind a property that is shown with its type. -/
theorem checkFunction_ok (h : checkFunction s target expected = .ok ()) :
    s.Backs target s.result := by
  unfold checkFunction at h
  split at h
  · cases h
  · rename_i static
    split at h
    · cases h
    · rename_i owned
      split at h
      · cases h
      · refine ⟨by simpa using static, by simpa using owned, rfl, ?_⟩
        split at h
        · rename_i none
          exact Or.inl none
        · rename_i param one
          split at h
          · rename_i shared
            obtain ⟨lifetime, path, rfl, named⟩ := Ty.isSharedRefTo_iff.1 shared
            exact Or.inr ⟨lifetime, path, one, named⟩
          · cases h
        · cases h

theorem check_ok (h : (function s).check target expected = .ok ()) : s.Backs target s.result := by
  rw [check] at h
  cases found : checkFunction s target expected with
  | ok _ => exact checkFunction_ok found
  | error f =>
    rw [found] at h
    cases h

end Extractor

/-- A function that was given can stand behind the property as it is shown. There is a setter only
where the value can be assigned, and that is nowhere without a member. -/
structure Property.Sound (p : Property) (target : TypeName) : Prop where
  backed : ∀ e, p.explicit = some e → ∃ s, e = .function s ∧ s.Backs target p.ty
  assignable : p.setter ≠ .none → p.writable = true
  computed : p.direct = none → p.writable = false

namespace Property

theorem clampSetter_ne_none {writable : Bool} {access : Access}
    (h : clampSetter writable access ≠ .none) : writable = true := by
  cases writable with
  | false => exact absurd rfl h
  | true => rfl

theorem ofMember_sound (m : Member) (getter setter : Access) (target : TypeName) :
    (ofMember m getter setter).Sound target where
  backed e h := by cases h
  assignable := clampSetter_ne_none
  computed h := by cases h

theorem computed_sound {s : Signature} {target : TypeName} (backs : s.Backs target s.result)
    (name : String) (getter : Access) : (computed name s getter).Sound target where
  backed e h := by
    obtain rfl := Option.some.inj h
    exact ⟨s, rfl, backs⟩
  assignable h := absurd rfl h
  computed _ := rfl

end Property

namespace Customiser

variable {c : Customiser} {o : Override} {p q : Property} {target : TypeName}

theorem changeGetter_sound (sound : p.Sound target) : (changeGetter o p).Sound target := by
  rcases changeGetter_cases o p with e | ⟨access, e⟩
  · rw [e]
    exact sound
  · rw [e]
    exact ⟨sound.backed, sound.assignable, sound.computed⟩

theorem changeSetter_sound (h : c.changeSetter o p = .ok q) (sound : p.Sound target) :
    q.Sound target := by
  rcases changeSetter_cases h with rfl | ⟨access, rfl⟩
  · exact sound
  · exact ⟨sound.backed, Property.clampSetter_ne_none, sound.computed⟩

/-- Whatever was behind the property before, the function that is given now was checked. -/
theorem changeExtractor_sound (h : c.changeExtractor o p = .ok q) (sound : p.Sound c.target) :
    q.Sound c.target := by
  unfold changeExtractor at h
  split at h
  · obtain rfl := Except.ok.inj h
    exact sound
  · rename_i s _
    obtain ⟨_, checked, h⟩ := bind_ok_iff.1 h
    obtain rfl := Except.ok.inj h
    refine ⟨fun e given => ?_, sound.assignable, sound.computed⟩
    obtain rfl := Option.some.inj given
    exact ⟨s, rfl, Extractor.check_ok checked⟩

/-- A converter changes the type shown, but there is no function behind the property then. -/
theorem changeConverter_sound (h : c.changeConverter o p = .ok q) (sound : p.Sound target) :
    q.Sound target := by
  rcases changeConverter_cases h with ⟨-, rfl⟩ | ⟨k, -, read, -, rfl⟩
  · exact sound
  · refine ⟨fun e given => ?_, sound.assignable, sound.computed⟩
    cases read.symm.trans given

theorem changeView_sound (h : c.changeView o p = .ok q) (sound : p.Sound target) :
    q.Sound target := by
  rcases changeView_cases h with ⟨-, rfl⟩ | ⟨view, ty, -, read, -, rfl⟩
  · exact sound
  · refine ⟨fun e given => ?_, sound.assignable, sound.computed⟩
    cases read.symm.trans given

theorem changeComment_sound (sound : p.Sound target) : (changeComment o p).Sound target := by
  rcases changeComment_cases o p with e | ⟨comment, e⟩
  · rw [e]
    exact sound
  · rw [e]
    exact ⟨sound.backed, sound.assignable, sound.computed⟩

theorem changeName_sound (h : c.changeName o p = .ok q) (sound : p.Sound target) :
    q.Sound target := by
  rcases changeName_cases h with ⟨-, rfl⟩ | ⟨name, -, rfl⟩
  · exact sound
  · exact ⟨sound.backed, sound.assignable, sound.computed⟩

/-- One change keeps a property sound. -/
theorem change_sound (h : c.change o p = .ok q) (sound : p.Sound c.target) : q.Sound c.target := by
  obtain ⟨p₁, setter, p₂, extractor, p₃, converter, p₄, view, name⟩ := change_ok_iff.1 h
  have sound₁ := changeSetter_sound setter (changeGetter_sound sound)
  have sound₂ := changeExtractor_sound extractor sound₁
  have sound₃ := changeConverter_sound converter sound₂
  have sound₄ := changeView_sound view sound₃
  exact changeName_sound name (changeComment_sound sound₄)

/-- So do all the changes that are made to it, in their order. -/
theorem Made.sound {os : List Override} (made : c.Made p os q) (sound : p.Sound c.target) :
    q.Sound c.target := by
  induction made with
  | start => exact sound
  | more o before named change ih => exact change_sound change ih

theorem newProperty_sound {a : Addition} (h : c.newProperty a = .ok p) : p.Sound c.target := by
  obtain rfl := newProperty_ok h
  unfold newProperty at h
  obtain ⟨_, _, h⟩ := bind_ok_iff.1 h
  split at h
  · cases h
  · obtain ⟨_, checked, h⟩ := bind_ok_iff.1 h
    exact Property.computed_sound (Extractor.check_ok checked) a.name _

end Customiser

/-- In a view, whatever changes and additions the config type asks for, a function that was given
needs no receiver, gives an owned value of the type shown, and takes nothing or a shared reference
to the target. A property has a setter only if it can be assigned, and one that is computed from
the start never can. -/
theorem Round.resolved_sound (r : Round) (bearer : Bearer) (request : ViewRequest) {v : View}
    (h : (r.resolveView bearer request).result = .ok v) : ∀ p ∈ v.properties, p.Sound v.target := by
  intro p hp
  obtain ⟨_, _, -, -, assembled⟩ := resolveView_assembles h
  have target : v.target = request.target.resolve bearer.name :=
    congrArg View.target (assemble_ok assembled).2.2
  rw [resolveView_traced h] at hp
  obtain ⟨t, ht, rfl⟩ := List.mem_map.1 hp
  rw [target]
  obtain ⟨source, ⟨-, m, -, made⟩ | ⟨-, a, made⟩⟩ := traced_cases ht
  · exact made.sound (Property.ofMember_sound m _ _ _)
  · exact Customiser.newProperty_sound made

def settable : ViewRequest := { ageAndHome with setters := .everywhere }

/-- Gives functions to properties that have a converter or a view, and adds a property. -/
def lodger : Bearer where
  name := ⟨["crate"], "Person"⟩
  requests := [settable]
  overrides := overtaken
  additions := [{ name := "kind", function := { personFunction "kind" "Kind" with params := [] } }]

def lodging : Round := { census overtaken with bearers := [lodger] }

theorem lodger_sound :
    ∃ v, (lodging.resolveView lodger settable).result = .ok v ∧
      v.properties.map (fun p => (p.explicit.isSome, p.setter, p.writable)) =
        [(true, .everywhere, true), (true, .everywhere, true), (true, .none, false)] ∧
      ∀ p ∈ v.properties, p.Sound v.target := by
  refine ⟨_, rfl, by decide, ?_⟩
  exact lodging.resolved_sound lodger settable rfl

end RecordViews
