import Mathlib.Data.List.Nodup
import RecordViews.Proofs.Customising
import RecordViews.Selection.Properties

/-! Which property each change of a bearer acts on. A change names a member, but it is made to the
first property that has this name when its turn comes, and by then an earlier change may have given
the name to the property of another member. `Shadows` says when this happens; where it does not,
making the changes one after the other is making them all at once. -/

namespace RecordViews

def Property.origin? (p : Property) : Option String :=
  p.source.map (·.name)

namespace Customiser

variable {c : Customiser}

/-- None of the changes, when its turn comes, finds the property of another member than the one it
names. -/
def FindOwn (c : Customiser) (s : Customised) : List Override → Prop
  | [] => True
  | o :: rest =>
    (∀ p, s.properties.find? (·.name == o.name) = some p → p.origin? = some o.name) ∧
      FindOwn c (c.applyOverride s o) rest

/-- `d` gives its property the name of the member that `o` is about, and no property of that name
stands in front of it. -/
def Shadows (c : Customiser) (ps : List Property) (d o : Override) : Prop :=
  ∃ l p r q, ps = l ++ p :: r ∧ p.name = d.name ∧ d.rename = some o.name ∧
    c.change d p = .ok q ∧ ∀ p' ∈ l, p'.name ≠ o.name

/-- What becomes of the property of a member if the change that names the member is made to it, and
no other. -/
def settled (c : Customiser) (os : List Override) (p : Property) : Option Property :=
  match os.find? (·.name == p.name) with
  | none => some p
  | some o => (c.change o p).toOption

/-- Why the change cannot be made to the property of its member. -/
def refusal? (c : Customiser) (ps : List Property) (o : Override) : Option String :=
  (ps.find? (·.name == o.name)).bind fun p => complaint? (c.change o p)

theorem shadows_cons_iff {ps : List Property} {p : Property} {d o : Override} :
    c.Shadows (p :: ps) d o ↔
      (p.name = d.name ∧ d.rename = some o.name ∧ ∃ q, c.change d p = .ok q) ∨
        p.name ≠ o.name ∧ c.Shadows ps d o := by
  constructor
  · rintro ⟨l, p', r, q, e, hname, hrename, hq, front⟩
    cases l with
    | nil =>
      obtain ⟨rfl, rfl⟩ := List.cons.inj e
      exact Or.inl ⟨hname, hrename, q, hq⟩
    | cons a l =>
      obtain ⟨rfl, rfl⟩ := List.cons.inj e
      refine Or.inr ⟨front p List.mem_cons_self, l, p', r, q, rfl, hname, hrename, hq, ?_⟩
      exact fun b hb => front b (List.mem_cons_of_mem p hb)
  · rintro (⟨hname, hrename, q, hq⟩ | ⟨ne, l, p', r, q, rfl, hname, hrename, hq, front⟩)
    · exact ⟨[], p, ps, q, rfl, hname, hrename, hq, by simp⟩
    · refine ⟨p :: l, p', r, q, rfl, hname, hrename, hq, ?_⟩
      intro b hb
      rcases List.mem_cons.1 hb with rfl | hb
      · exact ne
      · exact front b hb

theorem nodup_names_left {done os : List Override} (named : ((done ++ os).map (·.name)).Nodup) :
    (done.map (·.name)).Nodup := by
  rw [List.map_append] at named
  exact named.of_append_left

theorem not_named_before {done : List Override} {o : Override}
    (named : ((done ++ [o]).map (·.name)).Nodup) : o.name ∉ done.map (·.name) := by
  rw [List.map_append, List.nodup_append] at named
  exact fun h => named.2.2 _ h _ List.mem_cons_self rfl

theorem settled_of_not_named {os : List Override} {p : Property}
    (h : p.name ∉ os.map (·.name)) : c.settled os p = some p := by
  have : os.find? (·.name == p.name) = none := by
    rw [List.find?_eq_none]
    intro o ho
    have : o.name ≠ p.name := fun e => h (e ▸ List.mem_map_of_mem (f := Override.name) ho)
    simpa using this
  rw [settled, this]

theorem settled_of_named {os : List Override} (named : (os.map (·.name)).Nodup) {o : Override}
    (ho : o ∈ os) {p : Property} (h : o.name = p.name) :
    c.settled os p = (c.change o p).toOption := by
  cases hf : os.find? (·.name == p.name) with
  | none => exact absurd (List.find?_eq_none.1 hf o ho) (by simp [h])
  | some o' =>
    have hname : o'.name = p.name := by simpa using List.find?_some hf
    have := List.inj_on_of_nodup_map named (List.mem_of_find?_eq_some hf) ho (hname.trans h.symm)
    rw [settled, hf, this]

/-- The settled property still comes from its member. If its name is not the member's, the change
that names the member gave it. -/
theorem settled_spec {os : List Override} {p q : Property} (h : c.settled os p = some q) :
    q.origin? = p.origin? ∧
      (q.name ≠ p.name → ∃ o ∈ os, o.name = p.name ∧ o.rename = some q.name ∧
        c.change o p = .ok q) := by
  unfold settled at h
  split at h
  · obtain rfl := Option.some.inj h
    exact ⟨rfl, fun ne => absurd rfl ne⟩
  · rename_i o hf
    cases hc : c.change o p with
    | error f => rw [hc] at h; cases h
    | ok q' =>
      rw [hc] at h
      obtain rfl := Option.some.inj h
      obtain ⟨source, name⟩ := change_keeps hc
      refine ⟨by rw [Property.origin?, source]; rfl, fun ne => ?_⟩
      refine ⟨o, List.mem_of_find?_eq_some hf, by simpa using List.find?_some hf, ?_, hc⟩
      cases hr : o.rename with
      | none => rw [hr] at name; exact absurd name ne
      | some n => rw [hr] at name; rw [name]; rfl

theorem settled_append_of_ne {os : List Override} {o : Override} {p : Property}
    (h : p.name ≠ o.name) : c.settled (os ++ [o]) p = c.settled os p := by
  have : ([o] : List Override).find? (·.name == p.name) = none := by
    rw [List.find?_eq_none]
    simpa using Ne.symm h
  rw [settled, settled, List.find?_append, this, Option.or_none]

theorem settled_perm {os os' : List Override} (h : os'.Perm os)
    (named : (os.map (·.name)).Nodup) : c.settled os' = c.settled os := by
  funext p
  have named' : (os'.map (·.name)).Nodup := (h.map _).nodup_iff.2 named
  by_cases hp : p.name ∈ os.map (·.name)
  · obtain ⟨o, ho, name⟩ := List.mem_map.1 hp
    rw [settled_of_named named ho name, settled_of_named named' (h.mem_iff.2 ho) name]
  · rw [settled_of_not_named hp, settled_of_not_named fun h' => hp ((h.map _).mem_iff.1 h')]

/-- In a list of settled properties, a name not changed so far leads to no other property than the
one of the member of this name, unless a change made so far shadows it. -/
theorem find_own_iff {ps : List Property} (members : ∀ p ∈ ps, p.origin? = some p.name)
    {done : List Override} (named : (done.map (·.name)).Nodup) {o : Override}
    (new : o.name ∉ done.map (·.name)) :
    (∀ q, (ps.filterMap (c.settled done)).find? (·.name == o.name) = some q →
        q.origin? = some o.name) ↔
      ∀ d ∈ done, ¬ c.Shadows ps d o := by
  induction ps with
  | nil => simp [Shadows]
  | cons p rest ih =>
    have origin := members p List.mem_cons_self
    have ih := ih fun p' hp' => members p' (List.mem_cons_of_mem p hp')
    simp only [shadows_cons_iff, not_or, not_and]
    by_cases own : p.name = o.name
    · -- the member's own property comes first
      have same : c.settled done p = some p := settled_of_not_named (own ▸ new)
      rw [List.filterMap_cons_some same, List.find?_cons_of_pos (by simp [own])]
      refine iff_of_true ?_ fun d hd => ⟨fun e => ?_, fun ne => absurd own ne⟩
      · rintro q hq
        rw [← Option.some.inj hq, origin, own]
      · exact absurd (own ▸ e ▸ List.mem_map_of_mem hd) new
    · cases hq : c.settled done p with
      | none =>
        -- the property is gone, and so is what could shadow
        rw [List.filterMap_cons_none hq, ih]
        refine forall₂_congr fun d hd => ⟨fun h => ⟨?_, fun _ => h⟩, fun h => h.2 own⟩
        rintro e - ⟨q, hc⟩
        rw [settled_of_named named hd e.symm, hc] at hq
        cases hq
      | some q =>
        obtain ⟨sameOrigin, renamed⟩ := settled_spec hq
        rw [List.filterMap_cons_some hq]
        by_cases hit : q.name = o.name
        · -- a change made so far has brought the name here
          rw [List.find?_cons_of_pos (by simp [hit])]
          obtain ⟨d, hd, hname, hrename, hc⟩ := renamed (fun e => own (e.symm.trans hit))
          refine iff_of_false (fun h => own ?_) fun h => ?_
          · exact Option.some.inj (origin.symm.trans (sameOrigin.symm.trans (h q rfl)))
          · exact (h d hd).1 hname.symm (hit ▸ hrename) ⟨q, hc⟩
        · rw [List.find?_cons_of_neg (by simpa using hit), ih]
          refine forall₂_congr fun d hd => ⟨fun h => ⟨?_, fun _ => h⟩, fun h => h.2 own⟩
          rintro e hrename ⟨q', hc⟩
          rw [settled_of_named named hd e.symm, hc] at hq
          obtain rfl := Option.some.inj hq
          have := (change_keeps hc).2
          rw [hrename] at this
          exact hit this

/-- The property of a member that no change has named so far is as it was. -/
theorem find_origin {ps : List Property} (members : ∀ p ∈ ps, p.origin? = some p.name)
    {done : List Override} {o : Override} (new : o.name ∉ done.map (·.name)) :
    (ps.filterMap (c.settled done)).find? (·.origin? == some o.name) =
      ps.find? (·.name == o.name) := by
  induction ps with
  | nil => rfl
  | cons p rest ih =>
    have origin := members p List.mem_cons_self
    have ih := ih fun p' hp' => members p' (List.mem_cons_of_mem p hp')
    by_cases own : p.name = o.name
    · have same : c.settled done p = some p := settled_of_not_named (own ▸ new)
      rw [List.filterMap_cons_some same, List.find?_cons_of_pos (by simp [origin, own]),
        List.find?_cons_of_pos (by simp [own])]
    · rw [List.find?_cons_of_neg (p := fun p : Property => p.name == o.name) (by simpa using own)]
      cases hq : c.settled done p with
      | none => rw [List.filterMap_cons_none hq, ih]
      | some q =>
        have sameOrigin := (settled_spec hq).1
        rw [List.filterMap_cons_some hq, List.find?_cons_of_neg (by simp [sameOrigin, origin, own]),
          ih]

theorem nodup_origins {ps : List Property} (members : ∀ p ∈ ps, p.origin? = some p.name)
    (shown : (ps.map (·.name)).Nodup) (done : List Override) :
    ((ps.filterMap (c.settled done)).map Property.origin?).Nodup := by
  rw [List.Nodup, List.pairwise_map, List.pairwise_filterMap]
  refine List.Pairwise.imp_of_mem ?_ (List.pairwise_map.1 shown)
  intro p p' hp hp' ne q hq q' hq' e
  rw [(settled_spec hq).1, (settled_spec hq').1, members p hp, members p' hp'] at e
  exact ne (Option.some.inj e)

/-- Where a name leads to no other property than the member's own, it leads to this one. -/
theorem find_eq_find_origin {ps : List Property} (members : ∀ p ∈ ps, p.origin? = some p.name)
    (shown : (ps.map (·.name)).Nodup) {done : List Override} {o : Override}
    (new : o.name ∉ done.map (·.name))
    (own : ∀ q, (ps.filterMap (c.settled done)).find? (·.name == o.name) = some q →
      q.origin? = some o.name) :
    (ps.filterMap (c.settled done)).find? (·.name == o.name) =
      (ps.filterMap (c.settled done)).find? (·.origin? == some o.name) := by
  cases hname : (ps.filterMap (c.settled done)).find? (·.name == o.name) with
  | none =>
    cases horigin : (ps.filterMap (c.settled done)).find? (·.origin? == some o.name) with
    | none => rfl
    | some q =>
      -- the member's own property still has its name
      have kept := List.find?_some (find_origin members new ▸ horigin)
      exact absurd kept (List.find?_eq_none.1 hname q (List.mem_of_find?_eq_some horigin))
  | some q =>
    have hq := List.mem_of_find?_eq_some hname
    cases horigin : (ps.filterMap (c.settled done)).find? (·.origin? == some o.name) with
    | none => exact absurd (own q hname) (by simpa using List.find?_eq_none.1 horigin q hq)
    | some q' =>
      have same : q'.origin? = q.origin? := by
        rw [own q hname]
        simpa using List.find?_some horigin
      rw [List.inj_on_of_nodup_map (nodup_origins members shown done) hq
        (List.mem_of_find?_eq_some horigin) same.symm]

/-- Making one further change to the property of its member settles it. -/
theorem editFirst_origin {ps : List Property} (members : ∀ p ∈ ps, p.origin? = some p.name)
    (shown : (ps.map (·.name)).Nodup) {done : List Override} {o : Override}
    (named : ((done ++ [o]).map (·.name)).Nodup) :
    editFirst (·.origin? == some o.name) (fun p => (c.change o p).toOption)
        (ps.filterMap (c.settled done)) =
      ps.filterMap (c.settled (done ++ [o])) := by
  have new := not_named_before named
  induction ps with
  | nil => rfl
  | cons p rest ih =>
    have origin := members p List.mem_cons_self
    obtain ⟨once, shown⟩ := List.nodup_cons.1 shown
    have ih := ih (fun p' hp' => members p' (List.mem_cons_of_mem p hp')) shown
    by_cases own : p.name = o.name
    · have same : c.settled done p = some p := settled_of_not_named (own ▸ new)
      have changed : c.settled (done ++ [o]) p = (c.change o p).toOption :=
        settled_of_named named (List.mem_append_right _ List.mem_cons_self) own.symm
      have others : rest.filterMap (c.settled (done ++ [o])) = rest.filterMap (c.settled done) := by
        refine List.filterMap_congr fun p' hp' => settled_append_of_ne fun e => once ?_
        exact List.mem_map.2 ⟨p', hp', e.trans own.symm⟩
      rw [List.filterMap_cons_some same, editFirst, if_pos (by simp [origin, own]), ← others]
      cases hc : (c.change o p).toOption with
      | none => rw [List.filterMap_cons_none (changed.trans hc)]; rfl
      | some q => rw [List.filterMap_cons_some (changed.trans hc)]; rfl
    · have unchanged : c.settled (done ++ [o]) p = c.settled done p := settled_append_of_ne own
      cases hq : c.settled done p with
      | none =>
        rw [List.filterMap_cons_none hq, List.filterMap_cons_none (unchanged.trans hq), ih]
      | some q =>
        have sameOrigin := (settled_spec hq).1
        rw [List.filterMap_cons_some hq, List.filterMap_cons_some (unchanged.trans hq), editFirst,
          if_neg (by simp [sameOrigin, origin, own]), ih]

/-- A change that finds no other property than that of its member settles this one, and complains
where it cannot be made to what the member started as. -/
theorem applyOverride_settled {ps : List Property} (members : ∀ p ∈ ps, p.origin? = some p.name)
    (shown : (ps.map (·.name)).Nodup) {done : List Override} {o : Override}
    (named : ((done ++ [o]).map (·.name)).Nodup) {s : Customised}
    (start : s.properties = ps.filterMap (c.settled done))
    (own : ∀ p, s.properties.find? (·.name == o.name) = some p → p.origin? = some o.name) :
    (c.applyOverride s o).properties = ps.filterMap (c.settled (done ++ [o])) ∧
      (c.applyOverride s o).errors = s.errors ++ (c.refusal? ps o).toList := by
  have new := not_named_before named
  rw [start] at own
  have found := find_eq_find_origin members shown new own
  obtain ⟨properties, errors⟩ := applyOverride_eq c s o
  refine ⟨?_, ?_⟩
  · rw [properties, start, editFirst_congr found, editFirst_origin members shown named]
  · rw [errors, start, found, find_origin members new, refusal?]

/-- Changes made from a list of settled properties. None finds the property of another member if and
only if none is shadowed by one before it, made here or earlier. -/
theorem findOwn_iff {ps : List Property} (members : ∀ p ∈ ps, p.origin? = some p.name)
    (shown : (ps.map (·.name)).Nodup) {os done : List Override}
    (named : ((done ++ os).map (·.name)).Nodup) {s : Customised}
    (start : s.properties = ps.filterMap (c.settled done)) :
    c.FindOwn s os ↔ (∀ d ∈ done, ∀ o ∈ os, ¬ c.Shadows ps d o) ∧
      os.Pairwise fun d o => ¬ c.Shadows ps d o := by
  induction os generalizing done s with
  | nil => simp [FindOwn]
  | cons o rest ih =>
    rw [List.append_cons] at named
    have named₁ := nodup_names_left named
    have turn : (∀ p, s.properties.find? (·.name == o.name) = some p → p.origin? = some o.name) ↔
        ∀ d ∈ done, ¬ c.Shadows ps d o := by
      rw [start]
      exact find_own_iff members (nodup_names_left named₁) (not_named_before named₁)
    rw [FindOwn, List.pairwise_cons]
    constructor
    · rintro ⟨own, others⟩
      have next := (applyOverride_settled members shown named₁ start own).1
      obtain ⟨before, pairwise⟩ := (ih named next).1 others
      refine ⟨fun d hd o' ho' => ?_, fun o' ho' => ?_, pairwise⟩
      · rcases List.mem_cons.1 ho' with rfl | ho'
        · exact turn.1 own d hd
        · exact before d (List.mem_append_left _ hd) o' ho'
      · exact before o (List.mem_append_right _ List.mem_cons_self) o' ho'
    · rintro ⟨before, first, pairwise⟩
      have own := turn.2 fun d hd => before d hd o List.mem_cons_self
      have next := (applyOverride_settled members shown named₁ start own).1
      refine ⟨own, (ih named next).2 ⟨fun d hd o' ho' => ?_, pairwise⟩⟩
      rcases List.mem_append.1 hd with hd | hd
      · exact before d hd o' (List.mem_cons_of_mem o ho')
      · obtain rfl := List.mem_singleton.1 hd
        exact first o' ho'

/-- Changes that find no properties but those of their members leave the settled ones. -/
theorem foldl_applyOverride_settled {ps : List Property}
    (members : ∀ p ∈ ps, p.origin? = some p.name) (shown : (ps.map (·.name)).Nodup)
    {os done : List Override} (named : ((done ++ os).map (·.name)).Nodup) {s : Customised}
    (start : s.properties = ps.filterMap (c.settled done)) (own : c.FindOwn s os) :
    (os.foldl c.applyOverride s).properties = ps.filterMap (c.settled (done ++ os)) ∧
      (os.foldl c.applyOverride s).errors = s.errors ++ os.filterMap (c.refusal? ps) := by
  induction os generalizing done s with
  | nil => simp [start]
  | cons o rest ih =>
    rw [List.append_cons] at named
    have named₁ := nodup_names_left named
    obtain ⟨own, others⟩ := own
    obtain ⟨properties, errors⟩ := applyOverride_settled members shown named₁ start own
    obtain ⟨properties', errors'⟩ := ih named properties others
    refine ⟨?_, ?_⟩
    · rw [List.foldl_cons, properties', ← List.append_cons]
    · rw [List.foldl_cons, errors', errors, List.append_assoc, List.filterMap_cons]
      cases c.refusal? ps o <;> rfl

/-- No change of a bearer acts on the property of another member than the one it names if and only
if none shadows a later one. The view then has the settled properties, and making the changes in
another such order gives the same properties and drops the same ones. -/
theorem overrides_reach_members_iff (c : Customiser) {ps : List Property}
    (members : ∀ p ∈ ps, p.origin? = some p.name) (shown : (ps.map (·.name)).Nodup) {b : Bearer}
    (named : (b.overrides.map (·.name)).Nodup) :
    (c.FindOwn { properties := ps } b.overrides ↔
      b.overrides.Pairwise fun d o => ¬ c.Shadows ps d o) ∧
    (c.FindOwn { properties := ps } b.overrides →
      (c.apply b ps).properties = ps.filterMap (c.settled b.overrides) ++
        b.additions.filterMap (fun a => (c.newProperty a).toOption) ∧
      (c.apply b ps).errors = b.overrides.filterMap (c.refusal? ps) ++
        b.additions.filterMap (fun a => complaint? (c.newProperty a)) ∧
      ∀ os : List Override, os.Perm b.overrides → c.FindOwn { properties := ps } os →
        (c.apply { b with overrides := os } ps).properties = (c.apply b ps).properties ∧
        (c.apply { b with overrides := os } ps).errors.Perm (c.apply b ps).errors) := by
  have start : ps = ps.filterMap (c.settled []) := (List.filterMap_some).symm
  have all : ∀ os : List Override, (os.map (·.name)).Nodup → c.FindOwn { properties := ps } os →
      (c.apply { b with overrides := os } ps).properties = ps.filterMap (c.settled os) ++
        b.additions.filterMap (fun a => (c.newProperty a).toOption) ∧
      (c.apply { b with overrides := os } ps).errors = os.filterMap (c.refusal? ps) ++
        b.additions.filterMap (fun a => complaint? (c.newProperty a)) := by
    intro os named own
    have named : ((([] : List Override) ++ os).map (·.name)).Nodup := named
    obtain ⟨properties, errors⟩ := foldl_applyOverride_settled members shown named start own
    obtain ⟨properties', errors'⟩ := foldl_applyAddition c b.additions
      (os.foldl c.applyOverride { properties := ps })
    exact ⟨properties'.trans (by rw [properties]; rfl), errors'.trans (by rw [errors]; rfl)⟩
  refine ⟨?_, fun own => ⟨(all _ named own).1, (all _ named own).2, fun os perm own' => ?_⟩⟩
  · have named : ((([] : List Override) ++ b.overrides).map (·.name)).Nodup := named
    rw [findOwn_iff members shown named start]
    simp
  · have named' : (os.map (·.name)).Nodup := (perm.map _).nodup_iff.2 named
    obtain ⟨properties, errors⟩ := all b.overrides named own
    obtain ⟨properties', errors'⟩ := all os named' own'
    refine ⟨?_, ?_⟩
    · exact properties'.trans (by rw [settled_perm perm named]; exact properties.symm)
    · have same : (c.apply b ps).errors = _ := errors
      rw [errors', same]
      exact (perm.filterMap _).append_right _

/-- The customiser of a view of a record with a first and a last name. -/
def ofPerson : Customiser where
  target := ⟨["crate"], "Person"⟩
  source := { name := ⟨["crate"], "Person"⟩ }
  config := ⟨["crate"], "Person"⟩
  scope := ["crate"]
  library := { leading := true, segments := [{ name := "view_synth" }] }
  getters := .everywhere

def person : List Property :=
  ["first", "last"].map fun name =>
    Property.ofMember (.field name (.path (.ofNames ["String"]))) .everywhere .none

/-- Renames the last name, then gives the first name the name that has become free. -/
def renames : List Override :=
  [{ name := "last", rename := some "family" }, { name := "first", rename := some "last" }]

theorem renames_reach_members :
    (∀ p ∈ person, p.origin? = some p.name) ∧ (person.map (·.name)).Nodup ∧
    (renames.map (·.name)).Nodup ∧
    ofPerson.FindOwn { properties := person } renames ∧
    (ofPerson.apply { name := ofPerson.config, overrides := renames } person).properties =
      person.filterMap (ofPerson.settled renames) := by
  have members : ∀ p ∈ person, p.origin? = some p.name := by decide
  have shown : (person.map (·.name)).Nodup := by decide
  have named : (renames.map (·.name)).Nodup := by decide
  have h := overrides_reach_members_iff ofPerson members shown
    (b := { name := ofPerson.config, overrides := renames }) named
  have own : ofPerson.FindOwn { properties := person } renames := by
    refine h.1.2 (List.pairwise_pair.2 ?_)
    rintro ⟨l, p, r, q, _, _, rename, _⟩
    exact absurd rename (by decide)
  refine ⟨members, shown, named, own, (h.2 own).1.trans ?_⟩
  exact List.append_nil _

/-- In the other order the first name takes the name `last`, and is then found by the change that
is about the last name. -/
theorem reverse_renames_miss :
    (∀ p ∈ person, p.origin? = some p.name) ∧ (person.map (·.name)).Nodup ∧
    (renames.reverse.map (·.name)).Nodup ∧
    ((ofPerson.apply { name := ofPerson.config, overrides := renames.reverse }
        person).properties.map fun p => (p.origin?, p.name)) =
      [(some "first", "family"), (some "last", "last")] ∧
    (ofPerson.apply { name := ofPerson.config, overrides := renames.reverse } person).properties ≠
      person.filterMap (ofPerson.settled renames.reverse) ∧
    (ofPerson.apply { name := ofPerson.config, overrides := renames.reverse } person).properties ≠
      (ofPerson.apply { name := ofPerson.config, overrides := renames } person).properties := by
  exact ⟨by decide, by decide, by decide, by decide, by decide, by decide⟩

end Customiser

end RecordViews
