import RecordViews.Proofs.DroppedProperties
import RecordViews.Proofs.Exclusions
import RecordViews.Proofs.FieldNames
import RecordViews.Proofs.OverrideTargets

/-! Property names that cannot be written as identifiers. An addition or a renamed property of such
a name is dropped with one message, and the rest of the view is as if it had not been asked for. The
name that a member has of its own is checked by nobody before the record is written, and then the
whole view fails. -/

namespace RecordViews

open Grammar (Path)

/-- The second view is the first with other messages, for a request that excludes others. -/
def View.Resembles (v v' : View) : Prop :=
  ∃ excludes errors, v' = { v with request := { v.request with excludes }, errors }

namespace GeneratedRecord

variable {v v' : View}

/-- Both records fail alike, or differ in the function that gives the messages of the views only. -/
structure Corresponds (v v' : View) (x y : Except Failure GeneratedRecord) : Prop where
  failing : ∀ f, x = .error f → y = .error f
  made : ∀ g, x = .ok g → ∃ own, g.functions = own ++ errorsFunction v ∧
    y = .ok { g with functions := own ++ errorsFunction v' }

theorem Corresponds.error (v v' : View) (f : Failure) : Corresponds v v' (.error f) (.error f) :=
  ⟨fun _ same => same, nofun⟩

theorem Corresponds.bind {α : Type} {x : Except Failure α}
    {record record' : α → Except Failure GeneratedRecord}
    (h : ∀ a, Corresponds v v' (record a) (record' a)) :
    Corresponds v v' (x >>= record) (x >>= record') := by
  cases x with
  | error f => exact .error v v' f
  | ok a => exact h a

theorem accessors_resembles (h : v.Resembles v') (slots : List Slot) :
    accessors v' slots = accessors v slots := by
  obtain ⟨excludes, errors, rfl⟩ := h
  induction slots with
  | nil => rfl
  | cons s rest ih =>
    rw [accessors, accessors, ih]
    rfl

theorem ofView_resembles (h : v.Resembles v') : Corresponds v v' (ofView v) (ofView v') := by
  have accessors := accessors_resembles h
  obtain ⟨excludes, errors, rfl⟩ := h
  have copied (source : Path) (slots : List Slot) :
      copyFunction { v with request := { v.request with excludes }, errors } source slots =
        copyFunction v source slots := rfl
  unfold ofView
  refine .bind fun slots => ?_
  dsimp only
  cases Slot.repeatedFunction? slots with
  | some name => exact .error ..
  | none =>
    refine .bind fun name => .bind fun source => ?_
    rw [copied, accessors]
    refine .bind fun copy => .bind fun own => ⟨nofun, fun g made => ?_⟩
    obtain rfl := Except.ok.inj made
    exact ⟨emptyFunction v slots ++ newFunction v slots ++ copy ++ own, rfl, rfl⟩

end GeneratedRecord

/-- The name is not written as an identifier, or the names of its functions are not. -/
def Property.unwritable (p : Property) : Bool :=
  (MemberNames.ofName p.name).toOption.isNone

theorem MemberNames.getterOf_ne_invalid {bare field m : String} :
    getterOf bare field ≠ .error (.invalid m) := by
  unfold getterOf
  split
  · exact asIdentifier_ne_invalid
  · nofun

/-- A name is refused as a property if it is refused as an identifier. -/
theorem MemberNames.ofName_invalid_iff {n m : String} :
    ofName n = .error (.invalid m) ↔ identifier n = .error (.invalid m) := by
  unfold ofName
  rw [bind_error_iff]
  refine or_iff_left ?_
  rintro ⟨field, -, bad⟩
  obtain getter | ⟨getter, -, bad⟩ := bind_error_iff.1 bad
  · exact getterOf_ne_invalid getter
  · obtain setter | ⟨setter, -, bad⟩ := bind_error_iff.1 bad
    · exact asIdentifier_ne_invalid setter
    · cases bad

/-- Slots are refused for the first name that cannot be written, and for nothing else. -/
theorem Slot.ofProperties_error_iff {ps : List Property} {fault : NameFault} :
    ofProperties ps = .error fault ↔
      ∃ p, ps.find? (·.unwritable) = some p ∧ MemberNames.ofName p.name = .error fault := by
  induction ps with
  | nil => exact iff_of_false nofun fun ⟨_, found, _⟩ => nomatch found
  | cons p rest ih =>
    cases named : MemberNames.ofName p.name with
    | error first =>
      have bad : p.unwritable = true := by
        rw [Property.unwritable, named]
        rfl
      rw [List.find?_cons_of_pos bad, ofProperties, named]
      dsimp only [bind, Except.bind]
      constructor
      · intro h
        obtain rfl := Except.error.inj h
        exact ⟨p, rfl, named⟩
      · rintro ⟨q, found, fails⟩
        obtain rfl := Option.some.inj found
        obtain rfl := Except.error.inj (named.symm.trans fails)
        rfl
    | ok names =>
      have good : ¬ p.unwritable = true := by
        rw [Property.unwritable, named]
        exact Bool.false_ne_true
      rw [List.find?_cons_of_neg good, ← ih, ofProperties, named]
      cases ofProperties rest with
      | ok slots => exact iff_of_false nofun nofun
      | error first => exact Iff.rfl

/-- A name that is refused makes the whole record fail. -/
theorem Renderer.view_of_refused {v : View} {name : String}
    (refused : Slot.ofProperties v.properties = .error (.invalid name)) (derives : List Path) :
    (ofDerives derives).view v = .error (.render v.name (.identifier name)) := by
  have failed : GeneratedRecord.ofView v = .error (.render v.name (.identifier name)) := by
    unfold GeneratedRecord.ofView
    rw [refused]
    rfl
  exact congrArg (Except.map _) failed

/-- No change gives a name that is no identifier: whoever has one comes from the member of this
name. -/
theorem Customiser.Made.origin_of_unwritable {c : Customiser} {p q : Property} {os : List Override}
    (made : c.Made p os q) (start : p.origin? = some p.name) (bad : identifier? q.name = none) :
    q.origin? = some q.name := by
  induction made with
  | start => exact start
  | @more os q q' o before named change ih =>
    obtain ⟨source, name⟩ := change_keeps change
    cases renames : o.rename with
    | none =>
      have same : q'.name = q.name := by rw [name, renames, Option.getD_none]
      rw [same] at bad
      rw [Property.origin?, source, same]
      exact ih bad
    | some given =>
      have same : q'.name = given := by rw [name, renames, Option.getD_some]
      obtain ⟨i, word⟩ := identifier_of_renamed change renames
      rw [same, identifier?_eq_some_iff.2 word] at bad
      cases bad

namespace Round

variable {r : Round} {bearer : Bearer} {request : ViewRequest}

theorem origin_of_unwritable {v : View} (resolved : (r.resolveView bearer request).result = .ok v)
    {p : Property} (hp : p ∈ v.properties) (bad : identifier? p.name = none) :
    p.origin? = some p.name := by
  rw [resolveView_traced resolved] at hp
  obtain ⟨t, ht, rfl⟩ := List.mem_map.1 hp
  obtain ⟨source, ⟨-, m, -, made⟩ | ⟨-, a, made⟩⟩ := traced_cases ht
  · exact made.origin_of_unwritable rfl bad
  · obtain ⟨i, word⟩ := Customiser.identifier_of_new made
    rw [Customiser.newProperty_ok made] at bad
    cases (identifier?_eq_some_iff.2 word).symm.trans bad

end Round

/-- The second view is the first, where one more property was dropped. -/
structure View.DropsOne (message : String) (v v' : View) : Prop where
  resembles : v.Resembles v'
  errors : OneMore message v.errors v'.errors
  record : GeneratedRecord.Corresponds v v' (GeneratedRecord.ofView v) (GeneratedRecord.ofView v')

theorem View.Resembles.dropsOne {v v' : View} {message : String} (h : v.Resembles v')
    (errors : OneMore message v.errors v'.errors) : v.DropsOne message v' :=
  ⟨h, errors, GeneratedRecord.ofView_resembles h⟩

/-- The second request comes to what the first one does, where one more property was dropped: this
leaves one error, and nothing fails that did not fail without it. -/
structure Resolved.DropsOne (config target : TypeName) (message : String) (x y : Resolved View) :
    Prop where
  diagnostics : OneMore (.error config target message) x.diagnostics y.diagnostics
  failing : ∀ f, x.result = .error f → y.result = .error f
  view : ∀ v, x.result = .ok v → ∃ v', y.result = .ok v' ∧ v.DropsOne message v'

/-- A change gives the property of the member a name that cannot be written, and no change before it
gives this property another name, or another property the name of the member. -/
def Bearer.Misnames (b : Bearer) (member : String) : Prop :=
  ∃ front o back name, b.overrides = front ++ o :: back ∧ o.name = member ∧ o.rename = some name ∧
    identifier name = .error (.invalid name) ∧
    ∀ d ∈ front, d.rename ≠ some member ∧ (d.name = member → d.rename = none)

namespace Customiser

variable {c : Customiser} {b : Bearer} {ps : List Property}

theorem apply_withoutAddition (named : b.name = c.config) {a : Addition} (ha : a ∈ b.additions)
    (bad : identifier a.name = .error (.invalid a.name)) :
    c.DropsOne (Failure.configuration c.target (.propertyName a.name)).message
      (c.apply (b.withoutAddition c.config a) ps) (c.apply b ps) := by
  obtain ⟨front, back, -, split, erased⟩ := List.exists_erase_eq ha
  have dropped : c.DropsOne (Failure.configuration c.target (.propertyName a.name)).message
      (c.apply { b with additions := front ++ back } ps)
      (c.apply { b with additions := front ++ a :: back } ps) :=
    c.apply_addition_dropped b ps bad
  rw [← erased, ← split] at dropped
  rw [Bearer.withoutAddition, if_pos (beq_iff_eq.2 named)]
  exact dropped

theorem apply_misnamed {n : String} (misnames : b.Misnames n)
    (once : (ps.map (·.name)).count n = 1)
    (known : ∀ p ∈ ps, (c.source.member? p.name).isSome = true)
    (goes : (c.apply b ps).aborted = none) :
    ∃ message, c.DropsOne message (c.apply b (ps.filter (·.name != n))) (c.apply b ps) := by
  obtain ⟨front, o, back, name, overrides, rfl, renames, bad, free⟩ := misnames
  obtain ⟨l, p, rest, rfl, named, others, left⟩ := Property.only_named once
  rw [left]
  have known := known p (List.mem_append_right l List.mem_cons_self)
  rw [named] at known
  exact c.apply_rename_dropped overrides renames bad free known named others goes

end Customiser

namespace Round

variable {r : Round} {bearer : Bearer} {request : ViewRequest} {source : SourceType}
  {ps ps' : List Property} {excludes : List String} {edit : Bearer → Bearer} {b : Bearer}
  {message : String}

theorem resolveView_of_starting (viewable : r.viewable bearer request = .ok source)
    (starting : r.startingProperties bearer request source = .ok ps) :
    r.resolveView bearer request =
      { result := r.assemble bearer request source (r.customised bearer request source ps)
        diagnostics := (r.customised bearer request source ps).diagnostics } := by
  unfold resolveView
  rw [viewable]
  dsimp only
  rw [starting]

theorem assemble_dropsOne {c : Customiser} {s t : Customised} (h : c.DropsOne message s t) :
    (∀ f, (r.editing edit).assemble bearer { request with excludes } source s = .error f →
        r.assemble bearer request source t = .error f) ∧
      ∀ v, (r.editing edit).assemble bearer { request with excludes } source s = .ok v →
        ∃ v', r.assemble bearer request source t = .ok v' ∧ v.DropsOne message v' := by
  unfold assemble
  rw [h.properties, h.aborted]
  dsimp only
  split
  · exact ⟨fun f same => same, fun v made => by cases made⟩
  · split
    · exact ⟨fun f same => same, fun v made => by cases made⟩
    · refine ⟨fun f bad => (by cases bad), fun v made => ⟨_, rfl, ?_⟩⟩
      obtain rfl := Except.ok.inj made
      exact View.Resembles.dropsOne ⟨request.excludes, t.errors, rfl⟩ h.errors

/-- Changes that take a text for an identifier which is none leave no view. -/
theorem aborted_of_resolveView (viewable : r.viewable bearer request = .ok source)
    (starting : r.startingProperties bearer request source = .ok ps)
    (goes : ∀ text, (r.resolveView bearer request).result ≠ .error (.abort text)) :
    (r.customised bearer request source ps).aborted = none := by
  rw [resolveView_of_starting viewable starting] at goes
  cases halted : (r.customised bearer request source ps).aborted with
  | none => rfl
  | some text =>
    have goes := goes text
    unfold assemble at goes
    rw [halted] at goes
    exact absurd rfl goes

theorem resolveView_dropsOne (keeps : ∀ b, (edit b).name = b.name)
    (viewable : r.viewable bearer request = .ok source)
    (starting : r.startingProperties bearer request source = .ok ps)
    (starting' : (r.editing edit).startingProperties bearer { request with excludes } source =
      .ok ps')
    (found : r.configBearer? (request.config.resolve bearer.name) = some b)
    (dropped : (r.customiser bearer request source).DropsOne message
      ((r.customiser bearer request source).apply (edit b) ps')
      ((r.customiser bearer request source).apply b ps)) :
    Resolved.DropsOne (request.config.resolve bearer.name) (request.target.resolve bearer.name)
      message ((r.editing edit).resolveView bearer { request with excludes })
      (r.resolveView bearer request) := by
  have found' : (r.editing edit).configBearer? (request.config.resolve bearer.name) =
      some (edit b) := by
    rw [configBearer?_editing keeps, found]
    rfl
  have customised : r.customised bearer request source ps =
      (r.customiser bearer request source).apply b ps := by
    rw [customised_eq, found]
  have customised' : (r.editing edit).customised bearer { request with excludes } source ps' =
      (r.customiser bearer request source).apply (edit b) ps' := by
    rw [customised_eq]
    dsimp only
    rw [found']
    rfl
  rw [resolveView_of_starting viewable starting,
    resolveView_of_starting ((viewable_editing keeps excludes).trans viewable) starting',
    customised, customised']
  exact ⟨dropped.diagnostics, (assemble_dropsOne dropped).1, (assemble_dropsOne dropped).2⟩

end Round

/-- Let the names of some properties of a view be refused as identifiers. A change that gives such a
name drops the property that it reaches, and an addition of such a name is dropped as well, each
with one error. The request comes to what it would come to without the addition, or without the
property of the member, if the view shows one member of this name and no change before has given its
property another name or another property this one, and no other change ends the run. All that is
left with such a name are members under their own names, and for the first of them the whole view
fails. -/
theorem Round.unwritable_names (r : Round) (bearer : Bearer) (request : ViewRequest) :
    let target := request.target.resolve bearer.name
    let config := request.config.resolve bearer.name
    (∀ source o name, o.rename = some name → identifier name = .error (.invalid name) →
      (r.customiser bearer request source).Discards o) ∧
    (∀ source ps b, r.viewable bearer request = .ok source →
      r.startingProperties bearer request source = .ok ps → r.configBearer? config = some b →
      (∀ a ∈ b.additions, identifier a.name = .error (.invalid a.name) →
        Resolved.DropsOne config target
          (Failure.configuration target (.propertyName a.name)).message
          ((r.editing (·.withoutAddition config a)).resolveView bearer request)
          (r.resolveView bearer request)) ∧
      ((∀ text, (r.resolveView bearer request).result ≠ .error (.abort text)) →
        ∀ n, b.Misnames n → (ps.map (·.name)).count n = 1 →
          ∃ message, Resolved.DropsOne config target message
            ((r.editing (·.excluding target config n)).resolveView bearer (request.excluding n))
            (r.resolveView bearer request))) ∧
    ∀ v, (r.resolveView bearer request).result = .ok v →
      (∀ p ∈ v.properties, identifier? p.name = none → p.origin? = some p.name) ∧
      (∀ name, Slot.ofProperties v.properties = .error (.invalid name) ↔
        ∃ p, v.properties.find? (·.unwritable) = some p ∧
          identifier p.name = .error (.invalid name) ∧ p.name = name) ∧
      ∀ name, Slot.ofProperties v.properties = .error (.invalid name) → ∀ derives,
        (Renderer.ofDerives derives).view v = .error (.render v.name (.identifier name)) := by
  intro target config
  refine ⟨fun source o name => Customiser.discards_of_renamed,
    fun source ps b viewable starting found =>
      ⟨fun a ha bad => ?_, fun goes n misnames once => ?_⟩,
    fun v resolved => ⟨fun p hp => origin_of_unwritable resolved hp, fun name => ?_,
      fun name => Renderer.view_of_refused⟩⟩
  · have named : b.name = config := by simpa using List.find?_some found
    have starting' := (startingProperties_withoutAddition config a).trans starting
    exact resolveView_dropsOne (Bearer.withoutAddition_name config a) viewable starting starting'
      found (Customiser.apply_withoutAddition named ha bad)
  · have customised : r.customised bearer request source ps =
        (r.customiser bearer request source).apply b ps := by
      rw [customised_eq, found]
    obtain ⟨message, dropped⟩ := Customiser.apply_misnamed
      (c := r.customiser bearer request source) misnames once
      (fun p => member?_of_starting starting)
      (customised ▸ aborted_of_resolveView viewable starting goes)
    exact ⟨message, resolveView_dropsOne (fun _ => rfl) viewable starting
      (startingProperties_excluding starting n) found dropped⟩
  · rw [Slot.ofProperties_error_iff]
    refine exists_congr fun p => and_congr_right' ?_
    rw [MemberNames.ofName_invalid_iff]
    exact (and_iff_left_of_imp fun bad => (identifier_invalid bad).symm).symm

/-- A further property of a person under a name that cannot be written. -/
def fullName : Addition where
  name := "full-name"
  function := {
    container := ⟨["crate"], "Person"⟩
    name := "full"
    params := []
    result := .path (.ofNames ["String"]) }

/-- Gives such a name to the nickname as well. -/
def hyphenated : Bearer := { nicknamed "nick-name" with additions := [fullName] }

def enrolment : Round := { register "nick-name" with bearers := [hyphenated] }

/-- Both are dropped, each with its message, and the record has the other name. -/
theorem hyphenated_dropped :
    let person : TypeName := ⟨["crate"], "Person"⟩
    fullName ∈ hyphenated.additions ∧
      identifier fullName.name = .error (.invalid "full-name") ∧
      hyphenated.Misnames "nick" ∧
      Resolved.DropsOne person person
        (Failure.configuration person (.propertyName "full-name")).message
        ((enrolment.editing (·.withoutAddition person fullName)).resolveView hyphenated bothNames)
        (enrolment.resolveView hyphenated bothNames) ∧
      (∃ message, Resolved.DropsOne person person message
        ((enrolment.editing (·.excluding person person "nick")).resolveView hyphenated
          (bothNames.excluding "nick"))
        (enrolment.resolveView hyphenated bothNames)) ∧
      ∃ v, (enrolment.resolveView hyphenated bothNames).result = .ok v ∧
        v.errors = ["nick-name", "full-name"].map
          (fun name => (Failure.configuration person (.propertyName name)).message) ∧
        ∃ g, GeneratedRecord.ofView v = .ok g ∧ g.fields.map (·.1) = ["name"] := by
  intro person
  have bad : identifier fullName.name = .error (.invalid "full-name") := rfl
  have misnames : hyphenated.Misnames "nick" :=
    ⟨[], _, [], "nick-name", rfl, rfl, rfl, rfl, by simp⟩
  obtain ⟨-, dropped, -⟩ := enrolment.unwritable_names hyphenated bothNames
  obtain ⟨addition, rename⟩ := dropped _ _ hyphenated rfl rfl rfl
  exact ⟨List.mem_cons_self, bad, misnames, addition fullName List.mem_cons_self bad,
    rename nofun "nick" misnames (by decide), _, rfl, by decide, _, rfl, by decide⟩

def hyphenNames : ViewRequest where
  includes := ["nick-name", "name"]

def hyphenPerson : Bearer where
  name := ⟨["crate"], "Person"⟩
  requests := [hyphenNames]

def hyphenRecord : Round where
  library := { leading := true, segments := [{ name := "view_synth" }] }
  model := ⟨[{
    name := ⟨["crate"], "Person"⟩
    members := [
      .field "nick-name" (.path (.ofNames ["String"])),
      .field "name" (.path (.ofNames ["String"]))] }]⟩
  bearers := [hyphenPerson]

/-- The member is not dropped and nothing is written. If it is not asked for, a record is. -/
theorem hyphen_member_fails :
    (∃ v, (hyphenRecord.resolveView hyphenPerson hyphenNames).result = .ok v ∧
      v.properties.map (·.name) = ["nick-name", "name"] ∧ v.errors = [] ∧
      (Renderer.ofDerives []).view v = .error (.render v.name (.identifier "nick-name"))) ∧
    ∃ v, ((hyphenRecord.editing (·.excluding hyphenPerson.name hyphenPerson.name
        "nick-name")).resolveView hyphenPerson (hyphenNames.excluding "nick-name")).result = .ok v ∧
      ∃ tokens, (Renderer.ofDerives []).view v = .ok tokens :=
  ⟨⟨_, rfl, by decide, rfl, rfl⟩, _, rfl, _, rfl⟩

end RecordViews
