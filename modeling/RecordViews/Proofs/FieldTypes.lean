import RecordViews.Proofs.FieldNames
import RecordViews.Proofs.Paths
import RecordViews.Proofs.Pipeline
import RecordViews.Source.Unit

/-! The types of fields that are read from members as they are. Such a field has the type that the
member is declared with, and the type is printed as it is written there. So a path in it is read in
the module of the view, where `Self` is the view, and stands for what it does in the module of the
record exactly if it keeps its meaning between the two. -/

namespace RecordViews

open Grammar (Path Ty)

/-- The value is read from a member and shown as it is. -/
structure Property.ShownAsRead (p : Property) : Prop where
  read : p.explicit = none
  converter : p.converter = none
  view : p.view = none

namespace Customiser

variable {c : Customiser} {o : Override} {p q : Property} {os : List Override}

theorem shown_of_pipeline (h : q.pipeline = p.pipeline) (shown : q.ShownAsRead) :
    p.ShownAsRead ∧ q.ty = p.ty := by
  have explicit : q.explicit = p.explicit := congrArg Pipeline.explicit h
  have converter : q.converter = p.converter := congrArg Pipeline.converter h
  have view : q.view = p.view := congrArg Pipeline.view h
  exact ⟨⟨explicit ▸ shown.read, converter ▸ shown.converter, view ▸ shown.view⟩,
    congrArg Pipeline.ty h⟩

theorem changeExtractor_shown (h : c.changeExtractor o p = .ok q) (shown : q.ShownAsRead) :
    q = p := by
  rcases changeExtractor_cases h with ⟨-, rfl⟩ | ⟨s, -, rfl⟩
  · rfl
  · cases shown.read

theorem changeConverter_shown (h : c.changeConverter o p = .ok q) (shown : q.ShownAsRead) :
    q = p := by
  rcases changeConverter_cases h with ⟨-, rfl⟩ | ⟨k, -, -, -, rfl⟩
  · rfl
  · cases shown.converter

theorem changeView_shown (h : c.changeView o p = .ok q) (shown : q.ShownAsRead) : q = p := by
  rcases changeView_cases h with ⟨-, rfl⟩ | ⟨view, ty, -, -, -, rfl⟩
  · rfl
  · cases shown.view

/-- A change that leaves a property shown as it is read found it so, and keeps its type. -/
theorem change_shown (h : c.change o p = .ok q) (shown : q.ShownAsRead) :
    p.ShownAsRead ∧ q.ty = p.ty := by
  obtain ⟨p₁, p₂, p₃, p₄, start, extractor, converter, view, finish⟩ := change_pipeline h
  obtain ⟨shown, ty⟩ := shown_of_pipeline finish shown
  obtain rfl := changeView_shown view shown
  obtain rfl := changeConverter_shown converter shown
  obtain rfl := changeExtractor_shown extractor shown
  obtain ⟨shown, ty'⟩ := shown_of_pipeline start shown
  exact ⟨shown, ty.trans ty'⟩

/-- So do all the changes that are made to a property. -/
theorem Made.shown (made : c.Made p os q) (shown : q.ShownAsRead) :
    p.ShownAsRead ∧ q.ty = p.ty ∧ q.source = p.source := by
  induction made with
  | start => exact ⟨shown, rfl, rfl⟩
  | more o before named change ih =>
    obtain ⟨shown, ty⟩ := change_shown change shown
    obtain ⟨start, ty', source⟩ := ih shown
    exact ⟨start, ty.trans ty', (change_keeps change).1.trans source⟩

end Customiser

namespace Round

variable {r : Round} {bearer : Bearer} {request : ViewRequest} {v : View}

theorem viewable_ok {source : SourceType} (h : r.viewable bearer request = .ok source) :
    r.model.find? (request.target.resolve bearer.name) = some source := by
  obtain ⟨_, -, h⟩ := bind_ok_iff.1 h
  split at h
  · cases h
  · rename_i found
    -- three more checks, none of which changes what is found
    split at h
    · cases h
    · split at h
      · cases h
      · split at h
        · cases h
        · cases h
          exact found

/-- A property that is shown as it is read is that of a member of the record that is viewed, with
the type that the member is declared with. -/
theorem resolved_shown (h : (r.resolveView bearer request).result = .ok v) {p : Property}
    (hp : p ∈ v.properties) (shown : p.ShownAsRead) :
    ∃ source m, r.model.find? v.target = some source ∧ m ∈ source.members ∧
      p.source = some m ∧ p.ty = m.ty := by
  obtain ⟨source, ps, viewable, -, assembled⟩ := resolveView_assembles h
  have target : v.target = request.target.resolve bearer.name :=
    congrArg View.target (assemble_ok assembled).2.2
  rw [resolveView_traced h] at hp
  obtain ⟨t, ht, rfl⟩ := List.mem_map.1 hp
  rcases traced_of_viewable viewable ht with ⟨-, m, hm, made⟩ | ⟨-, a, made⟩
  · obtain ⟨-, ty, origin⟩ := made.shown shown
    exact ⟨source, m, target ▸ viewable_ok viewable, hm, origin, ty⟩
  · rw [Customiser.newProperty_ok made] at shown
    cases shown.read

end Round

namespace GeneratedRecord

variable {v : View} {g : GeneratedRecord} {slots : List Slot}

theorem Writes.field (w : g.Writes v slots) {p : Property} (hp : p ∈ v.properties) :
    ∃ field, identifier? p.name = some field ∧ (field, p.ty) ∈ g.fields := by
  rw [← w.properties] at hp
  obtain ⟨s, hs, rfl⟩ := List.mem_map.1 hp
  refine ⟨s.names.field, w.identifier hs, ?_⟩
  rw [w.fields]
  exact List.mem_map_of_mem hs

theorem field_printed {f : String × Ty} (h : f ∈ g.fields) (derives : List Path) :
    typedField f <:+: g.tokens derives := by
  have part : typedField f ++ Tokens.comma ∈ (g.fields.map typedField).map (· ++ Tokens.comma) :=
    List.mem_map_of_mem (List.mem_map_of_mem h)
  have inside : typedField f <:+: Tokens.commaTerminated (g.fields.map typedField) :=
    (List.prefix_append _ _).isInfix.trans (List.infix_of_mem_flatten part)
  have body : typedField f <:+: Tokens.braces (Tokens.commaTerminated (g.fields.map typedField)) :=
    List.infix_append_of_infix_left (List.infix_cons inside)
  unfold tokens
  -- five more parts are printed behind the fields
  iterate 5 refine List.infix_append_of_infix_left ?_
  exact List.infix_append_of_infix_right (List.infix_cons body)

end GeneratedRecord

/-- A property that is shown as it is read has a field with the type that its member is declared
with, printed as it is written. At every place in this type, a path that stands for some record in
the target stands for the same one in the view exactly if it keeps its meaning between the two. -/
theorem Round.field_types_keep_iff {r : Round} {bearer : Bearer} {request : ViewRequest} {v : View}
    {derives : List Path} {tokens : Tokens} {p : Property}
    (resolved : (r.resolveView bearer request).result = .ok v)
    (rendered : (Renderer.ofDerives derives).view v = .ok tokens)
    (hp : p ∈ v.properties) (shown : p.ShownAsRead) :
    ∃ source m field, r.model.find? v.target = some source ∧ m ∈ source.members ∧
      p.source = some m ∧ identifier? p.name = some field ∧
      ∀ (front : Tokens) (path : Path) (back : Tokens) (n : TypeName),
        m.ty.tokens = front ++ path.tokens ++ back →
        path.meaning? v.target.site = some n →
        (.ident field :: .punct ':' false :: (front ++ path.tokens ++ back)) <:+: tokens ∧
          (path.meaning? v.name.site = some n ↔ path.Keeps v.target.site v.name.site) := by
  obtain ⟨source, m, found, member, origin, ty⟩ := resolved_shown resolved hp shown
  obtain ⟨g, made, rfl⟩ := map_ok_iff.1 rendered
  obtain ⟨slots, w⟩ := GeneratedRecord.ofView_writes made
  obtain ⟨field, identifier, inside⟩ := w.field hp
  refine ⟨source, m, field, found, member, origin, identifier, ?_⟩
  intro front path back n typed meant
  have printed := GeneratedRecord.field_printed inside derives
  rw [typedField, ty, typed] at printed
  exact ⟨printed, Path.meaning?_iff_keeps meant⟩

open Grammar (Item ModuleHead RecordItem)

/-- Asks for a view of `home` in another module. -/
def viewHome : Grammar.Attribute where
  path := .ofNames ["view_of"]
  args := .list .paren [.ident "includes", .opening .paren, .literal "\"home\"", .closing .paren,
    .punct ',' false, .ident "gen_module", .punct '=' false, .literal "\"crate::b\""]

/-- Two modules with a home each, and a person in one of them whose home is of the given type. -/
def homeFile (ty : Path) : List Item := [
  .module { (default : ModuleHead) with name := "a" } [
    .record { (default : RecordItem) with name := "Home" },
    .record { (default : RecordItem) with
      name := "Person"
      attributes := [viewHome]
      fields := .named [{ (default : Grammar.Field) with name := "home", ty := .path ty }] false }],
  .module { (default : ModuleHead) with name := "b" } [
    .record { (default : RecordItem) with name := "Home" }]]

def homeRequest : ViewRequest where
  includes := ["home"]
  genModule := some ["crate", "b"]

def homeBearer : Bearer where
  name := ⟨["crate", "a"], "Person"⟩
  requests := [homeRequest]

def homeUnit (ty : Path) : SourceUnit where
  model := ⟨[
    { name := ⟨["crate", "a"], "Home"⟩, members := [] },
    { name := ⟨["crate", "a"], "Person"⟩,
      members := [{ Member.field "home" (.path ty) with modifier := .module }] },
    { name := ⟨["crate", "b"], "Home"⟩, members := [] }]⟩
  bearers := [homeBearer]
  places := [(⟨["crate", "a"], "Person"⟩, ⟨1, 0⟩)]

theorem homeFile_read : ∀ ty ∈ [Path.ofNames ["Home"], .ofNames ["super", "a", "Home"]],
    SourceUnit.ofFile (fun _ => ⟨1, 0⟩) ["crate"] (homeFile ty) = .ok (homeUnit ty) := by
  decide +kernel

def homeRound (ty : Path) : Round where
  library := { leading := true, segments := [{ name := "view_synth" }] }
  model := (homeUnit ty).model
  bearers := (homeUnit ty).bearers

/-- A path that climbs above both modules stands for one record in both. -/
theorem climbing_type_kept :
    ∃ v, ((homeRound (.ofNames ["super", "a", "Home"])).resolveView homeBearer homeRequest).result =
        .ok v ∧
      (Path.ofNames ["super", "a", "Home"]).meaning? v.target.site = some ⟨["crate", "a"], "Home"⟩ ∧
      (Path.ofNames ["super", "a", "Home"]).meaning? v.name.site =
        some ⟨["crate", "a"], "Home"⟩ := by
  obtain ⟨v, resolved, tokens, rendered, p, hp, shown, ty, target, name⟩ : ∃ v,
      ((homeRound (.ofNames ["super", "a", "Home"])).resolveView homeBearer homeRequest).result =
        .ok v ∧ ∃ tokens, (Renderer.ofDerives []).view v = .ok tokens ∧
      ∃ p ∈ v.properties, p.ShownAsRead ∧
        p.source.map (·.ty) = some (.path (.ofNames ["super", "a", "Home"])) ∧
        v.target = ⟨["crate", "a"], "Person"⟩ ∧ v.name = ⟨["crate", "b"], "PersonView"⟩ :=
    ⟨_, rfl, _, rfl, _, List.mem_cons_self, ⟨rfl, rfl, rfl⟩, rfl, rfl, rfl⟩
  obtain ⟨source, m, field, -, -, origin, -, same⟩ :=
    Round.field_types_keep_iff resolved rendered hp shown
  refine ⟨v, resolved, ?_⟩
  rw [origin, Option.map_some, Option.some.injEq] at ty
  rw [ty, target, name] at same
  rw [target, name]
  have meant : (Path.ofNames ["super", "a", "Home"]).meaning?
      (TypeName.site ⟨["crate", "a"], "Person"⟩) = some ⟨["crate", "a"], "Home"⟩ := by decide
  obtain ⟨-, kept⟩ := same [] _ [] _ (List.append_nil _).symm meant
  exact ⟨meant, kept.2 (by decide)⟩

/-- A path that starts in the module of the record stands for another record in that of the
view. -/
theorem local_type_changed :
    SourceUnit.ofFile (fun _ => ⟨1, 0⟩) ["crate"] (homeFile (.ofNames ["Home"])) =
        .ok (homeUnit (.ofNames ["Home"])) ∧
      ∃ v, ((homeRound (.ofNames ["Home"])).resolveView homeBearer homeRequest).result = .ok v ∧
        ∃ g : GeneratedRecord, (Renderer.ofDerives []).view v = .ok (g.tokens []) ∧
          g.fields = [("home", .path (.ofNames ["Home"]))] ∧
          (Path.ofNames ["Home"]).meaning? v.target.site = some ⟨["crate", "a"], "Home"⟩ ∧
          (Path.ofNames ["Home"]).meaning? v.name.site = some ⟨["crate", "b"], "Home"⟩ :=
  ⟨homeFile_read _ List.mem_cons_self, _, rfl, _, rfl, rfl, by decide, by decide⟩

end RecordViews
