import RecordViews.Proofs.Customising
import RecordViews.Proofs.DiscoveryOrder

/-! Rounds that ask for less: for the members of one name less, or for one addition less. The
request is read as before, the members that it chooses are those of another name, and no other
bearer has a part in it. -/

namespace RecordViews

def ViewRequest.excluding (request : ViewRequest) (name : String) : ViewRequest :=
  { request with excludes := request.excludes ++ [name] }

namespace Selection

theorem accepts_excluding (rs : List ViewRequest) (name m : String) :
    (together {} (rs.map (·.excluding name))).accepts m =
      ((together {} rs).accepts m && m != name) := by
  have excludes (r : ViewRequest) : Excludes (r.excluding name) m ↔ Excludes r m ∨ m = name := by
    unfold Excludes Mentions ViewRequest.excluding
    rw [List.mem_append, List.mem_singleton, or_right_comm]
  have mapped (P : ViewRequest → Prop) :
      (∃ r ∈ rs.map (·.excluding name), P r) ↔ ∃ r ∈ rs, P (r.excluding name) := by
    simp only [List.mem_map, exists_exists_and_eq_and]
  rw [Bool.eq_iff_iff, Bool.and_eq_true, accepts_together_iff, accepts_together_iff, bne_iff_ne,
    mapped, mapped, and_assoc]
  refine and_congr_right fun included => ?_
  obtain ⟨r, hr, -⟩ := included
  simp only [excludes]
  constructor
  · intro none
    exact ⟨fun ⟨r, hr, out⟩ => none ⟨r, hr, Or.inl out⟩, fun same => none ⟨r, hr, Or.inr same⟩⟩
  · rintro ⟨none, other⟩ ⟨r, hr, out | same⟩
    · exact none ⟨r, hr, out⟩
    · exact other same

end Selection

theorem baseProperties_excluding {source : SourceType} {rs : List ViewRequest}
    {winner : ViewRequest} {ps : List Property} (h : baseProperties source rs winner = .ok ps)
    (name : String) :
    baseProperties source (rs.map (·.excluding name)) (winner.excluding name) =
      .ok (ps.filter (·.name != name)) := by
  obtain ⟨selection, read, h⟩ := bind_ok_iff.1 h
  have readable : ∀ r ∈ rs, Selection.Readable r := by
    intro r hr
    by_contra bad
    obtain ⟨f, hf⟩ := Selection.ofRequests_of_not_readable hr bad
    rw [hf] at read
    cases read
  have readable' : ∀ r ∈ rs.map (·.excluding name), Selection.Readable r := by
    rw [List.forall_mem_map]
    exact readable
  rw [Selection.ofRequests_of_readable readable] at read
  obtain rfl := Except.ok.inj read
  obtain rfl := Except.ok.inj h
  unfold baseProperties
  rw [Selection.ofRequests_of_readable readable', List.filter_map, List.filter_filter]
  refine congrArg (fun ms => Except.ok (List.map _ ms)) (List.filter_congr fun m _ => ?_)
  rw [Selection.accepts_excluding, Bool.and_comm]
  rfl

/-- Without the only property of a name, those on both sides of it are left. -/
theorem Property.only_named {ps : List Property} {n : String}
    (once : (ps.map (·.name)).count n = 1) :
    ∃ l p rest, ps = l ++ p :: rest ∧ p.name = n ∧ (∀ q ∈ l ++ rest, q.name ≠ n) ∧
      ps.filter (·.name != n) = l ++ rest := by
  have mem : n ∈ ps.map (·.name) := List.count_pos_iff.1 (by omega)
  obtain ⟨p, hp, rfl⟩ := List.mem_map.1 mem
  obtain ⟨l, rest, rfl⟩ := List.append_of_mem hp
  rw [List.map_append, List.map_cons, List.count_append, List.count_cons_self] at once
  have none : ((l ++ rest).map (·.name)).count p.name = 0 := by
    rw [List.map_append, List.count_append]
    omega
  have others : ∀ q ∈ l ++ rest, q.name ≠ p.name := fun q hq same =>
    List.count_eq_zero.1 none (same ▸ List.mem_map_of_mem hq)
  have left : (l ++ rest).filter (·.name != p.name) = l ++ rest :=
    List.filter_eq_self.2 fun q hq => bne_iff_ne.2 (others q hq)
  refine ⟨l, p, rest, rfl, rfl, others, ?_⟩
  rw [List.filter_append, List.filter_cons_of_neg (by simp), ← List.filter_append, left]

namespace Bearer

/-- The bearer whose requests for the view are without the members of a name. -/
def excluding (target config : TypeName) (name : String) (b : Bearer) : Bearer :=
  { b with
    requests := b.requests.map fun r =>
      if r.target.resolve b.name == target && r.config.resolve b.name == config then
        r.excluding name
      else r }

/-- The bearer of a name without one of its additions. -/
def withoutAddition (config : TypeName) (a : Addition) (b : Bearer) : Bearer :=
  if b.name == config then { b with additions := b.additions.erase a } else b

theorem withoutAddition_name (config : TypeName) (a : Addition) (b : Bearer) :
    (b.withoutAddition config a).name = b.name := by
  unfold withoutAddition
  split <;> rfl

theorem withoutAddition_requests (config : TypeName) (a : Addition) (b : Bearer) :
    (b.withoutAddition config a).requests = b.requests := by
  unfold withoutAddition
  split <;> rfl

end Bearer

theorem contributing_excluding (bearers : List Bearer) (target config : TypeName) (name : String) :
    contributing (bearers.map (·.excluding target config name)) target config =
      (contributing bearers target config).map (·.excluding name) := by
  rw [contributing, contributing, List.flatMap_map, List.map_flatMap]
  refine List.flatMap_congr fun b _ => ?_
  have same : (fun r : ViewRequest => r.target.resolve b.name == target &&
      r.config.resolve b.name == config) ∘ (fun r => if r.target.resolve b.name == target &&
      r.config.resolve b.name == config then r.excluding name else r) =
      fun r => r.target.resolve b.name == target && r.config.resolve b.name == config := by
    funext r
    rw [Function.comp_apply]
    split <;> rfl
  rw [Bearer.excluding, List.filter_map, same]
  refine List.map_congr_left fun r hr => ?_
  rw [if_pos (List.mem_filter.1 hr).2]

theorem contributing_withoutAddition (bearers : List Bearer) (target config owner : TypeName)
    (a : Addition) :
    contributing (bearers.map (·.withoutAddition owner a)) target config =
      contributing bearers target config := by
  rw [contributing, contributing, List.flatMap_map]
  refine List.flatMap_congr fun b _ => ?_
  rw [Bearer.withoutAddition_name, Bearer.withoutAddition_requests]

namespace Round

variable {r : Round} {bearer : Bearer} {request : ViewRequest} {edit : Bearer → Bearer}

def editing (r : Round) (edit : Bearer → Bearer) : Round :=
  r.withBearers (r.bearers.map edit)

theorem configBearer?_editing (keeps : ∀ b, (edit b).name = b.name) (config : TypeName) :
    (r.editing edit).configBearer? config = (r.configBearer? config).map edit := by
  have same : (fun b : Bearer => b.name == config) ∘ edit = (·.name == config) := by
    funext b
    rw [Function.comp_apply, keeps]
  rw [configBearer?, configBearer?, editing, withBearers, List.find?_map, same]

theorem viewable_editing (keeps : ∀ b, (edit b).name = b.name) (excludes : List String) :
    (r.editing edit).viewable bearer { request with excludes } = r.viewable bearer request := by
  unfold viewable
  simp only [configBearer?_editing keeps, Option.isNone_map]
  rfl

variable {source : SourceType} {ps : List Property}

/-- Excluding a name takes the property of this name out at the start, and nothing else. -/
theorem startingProperties_excluding
    (starting : r.startingProperties bearer request source = .ok ps) (name : String) :
    (r.editing (·.excluding (request.target.resolve bearer.name)
        (request.config.resolve bearer.name) name)).startingProperties bearer
      (request.excluding name) source = .ok (ps.filter (·.name != name)) := by
  have excluded := baseProperties_excluding starting name
  rw [← contributing_excluding] at excluded
  exact excluded

theorem startingProperties_withoutAddition (config : TypeName) (a : Addition) :
    (r.editing (·.withoutAddition config a)).startingProperties bearer request source =
      r.startingProperties bearer request source := by
  unfold startingProperties
  dsimp only
  rw [editing, withBearers, contributing_withoutAddition]

theorem member?_of_starting (starting : r.startingProperties bearer request source = .ok ps)
    {p : Property} (hp : p ∈ ps) : (source.member? p.name).isSome = true := by
  obtain ⟨selection, -, made⟩ := bind_ok_iff.1 starting
  obtain rfl := Except.ok.inj made
  obtain ⟨m, hm, rfl⟩ := List.mem_map.1 hp
  rw [SourceType.member?, List.find?_isSome]
  exact ⟨m, (List.mem_filter.1 hm).1, beq_iff_eq.2 rfl⟩

end Round

end RecordViews
