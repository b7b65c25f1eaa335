import RecordViews.Proofs.Contributions
import RecordViews.Proofs.Parameters

/-! Bearers of several units in one. They are sorted by a stable sort, so the bearers of one name
stand in the order of their units, and a round takes changes from the first. Within a unit no two
bearers share a name, and nothing unites those of two units. -/

namespace RecordViews

open Grammar (Item Path)

namespace TypeName

variable {α : Type} {key : α → TypeName}

theorem not_before_self (n : TypeName) : n.before n = false := by
  simp [before]

section Sorting

variable (key)

theorem sorts_trans (a b c : α) (h : (!(key b).before (key a)) = true)
    (h' : (!(key c).before (key b)) = true) : (!(key c).before (key a)) = true := by
  simp only [before, Bool.not_eq_true', decide_eq_false_iff_not, String.not_lt] at h h' ⊢
  exact String.le_trans h h'

theorem sorts_total (a b : α) :
    (!(key b).before (key a) || !(key a).before (key b)) = true := by
  simp only [before, Bool.or_eq_true, Bool.not_eq_true', decide_eq_false_iff_not, String.not_lt]
  exact String.le_total _ _

theorem sortBy_perm (l : List α) : (sortBy key l).Perm l :=
  List.mergeSort_perm l _

theorem sortBy_sorted (l : List α) :
    (sortBy key l).Pairwise fun a b => (key b).before (key a) = false := by
  have sorted := List.pairwise_mergeSort (sorts_trans key) (sorts_total key) l
  exact sorted.imp fun h => by simpa using h

/-- Elements of one name keep their order. -/
theorem filter_sortBy (n : TypeName) (l : List α) :
    (sortBy key l).filter (key · == n) = l.filter (key · == n) := by
  have level : (l.filter (key · == n)).Pairwise fun a b => (!(key b).before (key a)) = true := by
    refine List.pairwise_of_forall_mem_list fun a ha b hb => ?_
    rw [eq_of_beq (List.mem_filter.1 ha).2, eq_of_beq (List.mem_filter.1 hb).2, not_before_self]
    rfl
  have kept : (l.filter (key · == n)).Sublist (sortBy key l) :=
    List.sublist_mergeSort (sorts_trans key) (sorts_total key) level List.filter_sublist
  have inside : (l.filter (key · == n)).Sublist ((sortBy key l).filter (key · == n)) := by
    simpa [List.filter_filter] using kept.filter (key · == n)
  -- nothing else of this name can stand between them
  exact (inside.eq_of_length ((sortBy_perm key l).filter _).length_eq.symm).symm

end Sorting

end TypeName

/-- Everything that the bearer carries, another one carries as it is. -/
structure Bearer.Within (b c : Bearer) : Prop where
  requests : b.requests ⊆ c.requests
  metas : b.metas ⊆ c.metas
  overrides : b.overrides ⊆ c.overrides
  additions : b.additions ⊆ c.additions

theorem Bearer.Within.refl (b : Bearer) : b.Within b :=
  ⟨List.Subset.refl _, List.Subset.refl _, List.Subset.refl _, List.Subset.refl _⟩

namespace SourceUnit

variable {u : SourceUnit} {units : List SourceUnit}

/-- The bearers are distinct by name, as those that a file is read to are. -/
theorem ofFile_distinct {locate : Nat → Location} {scope : Scope} {items : List Item}
    (h : ofFile locate scope items = .ok u) : (u.bearers.map (·.name)).Nodup := by
  rw [(ofFindings_ok h).2]
  refine List.Nodup.of_map TypeName.text ?_
  rw [List.map_map]
  exact Finding.bearers_distinct _

/-- The bearers of one name, in the order of their units. -/
theorem filter_merged (n : TypeName) (units : List SourceUnit) (u : SourceUnit) :
    (units.foldl merge u).bearers.filter (·.name == n) =
      (u.bearers ++ units.flatMap (·.bearers)).filter (·.name == n) := by
  induction units generalizing u with
  | nil => simp
  | cons v rest ih =>
    rw [List.foldl_cons, ih, merge, List.filter_append, TypeName.filter_sortBy]
    simp

theorem merged_perm (units : List SourceUnit) (u : SourceUnit) :
    (units.foldl merge u).bearers.Perm (u.bearers ++ units.flatMap (·.bearers)) := by
  induction units generalizing u with
  | nil => simp
  | cons v rest ih =>
    rw [List.foldl_cons, List.flatMap_cons, ← List.append_assoc]
    exact (ih _).trans ((TypeName.sortBy_perm _ _).append_right _)

theorem merged_sorted (units : List SourceUnit)
    (h : u.bearers.Pairwise fun a b => b.name.before a.name = false) :
    (units.foldl merge u).bearers.Pairwise fun a b => b.name.before a.name = false := by
  induction units generalizing u with
  | nil => exact h
  | cons v rest ih => exact ih (TypeName.sortBy_sorted _ _)

/-- The names of the bearers of all units are distinct if no two units share one. -/
theorem merged_distinct_iff (own : ∀ u ∈ units, (u.bearers.map (·.name)).Nodup) :
    ((units.foldl merge {}).bearers.map (·.name)).Nodup ↔
      units.Pairwise fun u v => ∀ b ∈ u.bearers, ∀ c ∈ v.bearers, b.name ≠ c.name := by
  have perm := (merged_perm units {}).map (·.name)
  rw [perm.nodup_iff, List.nil_append, List.map_flatMap, List.nodup_flatMap]
  refine ⟨fun h => ?_, fun h => ⟨own, ?_⟩⟩
  · refine h.2.imp fun {u v} apart b hb c hc same => ?_
    exact apart (List.mem_map_of_mem hb) (same ▸ List.mem_map_of_mem hc)
  · refine h.imp fun {u v} apart n hu hv => ?_
    obtain ⟨b, hb, rfl⟩ := List.mem_map.1 hu
    obtain ⟨c, hc, same⟩ := List.mem_map.1 hv
    exact apart b hb c hc same.symm

/-- The first bearer of a name is that of the first unit that has one. -/
theorem find?_merged (n : TypeName) (units : List SourceUnit) :
    (units.foldl merge {}).bearers.find? (·.name == n) =
      (units.flatMap (·.bearers)).find? (·.name == n) := by
  rw [← List.head?_filter, ← List.head?_filter, filter_merged, List.nil_append]

/-- The bearers of files, merged, are sorted, and changes are taken from the bearer of the first
file that has one of the name. So everything in the files applies exactly if no two of them have a
bearer of the same name. -/
theorem merged_bearers {r : Round}
    (read : ∀ u ∈ units, ∃ locate scope items, ofFile locate scope items = .ok u)
    (merged : r.bearers = (units.foldl merge {}).bearers) :
    r.bearers.Pairwise (fun a b => b.name.before a.name = false) ∧
      (∀ n, r.configBearer? n = (units.flatMap (·.bearers)).find? (·.name == n)) ∧
      ((r.bearers.map (·.name)).Nodup ∧
          (∀ u ∈ units, ∀ b ∈ u.bearers, ∃ c, r.configBearer? b.name = some c ∧ b.Within c) ↔
        units.Pairwise fun u v => ∀ b ∈ u.bearers, ∀ c ∈ v.bearers, b.name ≠ c.name) := by
  have own : ∀ u ∈ units, (u.bearers.map (·.name)).Nodup := by
    intro u hu
    obtain ⟨_, _, _, found⟩ := read u hu
    exact ofFile_distinct found
  have consulted (n : TypeName) :
      r.configBearer? n = (units.flatMap (·.bearers)).find? (·.name == n) := by
    rw [Round.configBearer?, merged, find?_merged]
  refine ⟨?_, consulted, ?_⟩
  · rw [merged]
    exact merged_sorted units List.Pairwise.nil
  rw [merged, ← merged_distinct_iff own]
  refine ⟨And.left, fun distinct => ⟨distinct, fun u hu b hb => ⟨b, ?_, Bearer.Within.refl b⟩⟩⟩
  rw [(merged_perm units {}).map (·.name) |>.nodup_iff, List.nil_append] at distinct
  rw [consulted, List.find?_eq_some_iff_append]
  obtain ⟨before, after, split⟩ := List.append_of_mem (List.mem_flatMap.2 ⟨u, hu, hb⟩)
  refine ⟨by simp, before, after, split, fun a ha => ?_⟩
  rw [split, List.map_append, List.nodup_append] at distinct
  have := distinct.2.2 a.name (List.mem_map_of_mem ha) b.name (by simp)
  simpa using this

def personFile : List Item := [
  .record { (default : Grammar.RecordItem) with
    name := "Person"
    attributes := [{
      path := .ofNames ["view_of"]
      args := .list .paren (.ident "includes" :: Tokens.parens [.literal "\"name\""]) }] }]

def labelBlock (owner : String) : List Item := [
  .block { (default : Grammar.BlockItem) with
    selfType := .path (.ofNames ["crate", owner])
    members := [.function (labelFunction (.ofNames ["crate", owner]))] }]

def personBearer : Bearer where
  name := ⟨["crate"], "Person"⟩
  requests := [{ includes := ["name"] }]

def labelBearer (owner : String) : Bearer where
  name := ⟨["crate"], owner⟩
  additions := [{
    name := "label"
    function := .ofItem ⟨["crate"], owner⟩ (labelFunction (.ofNames ["crate", owner])) }]

def bothFiles (u v : SourceUnit) : Round :=
  { (default : Round) with bearers := ([u, v].foldl merge {}).bearers }

/-- A view is asked of one record, and a property is given to another. -/
theorem records_apart_apply :
    ∃ u v, ofFile (fun _ => ⟨1, 0⟩) ["crate"] personFile = .ok u ∧
      ofFile (fun _ => ⟨1, 0⟩) ["crate"] (labelBlock "Pet") = .ok v ∧
      ((bothFiles u v).bearers.map (·.name)).Nodup ∧
      ∃ c, (bothFiles u v).configBearer? ⟨["crate"], "Pet"⟩ = some c ∧
        (labelBearer "Pet").Within c := by
  obtain ⟨u, first, inFirst⟩ : ∃ u, ofFile (fun _ => ⟨1, 0⟩) ["crate"] personFile = .ok u ∧
      u.bearers = [personBearer] := ⟨_, rfl, rfl⟩
  obtain ⟨v, second, inSecond⟩ :
      ∃ v, ofFile (fun _ => ⟨1, 0⟩) ["crate"] (labelBlock "Pet") = .ok v ∧
      v.bearers = [labelBearer "Pet"] := ⟨_, rfl, rfl⟩
  have read : ∀ w ∈ [u, v], ∃ locate scope items, ofFile locate scope items = .ok w := by
    simp only [List.forall_mem_cons, List.not_mem_nil, false_implies, implies_true, and_true]
    exact ⟨⟨_, _, _, first⟩, ⟨_, _, _, second⟩⟩
  obtain ⟨-, -, all⟩ := merged_bearers (r := bothFiles u v) read rfl
  obtain ⟨distinct, held⟩ := all.2 (by simp [inFirst, inSecond, personBearer, labelBearer])
  exact ⟨u, v, first, second, distinct, held v (by simp) (labelBearer "Pet") (by simp [inSecond])⟩

/-- A view is asked of a record in one file, and a property is given to it in another: there are two
bearers of one name, and the property is in the one that no changes are taken from. -/
theorem shared_bearer_lost :
    ∃ u v, ofFile (fun _ => ⟨1, 0⟩) ["crate"] personFile = .ok u ∧
      ofFile (fun _ => ⟨1, 0⟩) ["crate"] (labelBlock "Person") = .ok v ∧
      v.bearers = [labelBearer "Person"] ∧
      ¬ ((bothFiles u v).bearers.map (·.name)).Nodup ∧
      ¬ ∃ c, (bothFiles u v).configBearer? (labelBearer "Person").name = some c ∧
        (labelBearer "Person").Within c := by
  obtain ⟨u, first, inFirst⟩ : ∃ u, ofFile (fun _ => ⟨1, 0⟩) ["crate"] personFile = .ok u ∧
      u.bearers = [personBearer] := ⟨_, rfl, rfl⟩
  obtain ⟨v, second, inSecond⟩ : ∃ v, ofFile (fun _ => ⟨1, 0⟩) ["crate"] (labelBlock "Person") =
      .ok v ∧ v.bearers = [labelBearer "Person"] := ⟨_, rfl, rfl⟩
  have perm := (merged_perm [u, v] {}).map (·.name)
  refine ⟨u, v, first, second, inSecond, ?_, ?_⟩
  · intro distinct
    have := perm.nodup_iff.1 distinct
    simp [inFirst, inSecond, personBearer, labelBearer] at this
  · rintro ⟨c, consulted, within⟩
    rw [Round.configBearer?, bothFiles, find?_merged] at consulted
    simp only [List.flatMap_cons, inFirst] at consulted
    obtain rfl := Option.some.inj consulted
    exact absurd (within.additions List.mem_cons_self) List.not_mem_nil

end SourceUnit

end RecordViews
