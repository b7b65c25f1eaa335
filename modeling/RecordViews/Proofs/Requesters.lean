import RecordViews.Proofs.Accessors
import RecordViews.Proofs.TargetWords

/-! What asks for something among the items of a module. Requests are on records only, and the
records of a module come to light before its blocks of functions. So a bearer that asks for
something is called like a record of the module, even if a block adds to it, and the record that it
asks about is named by words. -/

namespace RecordViews

open Grammar (Item RecordItem)

namespace Grammar

/-- The name of the record and the identifiers of its attributes are words. -/
def RecordItem.isWorded (r : RecordItem) : Bool :=
  decide (Wordy r.name) && r.attributes.all Attribute.isWorded

/-- The names of records and the identifiers of their attributes are words, as in all items that are
read from a text. -/
def Item.isWorded : Item → Bool
  | .record r => r.isWorded
  | .block _ | .module .. | .other _ => true

end Grammar

/-- A request names its target by words. -/
def Contribution.Worded : Contribution → Prop
  | .view q => q.target.Worded
  | .metaType q => q.target.Worded
  | .override _ | .addition _ => True

def Contribution.isRequest : Contribution → Bool
  | .view _ | .metaType _ => true
  | .override _ | .addition _ => false

namespace Bearer

/-- Requests are carried under names of the module, and name their targets by words. -/
structure AsksIn (scope : Scope) (b : Bearer) : Prop where
  own : b.requests ≠ [] ∨ b.metas ≠ [] → b.name.module = scope
  views : ∀ q ∈ b.requests, q.target.Worded
  metas : ∀ q ∈ b.metas, q.target.Worded

namespace AsksIn

variable {scope : Scope} {b : Bearer} {c : Contribution}

theorem new (scope : Scope) (n : TypeName) : AsksIn scope { name := n } :=
  ⟨by simp, by simp, by simp⟩

theorem addTo (h : b.AsksIn scope) (worded : c.Worded)
    (own : c.isRequest = true → b.name.module = scope) : (c.addTo b).AsksIn scope := by
  cases c with
  | view q =>
    have views : ∀ q' ∈ b.requests ++ [q], q'.target.Worded :=
      List.forall_mem_append.2 ⟨h.views, List.forall_mem_singleton.2 worded⟩
    exact ⟨fun _ => own rfl, views, h.metas⟩
  | metaType q =>
    have metas : ∀ q' ∈ b.metas ++ [q], q'.target.Worded :=
      List.forall_mem_append.2 ⟨h.metas, List.forall_mem_singleton.2 worded⟩
    exact ⟨fun _ => own rfl, h.views, metas⟩
  | override o => exact ⟨h.own, h.views, h.metas⟩
  | addition a => exact ⟨h.own, h.views, h.metas⟩

end AsksIn

end Bearer

namespace Finding

variable {scope : Scope} {items : List Item} {n : TypeName} {place : Nat} {c : Contribution}

theorem worded_of_record {r : RecordItem} (hs : WordyScope scope) (h : r.isWorded = true)
    (found : .contribution n place c ∈ ofRecord scope r) :
    n.module = scope ∧ c.Worded := by
  have attributes := (Bool.and_eq_true_iff.1 h).2
  obtain ⟨rfl, a, ha, read⟩ := contribution_of_record found
  have worded := List.all_eq_true.1 attributes a ha
  refine ⟨rfl, ?_⟩
  rcases contribution?_ok read with ⟨q, made, rfl⟩ | ⟨o, -, rfl⟩ | ⟨q, made, rfl⟩
  · exact ViewRequest.ofAttribute_worded hs worded made
  · trivial
  · exact MetaRequest.ofAttribute_worded hs worded made

/-- Functions ask for nothing. -/
theorem not_request_of_block {b : Grammar.BlockItem}
    (found : .contribution n place c ∈ ofBlock scope b) : c.isRequest = false ∧ c.Worded := by
  obtain ⟨owner, f, -, found⟩ := contribution_of_block found
  obtain ⟨-, -, -, role, rfl⟩ := contribution_of_function found
  cases role <;> exact ⟨rfl, trivial⟩

theorem bearers_ask (hs : WordyScope scope) (h : ∀ i ∈ items, i.isWorded = true) :
    ∀ b ∈ bearers (ofModules [(scope, items)]), b.AsksIn scope := by
  rw [bearers_eq, ofModules, List.flatMap_singleton, List.flatMap_singleton, List.foldl_append]
  -- as long as there are only records, all bearers are called like records of the module
  have records : ∀ b ∈ (items.flatMap (ofRecordItem scope)).foldl addBearer [],
      b.AsksIn scope ∧ b.name.module = scope := by
    refine foldl_forall (P := fun b => b.AsksIn scope ∧ b.name.module = scope) ?_ (by simp)
    intro n place c found
    obtain ⟨i, hi, found⟩ := List.mem_flatMap.1 found
    cases i with
    | record r =>
      obtain ⟨own, worded⟩ := worded_of_record hs (h _ hi) found
      exact ⟨⟨(Bearer.AsksIn.new scope n).addTo worded fun _ => own, (c.addTo_name _).symm ▸ own⟩,
        fun b kept => ⟨kept.1.addTo worded fun _ => kept.2, (c.addTo_name b).symm ▸ kept.2⟩⟩
    | block b => cases found
    | module head items => cases found
    | other tokens => cases found
  refine foldl_forall (P := Bearer.AsksIn scope) ?_ fun b hb => (records b hb).1
  intro n place c found
  obtain ⟨i, hi, found⟩ := List.mem_flatMap.1 found
  cases i with
  | block b =>
    obtain ⟨change, worded⟩ := not_request_of_block found
    have own {m : TypeName} : c.isRequest = true → m.module = scope := by simp [change]
    exact ⟨(Bearer.AsksIn.new scope n).addTo worded own, fun b kept => kept.addTo worded own⟩
  | record r => cases found
  | module head items => cases found
  | other tokens => cases found

theorem types_worded (hs : WordyScope scope) (h : ∀ i ∈ items, i.isWorded = true) :
    ∀ t ∈ types (ofModules [(scope, items)]), t.name.module = scope ∧ t.name.Worded := by
  intro t ht
  have named : t.name ∈ (recordsOf [(scope, items)]).map (·.name) := by
    rw [← declared_ofModules, ← types_names]
    exact List.mem_map_of_mem ht
  obtain ⟨t', ht', same⟩ := List.mem_map.1 named
  rw [recordsOf, List.flatMap_singleton] at ht'
  obtain ⟨i, hi, declared⟩ := List.mem_filterMap.1 ht'
  cases i with
  | record r =>
    obtain rfl := Option.some.inj declared
    have word := of_decide_eq_true (Bool.and_eq_true_iff.1 (h _ hi)).1
    rw [← same]
    exact ⟨rfl, TypeName.worded_iff.2 ⟨hs, word.unraw⟩⟩
  | block b => cases declared
  | module head items => cases declared
  | other tokens => cases declared

end Finding

/-- Whatever the unit of a module knows and asks for is of the module. -/
structure SourceUnit.Own (scope : Scope) (u : SourceUnit) : Prop where
  bearers : ∀ b ∈ u.bearers, b.AsksIn scope
  records : ∀ n t, u.model.find? n = some t →
    t.name.text = n.text ∧ t.name.module = scope ∧ t.name.Worded

theorem SourceUnit.own_of_ofItems {locate : Nat → Location} {scope : Scope} {items : List Item}
    {u : SourceUnit} (hs : WordyScope scope) (h : ∀ i ∈ items, i.isWorded = true)
    (read : ofItems locate scope items = .ok u) : u.Own scope := by
  obtain ⟨model, bearers⟩ := ofFindings_ok read
  constructor
  · rw [bearers]
    exact Finding.bearers_ask hs h
  · intro n t found
    rw [model] at found
    obtain ⟨declared, text⟩ := Model.mem_of_find?_insertAll found
    exact ⟨text, Finding.types_worded hs h t declared⟩

end RecordViews
