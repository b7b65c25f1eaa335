import RecordViews.Proofs.Customising
import RecordViews.Proofs.NameOrder
import RecordViews.Source.Unit

/-! What a unit of source text holds of its findings. Every record that is found is in the model
under its name: accessors and setters change the members of records and nothing else, and a record
is replaced by one of the same name at most. What is contributed under a name is carried by the
bearer of this name; only a change of a member's property is merged into others of the member. -/

namespace RecordViews

open Grammar (Item)

namespace TypeName

variable {α : Type} {key : α → TypeName} {n : TypeName}

theorem findIn?_cons (b : α) (rest : List α) :
    findIn? key n (b :: rest) = if (key b).text = n.text then some b else findIn? key n rest := by
  rw [findIn?, List.find?_cons]
  by_cases h : (key b).text = n.text
  · simp [h]
  · simp only [beq_eq_false_iff_ne.2 h, if_neg h]
    rfl

/-- An element that is put into a list is found under its name, and every other one as before. -/
theorem findIn?_insertIn_eq {l : List α} {a : α} :
    findIn? key n (insertIn key a l) =
      if (key a).text = n.text then some a else findIn? key n l := by
  induction l with
  | nil => exact findIn?_cons a []
  | cons b rest ih =>
    unfold insertIn
    split
    · exact findIn?_cons a (b :: rest)
    · rename_i behind
      split
      · rename_i before
        have other : (key a).text = n.text → (key b).text ≠ n.text := fun new old => by
          rw [before_iff, new, old] at before
          exact String.lt_irrefl _ before
        rw [findIn?_cons, findIn?_cons, ih]
        by_cases new : (key a).text = n.text
        · simp only [new, other new, if_true, if_false]
        · simp only [new, if_false]
      · rename_i before
        rw [findIn?_cons, findIn?_cons, text_eq_of_not_before before behind]
        split <;> rfl

/-- A list has an element of the name put into it, and of every name that it had. -/
theorem findIn?_insertIn {l : List α} {a : α}
    (h : (key a).text = n.text ∨ (findIn? key n l).isSome = true) :
    (findIn? key n (insertIn key a l)).isSome = true := by
  rw [findIn?_insertIn_eq]
  split
  · rfl
  · rename_i old
    exact h.resolve_left old

/-- An element of a new name is put beside the others. -/
theorem mem_insertIn {l : List α} {a b : α} (named : key a = n) (new : findIn? key n l = none) :
    b ∈ insertIn key a l ↔ b = a ∨ b ∈ l := by
  have apart : ∀ b ∈ l, (key b).text ≠ (key a).text := by
    simpa [findIn?, named] using new
  rw [(insertIn_perm key a l apart).mem_iff, List.mem_cons]

end TypeName

theorem Model.find?_insertAll {ts : List SourceType} {n : TypeName} {m : Model}
    (h : n ∈ ts.map (·.name) ∨ (m.find? n).isSome = true) :
    ((m.insertAll ts).find? n).isSome = true := by
  induction ts generalizing m with
  | nil => simpa [insertAll] using h
  | cons t rest ih =>
    have step (h : t.name.text = n.text ∨ (m.find? n).isSome = true) :
        ((m.insertAll (t :: rest)).find? n).isSome = true :=
      ih (Or.inr (TypeName.findIn?_insertIn h))
    rcases h with new | old
    · rcases List.mem_cons.1 new with rfl | later
      · exact step (Or.inl rfl)
      · exact ih (Or.inl later)
    · exact step (Or.inr old)

theorem modifyFirst_map {α β : Type} {p : α → Bool} {f : α → α} (k : α → β)
    (h : ∀ a, k (f a) = k a) (l : List α) : (modifyFirst p f l).map k = l.map k := by
  induction l with
  | nil => rfl
  | cons a rest ih =>
    unfold modifyFirst
    split
    · simp [h]
    · simp [ih]

namespace Finding

theorem attachAccessor_names (types : List SourceType) (owner : TypeName) (m : Member) :
    (attachAccessor types owner m).map (·.name) = types.map (·.name) := by
  unfold attachAccessor
  refine modifyFirst_map SourceType.name (fun t => ?_) types
  split <;> rfl

theorem attachSetter_names (types : List SourceType) (s : Setter) :
    (attachSetter types s).map (·.name) = types.map (·.name) := by
  unfold attachSetter
  refine modifyFirst_map SourceType.name (fun t => ?_) types
  rfl

def record? : Finding → Option SourceType
  | .type t => some t
  | _ => none

def declared (findings : List Finding) : List SourceType :=
  findings.filterMap record?

theorem mem_declared {findings : List Finding} {t : SourceType} :
    t ∈ declared findings ↔ .type t ∈ findings := by
  rw [declared, List.mem_filterMap]
  constructor
  · rintro ⟨finding, inside, same⟩
    cases finding with
    | type t' =>
      obtain rfl := Option.some.inj same
      exact inside
    | _ => cases same
  · exact fun inside => ⟨_, inside, rfl⟩

def addAccessor (types : List SourceType) : Finding → List SourceType
  | .accessor owner m => attachAccessor types owner m
  | _ => types

def addSetter (types : List SourceType) : Finding → List SourceType
  | .setter s => attachSetter types s
  | _ => types

theorem types_eq (findings : List Finding) :
    Finding.types findings =
      findings.foldl addSetter (findings.foldl addAccessor (declared findings)) :=
  rfl

theorem foldl_names {step : List SourceType → Finding → List SourceType}
    (h : ∀ types finding, (step types finding).map (·.name) = types.map (·.name))
    (findings : List Finding) (types : List SourceType) :
    (findings.foldl step types).map (·.name) = types.map (·.name) := by
  induction findings generalizing types with
  | nil => rfl
  | cons finding rest ih => exact (ih _).trans (h types finding)

/-- Neither accessors nor setters change which records there are. -/
theorem types_names (findings : List Finding) :
    (types findings).map (·.name) = (declared findings).map (·.name) := by
  rw [types_eq, foldl_names, foldl_names]
  · intro types finding
    cases finding with
    | accessor owner m => exact attachAccessor_names types owner m
    | _ => rfl
  · intro types finding
    cases finding with
    | setter s => exact attachSetter_names types s
    | _ => rfl

theorem mem_types_names {findings : List Finding} {t : SourceType} (h : .type t ∈ findings) :
    t.name ∈ (types findings).map (·.name) := by
  rw [types_names]
  exact List.mem_map_of_mem (mem_declared.2 h)

/-- What is inside an item is inside the list that has it. -/
theorem listModules_of_mem {scope : Scope} {items : List Item} {item : Item} (h : item ∈ items) :
    item.modules scope ⊆ Item.listModules scope items := by
  induction items with
  | nil => cases h
  | cons first rest ih =>
    unfold Item.listModules
    rcases List.mem_cons.1 h with rfl | h
    · exact List.subset_append_left _ _
    · exact List.subset_append_of_subset_right _ (ih h)

end Finding

/-- The bearer carries the contribution; a change at least as one of its member, and a function that
it gives at least as one that came later. -/
def Contribution.CarriedBy (b : Bearer) : Contribution → Prop
  | .view r => r ∈ b.requests
  | .metaType r => r ∈ b.metas
  | .override o =>
    ∃ p ∈ b.overrides, p.name = o.name ∧ (o.extractor.isSome = true → p.extractor.isSome = true)
  | .addition a => a ∈ b.additions

namespace Override

variable {o p : Override} {os : List Override}

theorem mergeInto_self (o : Override) (os : List Override) :
    ∃ p ∈ o.mergeInto os,
      p.name = o.name ∧ (o.extractor.isSome = true → p.extractor.isSome = true) := by
  induction os with
  | nil => exact ⟨o, List.mem_cons_self, rfl, id⟩
  | cons q rest ih =>
    unfold mergeInto
    split
    · rename_i same
      refine ⟨q.merge o, List.mem_cons_self, eq_of_beq same, fun given => ?_⟩
      simp [merge, Option.isSome_or, given]
    · obtain ⟨p, hp, found⟩ := ih
      exact ⟨p, List.mem_cons_of_mem q hp, found⟩

theorem mergeInto_keeps (o : Override) (h : p ∈ os) :
    ∃ q ∈ o.mergeInto os,
      q.name = p.name ∧ (p.extractor.isSome = true → q.extractor.isSome = true) := by
  induction os with
  | nil => cases h
  | cons q rest ih =>
    unfold mergeInto
    split
    · rcases List.mem_cons.1 h with rfl | h
      · exact ⟨p.merge o, List.mem_cons_self, rfl, fun given => by simp [merge, given]⟩
      · exact ⟨p, List.mem_cons_of_mem _ h, rfl, id⟩
    · rcases List.mem_cons.1 h with rfl | h
      · exact ⟨p, List.mem_cons_self, rfl, id⟩
      · obtain ⟨p, hp, found⟩ := ih h
        exact ⟨p, List.mem_cons_of_mem q hp, found⟩

end Override

namespace Contribution

variable {c d : Contribution} {b : Bearer}

theorem carriedBy_addTo (c : Contribution) (b : Bearer) : c.CarriedBy (c.addTo b) := by
  cases c with
  | view r => exact List.mem_append_right _ List.mem_cons_self
  | metaType r => exact List.mem_append_right _ List.mem_cons_self
  | override o => exact o.mergeInto_self b.overrides
  | addition a => exact List.mem_append_right _ List.mem_cons_self

/-- What a bearer carries stays when more is added. -/
theorem CarriedBy.addTo (h : c.CarriedBy b) (d : Contribution) : c.CarriedBy (d.addTo b) := by
  cases c with
  | view r =>
    have kept : b.requests ⊆ (d.addTo b).requests := by
      cases d <;> simp [Contribution.addTo, Bearer.addOverride]
    exact kept h
  | metaType r =>
    have kept : b.metas ⊆ (d.addTo b).metas := by
      cases d <;> simp [Contribution.addTo, Bearer.addOverride]
    exact kept h
  | override o =>
    cases d with
    | override p =>
      obtain ⟨q, hq, name, given⟩ := h
      obtain ⟨q', hq', name', given'⟩ := Override.mergeInto_keeps p hq
      exact ⟨q', hq', name'.trans name, fun some => given' (given some)⟩
    | view r => exact h
    | metaType r => exact h
    | addition a => exact h
  | addition a =>
    have kept : b.additions ⊆ (d.addTo b).additions := by
      cases d <;> simp [Contribution.addTo, Bearer.addOverride]
    exact kept h

@[simp] theorem addTo_name (c : Contribution) (b : Bearer) : (c.addTo b).name = b.name := by
  cases c <;> rfl

end Contribution

def Carries (bearers : List Bearer) (name : TypeName) (c : Contribution) : Prop :=
  ∃ b ∈ bearers, b.name.text = name.text ∧ c.CarriedBy b

section Contribute

variable {bearers : List Bearer} {n m : TypeName} {c d : Contribution}

theorem carries_contribute (bearers : List Bearer) (n : TypeName) (c : Contribution) :
    Carries (contribute bearers n c) n c := by
  unfold contribute
  split
  · rename_i b found
    have same : b.name.text = n.text := by simpa using List.find?_some found
    refine ⟨c.addTo b, ?_, by simpa using same, c.carriedBy_addTo b⟩
    exact List.mem_map.2 ⟨b, List.mem_of_find?_eq_some found, by simp [same]⟩
  · rename_i new
    refine ⟨c.addTo { name := n }, ?_, by simp, c.carriedBy_addTo _⟩
    exact (TypeName.mem_insertIn (c.addTo_name _) new).2 (Or.inl rfl)

theorem Carries.contribute (h : Carries bearers n c) (m : TypeName) (d : Contribution) :
    Carries (contribute bearers m d) n c := by
  obtain ⟨b, hb, name, carried⟩ := h
  unfold RecordViews.contribute
  split
  · refine ⟨_, List.mem_map_of_mem hb, ?_⟩
    split
    · exact ⟨by simpa using name, carried.addTo d⟩
    · exact ⟨name, carried⟩
  · rename_i new
    exact ⟨b, (TypeName.mem_insertIn (d.addTo_name _) new).2 (Or.inr hb), name, carried⟩

/-- What holds of a bearer with the contribution, whether it was there before or not, holds of all
bearers if it did before. -/
theorem contribute_forall {P : Bearer → Prop} (new : P (c.addTo { name := n }))
    (more : ∀ b, P b → P (c.addTo b)) (h : ∀ b ∈ bearers, P b) :
    ∀ b ∈ contribute bearers n c, P b := by
  intro b hb
  unfold contribute at hb
  split at hb
  · obtain ⟨b', hb', rfl⟩ := List.mem_map.1 hb
    split
    · exact more b' (h b' hb')
    · exact h b' hb'
  · rename_i absent
    rcases (TypeName.mem_insertIn (c.addTo_name _) absent).1 hb with rfl | old
    · exact new
    · exact h b old

end Contribute

namespace Finding

variable {bearers : List Bearer} {findings : List Finding} {n : TypeName} {c : Contribution}

def addBearer (bearers : List Bearer) : Finding → List Bearer
  | .contribution name _ c => contribute bearers name c
  | _ => bearers

theorem bearers_eq (findings : List Finding) :
    Finding.bearers findings = findings.foldl addBearer [] :=
  rfl

theorem foldl_carries (h : Carries bearers n c) (findings : List Finding) :
    Carries (findings.foldl addBearer bearers) n c := by
  induction findings generalizing bearers with
  | nil => exact h
  | cons finding rest ih =>
    refine ih ?_
    cases finding with
    | contribution m place d => exact h.contribute m d
    | _ => exact h

/-- What is contributed is carried at the end, whatever comes before and after it. -/
theorem carries_of_mem {place : Nat} (h : .contribution n place c ∈ findings) :
    Carries (Finding.bearers findings) n c := by
  obtain ⟨before, after, rfl⟩ := List.append_of_mem h
  rw [bearers_eq, List.foldl_append, List.foldl_cons]
  exact foldl_carries (carries_contribute _ n c) after

theorem foldl_forall {P : Bearer → Prop}
    (h : ∀ n place c, .contribution n place c ∈ findings →
      P (c.addTo { name := n }) ∧ ∀ b, P b → P (c.addTo b))
    (start : ∀ b ∈ bearers, P b) : ∀ b ∈ findings.foldl addBearer bearers, P b := by
  refine List.foldlRecOn (motive := fun bearers => ∀ b ∈ bearers, P b) findings addBearer start
    fun bearers kept finding inside => ?_
  cases finding with
  | contribution n place c =>
    obtain ⟨new, more⟩ := h n place c inside
    exact contribute_forall new more kept
  | _ => exact kept

variable {scope : Scope} {place : Nat}

theorem contribution?_ok {a : Grammar.Attribute} (h : contribution? scope a = some (.ok c)) :
    (∃ q, ViewRequest.ofAttribute scope a = .ok q ∧ c = .view q) ∨
      (∃ o, Override.ofAttribute scope a = .ok o ∧ c = .override o) ∨
      ∃ q, MetaRequest.ofAttribute scope a = .ok q ∧ c = .metaType q := by
  unfold contribution? at h
  obtain ⟨helper, -, read⟩ := Option.map_eq_some_iff.1 h
  cases helper with
  | viewOf =>
    obtain ⟨q, made, same⟩ := map_ok_iff.1 read
    exact Or.inl ⟨q, made, same.symm⟩
  | viewProperty =>
    obtain ⟨o, made, same⟩ := map_ok_iff.1 read
    exact Or.inr (Or.inl ⟨o, made, same.symm⟩)
  | viewMeta =>
    obtain ⟨q, made, same⟩ := map_ok_iff.1 read
    exact Or.inr (Or.inr ⟨q, made, same.symm⟩)

/-- Contributions are found in attributes of the record. -/
theorem contribution_of_record {r : Grammar.RecordItem}
    (found : .contribution n place c ∈ ofRecord scope r) :
    n = SourceType.nameOf scope r ∧ ∃ a ∈ r.attributes, contribution? scope a = some (.ok c) := by
  obtain ⟨read, inside, made⟩ : ∃ read ∈ r.attributes.filterMap (contribution? scope),
      ofContribution (SourceType.nameOf scope r) r.place read = .contribution n place c := by
    simpa [ofRecord] using found
  obtain ⟨a, ha, given⟩ := List.mem_filterMap.1 inside
  cases read with
  | error f => cases made
  | ok c' =>
    cases made
    exact ⟨rfl, a, ha, given⟩

/-- A contribution is the part that an attribute gives to the function. -/
theorem contribution_of_function {owner : TypeName} {f : Grammar.FunctionItem}
    (found : .contribution n place c ∈ ofFunction owner f) :
    ∃ a ∈ f.attributes, a.helper? = some .viewProperty ∧
      ∃ role, c = ofRole (Signature.ofItem owner f) role := by
  unfold ofFunction at found
  split at found
  · rename_i a first
    refine ⟨a, List.mem_of_find?_eq_some first, by simpa using List.find?_some first, ?_⟩
    have made := List.mem_singleton.1 found
    cases given : FunctionRole.ofAttribute a with
    | error f =>
      rw [given] at made
      cases made
    | ok role =>
      rw [given] at made
      cases made
      exact ⟨role, rfl⟩
  · have none (m : Option Member) (s : Option Setter) : .contribution n place c ∉
        (m.map (Finding.accessor owner)).toList ++ (s.map .setter).toList := by
      cases m <;> cases s <;> simp
    exact absurd found (none _ _)

theorem contribution_of_block {b : Grammar.BlockItem}
    (found : .contribution n place c ∈ ofBlock scope b) :
    ∃ owner f, .function f ∈ b.members ∧ .contribution n place c ∈ ofFunction owner f := by
  unfold ofBlock at found
  split at found
  · rename_i owner _
    obtain ⟨m, hm, found⟩ := List.mem_flatMap.1 found
    cases m with
    | function f => exact ⟨owner, f, hm, found⟩
    | other tokens => cases found
  · cases found

end Finding

namespace SourceUnit

variable {locate : Nat → Location} {findings : List Finding} {u : SourceUnit}

theorem ofFindings_ok (h : ofFindings locate findings = .ok u) :
    u.model = Model.insertAll {} (Finding.types findings) ∧
      u.bearers = Finding.bearers findings := by
  unfold ofFindings at h
  split at h
  · obtain rfl := Except.ok.inj h
    exact ⟨rfl, rfl⟩
  · cases h

theorem carries_of_found {name : TypeName} {place : Nat} {c : Contribution}
    (read : ofFindings locate findings = .ok u) (h : .contribution name place c ∈ findings) :
    Carries u.bearers name c := by
  rw [(ofFindings_ok read).2]
  exact Finding.carries_of_mem h

theorem find?_of_found {t : SourceType} (read : ofFindings locate findings = .ok u)
    (h : .type t ∈ findings) : (u.model.find? t.name).isSome = true := by
  rw [(ofFindings_ok read).1]
  exact Model.find?_insertAll (Or.inl (Finding.mem_types_names h))

end SourceUnit
end RecordViews
