import Mathlib.Data.List.Induction
import RecordViews.Proofs.HelperAttributes

/-! Changes that several attributes ask for. A change is merged into the one of its member when it
is read, those on records before those on functions, so what a bearer ends up with is told by the
attributes alone: one change for each member that is mentioned, with each part as it was set last.
It does not matter how many attributes the parts of a change are spread over. -/

namespace RecordViews

open Grammar (Item RecordItem BlockItem BlockMember FunctionItem Attribute)

section Lists

variable {α : Type} [BEq α] [LawfulBEq α]

theorem eraseDups_concat (l : List α) (a : α) :
    (l ++ [a]).eraseDups = if a ∈ l then l.eraseDups else l.eraseDups ++ [a] := by
  rw [List.eraseDups_append]
  by_cases inside : a ∈ l
  · rw [if_pos inside]
    simp [List.removeAll, inside]
  · rw [if_neg inside]
    simp [List.removeAll, inside, List.eraseDups_cons]

theorem eraseDups_nodup (l : List α) : l.eraseDups.Nodup := by
  induction l using List.reverseRecOn with
  | nil => exact List.nodup_nil
  | append_singleton l a ih =>
    rw [eraseDups_concat]
    split
    · exact ih
    · rename_i new
      refine List.nodup_append.2 ⟨ih, List.nodup_singleton a, fun b hb c hc same => new ?_⟩
      rw [List.mem_singleton.1 hc] at same
      exact same ▸ List.mem_eraseDups.1 hb

end Lists

namespace Override

variable {o p : Override} {os : List Override} {member : String}

/-- What the last of the changes to a member that sets a part sets it to. -/
def lastOf {α : Type} (part : Override → Option α) (member : String) (os : List Override) :
    Option α :=
  ((os.filter (·.name == member)).filterMap part).getLast?

def about (os : List Override) (member : String) : Override where
  name := member
  rename := lastOf rename member os
  getter := lastOf getter member os
  setter := lastOf setter member os
  converter := lastOf converter member os
  view := lastOf view member os
  extractor := lastOf extractor member os
  comment := lastOf comment member os

/-- One change for each member, in the order in which the members are mentioned first. -/
def collect (os : List Override) : List Override :=
  (os.map (·.name)).eraseDups.map (about os)

theorem lastOf_concat {α : Type} (part : Override → Option α) :
    lastOf part member (os ++ [o]) =
      if o.name = member then part o <|> lastOf part member os else lastOf part member os := by
  unfold lastOf
  by_cases same : o.name = member
  · rw [if_pos same, List.filter_append, List.filter_cons_of_pos (by simpa using same),
      List.filterMap_append, List.filter_nil]
    cases set : part o <;> simp [set]
  · rw [if_neg same, List.filter_append, List.filter_cons_of_neg (by simpa using same),
      List.filter_nil, List.append_nil]

theorem about_concat :
    about (os ++ [o]) member =
      if o.name = member then (about os member).merge o else about os member := by
  unfold about
  simp only [lastOf_concat]
  split <;> rfl

theorem merge_assoc (o p q : Override) : (o.merge p).merge q = o.merge (p.merge q) := by
  simp [merge, Option.or_assoc]

theorem mergeInto_map {f : String → Override} (named : ∀ m, (f m).name = m) {names : List String}
    (distinct : names.Nodup) :
    o.mergeInto (names.map f) =
      if o.name ∈ names then names.map fun m => if o.name = m then (f m).merge o else f m
      else names.map f ++ [o] := by
  induction names with
  | nil => rfl
  | cons m rest ih =>
    obtain ⟨new, distinct⟩ := List.nodup_cons.1 distinct
    rw [List.map_cons, mergeInto, named]
    by_cases here : m = o.name
    · subst here
      have others : rest.map (fun m => if o.name = m then (f m).merge o else f m) = rest.map f := by
        refine List.map_congr_left fun m hm => if_neg ?_
        rintro rfl
        exact new hm
      simp [others]
    · have apart : o.name ≠ m := fun e => here e.symm
      rw [if_neg (by simpa using here), ih distinct]
      by_cases later : o.name ∈ rest
      · simp [later, apart]
      · simp [later, apart]

/-- One more change is merged into that of its member, or stands last. -/
theorem collect_concat : collect (os ++ [o]) = o.mergeInto (collect os) := by
  rw [collect, collect, mergeInto_map (fun _ => rfl) (eraseDups_nodup _), List.map_append,
    List.map_singleton, eraseDups_concat]
  have each : about (os ++ [o]) = fun m =>
      if o.name = m then (about os m).merge o else about os m := funext fun _ => about_concat
  simp only [List.mem_eraseDups, each]
  split
  · rfl
  · rename_i new
    have others : (os.map (·.name)).eraseDups.map (fun m => if o.name = m then
        (about os m).merge o else about os m) = (os.map (·.name)).eraseDups.map (about os) := by
      refine List.map_congr_left fun m hm => if_neg ?_
      rintro rfl
      exact new (List.mem_eraseDups.1 hm)
    have none {α : Type} (part : Override → Option α) : lastOf part o.name os = none := by
      have : os.filter (·.name == o.name) = [] := by
        rw [List.filter_eq_nil_iff]
        intro p hp same
        exact new (List.mem_map.2 ⟨p, hp, by simpa using same⟩)
      rw [lastOf, this]
      rfl
    rw [List.map_append, others, List.map_singleton, if_pos rfl]
    simp [about, merge, none]

theorem mergeInto_mergeInto (same : p.name = o.name) (os : List Override) :
    p.mergeInto (o.mergeInto os) = (o.merge p).mergeInto os := by
  induction os with
  | nil => simp [mergeInto, same]
  | cons q rest ih =>
    have named : (o.merge p).name = o.name := rfl
    by_cases here : q.name = o.name
    · have there : (q.merge o).name = p.name := here.trans same.symm
      simp [mergeInto, here, there, named, merge_assoc]
    · have apart : q.name ≠ p.name := fun e => here (e.trans same)
      simp [mergeInto, here, apart, named, ih]

/-- Where it makes no difference whether two changes of one name come one by one or merged, changes
that come to one can be replaced by it. -/
theorem foldl_of_collect {β : Type} {act : β → Override → β}
    (merges : ∀ b o p, p.name = o.name → act (act b o) p = act b (o.merge p))
    (h : collect os = [o]) (b : β) : os.foldl act b = act b o := by
  induction os using List.reverseRecOn generalizing o with
  | nil => cases h
  | append_singleton os p ih =>
    rw [List.foldl_append, List.foldl_cons, List.foldl_nil]
    rw [collect_concat] at h
    cases already : collect os with
    | nil =>
      have first : os = [] := by
        cases os with
        | nil => rfl
        | cons q rest => simp [collect, List.eraseDups_cons] at already
      subst first
      rw [already] at h
      obtain rfl := List.singleton_inj.1 h
      rfl
    | cons q rest =>
      rw [already, mergeInto] at h
      split at h
      · rename_i same
        obtain ⟨rfl, rfl⟩ := List.cons.inj h
        rw [ih already]
        exact merges b q p (eq_of_beq same).symm
      · -- a change of another name would stand beside the first one
        cases rest with
        | nil => cases h
        | cons r rest =>
          rw [mergeInto] at h
          split at h <;> cases h

def ofHelper? (scope : Scope) (a : Attribute) : Option Override :=
  if a.helper? = some .viewProperty then (ofAttribute scope a).toOption else none

/-- The change that a function asks for which gives the value of a member. -/
def ofFunction? (owner : TypeName) (f : FunctionItem) : Option Override :=
  (f.attributes.find? (·.helper? == some .viewProperty)).bind fun a =>
    match FunctionRole.ofAttribute a with
    | .ok (.extracts member) => some { name := member, extractor := some (.ofItem owner f) }
    | _ => none

def ofMember? (owner : TypeName) : BlockMember → Option Override
  | .function f => ofFunction? owner f
  | .other _ => none

def ofRecordItem (n : TypeName) (scope : Scope) : Item → List Override
  | .record r =>
    if (SourceType.nameOf scope r).text = n.text then r.attributes.filterMap (ofHelper? scope)
    else []
  | _ => []

/-- The changes in a block of functions of the record of the name. -/
def ofBlockItem (n : TypeName) (scope : Scope) : Item → List Override
  | .block b =>
    match Finding.owner? scope b with
    | some owner => if owner.text = n.text then b.members.filterMap (ofMember? owner) else []
    | none => []
  | _ => []

/-- All changes that are written for a name: those on records come before those on functions. -/
def written (n : TypeName) (modules : List (Scope × List Item)) : List Override :=
  modules.flatMap (fun (scope, items) => items.flatMap (ofRecordItem n scope)) ++
    modules.flatMap fun (scope, items) => items.flatMap (ofBlockItem n scope)

end Override

namespace Contribution

def view? : Contribution → Option ViewRequest
  | .view r => some r
  | _ => none

def metaType? : Contribution → Option MetaRequest
  | .metaType r => some r
  | _ => none

def override? : Contribution → Option Override
  | .override o => some o
  | _ => none

def addition? : Contribution → Option Addition
  | .addition a => some a
  | _ => none

end Contribution

/-- A bearer has what is contributed to it, kind by kind. -/
theorem Bearer.ofContributions_eq (n : TypeName) (cs : List Contribution) :
    ofContributions n cs = {
      name := n
      requests := cs.filterMap Contribution.view?
      overrides := Override.collect (cs.filterMap Contribution.override?)
      additions := cs.filterMap Contribution.addition?
      metas := cs.filterMap Contribution.metaType? } := by
  induction cs using List.reverseRecOn with
  | nil => rfl
  | append_singleton cs c ih =>
    have parts {α : Type} (f : Contribution → Option α) :
        (cs ++ [c]).filterMap f = cs.filterMap f ++ (f c).toList := by
      rw [List.filterMap_append, List.filterMap_cons]
      cases f c <;> rfl
    rw [ofContributions_concat, ih]
    simp only [parts]
    cases c with
    | override o =>
      have merged : Override.collect (cs.filterMap Contribution.override? ++ [o]) =
          o.mergeInto (Override.collect (cs.filterMap Contribution.override?)) :=
        Override.collect_concat
      simp [Contribution.addTo, addOverride, ← merged, Contribution.view?, Contribution.metaType?,
        Contribution.addition?, Contribution.override?]
    | _ =>
      simp [Contribution.addTo, Contribution.view?, Contribution.metaType?,
        Contribution.addition?, Contribution.override?]

namespace Finding

def overrides (n : TypeName) (findings : List Finding) : List Override :=
  (contributions n findings).filterMap Contribution.override?

variable {n : TypeName} {scope : Scope}

theorem overrides_append (front back : List Finding) :
    overrides n (front ++ back) = overrides n front ++ overrides n back := by
  simp [overrides, contributions]

theorem overrides_flatMap {α : Type} (f : α → List Finding) (l : List α) :
    overrides n (l.flatMap f) = l.flatMap fun a => overrides n (f a) := by
  induction l with
  | nil => rfl
  | cons a rest ih => rw [List.flatMap_cons, overrides_append, ih, List.flatMap_cons]

theorem overrides_ofContribution (m : TypeName) (place : Nat)
    (c : Except AttributeFault Contribution) :
    overrides n [ofContribution m place c] =
      if m.text = n.text then (c.toOption.bind Contribution.override?).toList else [] := by
  cases c with
  | error f => simp [overrides, contributions, ofContribution, Except.toOption]
  | ok c =>
    by_cases same : m.text = n.text
    · cases found : c.override? <;>
        simp [overrides, contributions, ofContribution, Except.toOption, same, found]
    · simp [overrides, contributions, ofContribution, same]

theorem overrides_ofHelper (m : TypeName) (place : Nat) (a : Attribute) :
    overrides n ((contribution? scope a).toList.map (ofContribution m place)) =
      if m.text = n.text then (Override.ofHelper? scope a).toList else [] := by
  unfold contribution? Override.ofHelper?
  cases kind : a.helper? with
  | none => simp [overrides, contributions]
  | some helper =>
    refine (overrides_ofContribution m place _).trans ?_
    cases helper with
    | viewOf => cases ViewRequest.ofAttribute scope a <;> rfl
    | viewProperty => cases Override.ofAttribute scope a <;> rfl
    | viewMeta => cases MetaRequest.ofAttribute scope a <;> rfl

theorem overrides_ofRecordItem (item : Item) :
    overrides n (ofRecordItem scope item) = Override.ofRecordItem n scope item := by
  cases item with
  | record r =>
    have rest : overrides n (ofRecordItem scope (.record r)) = overrides n
        ((r.attributes.filterMap (contribution? scope)).map
          (ofContribution (SourceType.nameOf scope r) r.place)) := rfl
    rw [rest, List.filterMap_eq_flatMap_toList, List.map_flatMap, overrides_flatMap]
    simp only [overrides_ofHelper, Override.ofRecordItem]
    split
    · exact (List.filterMap_eq_flatMap_toList ..).symm
    · simp
  | _ => rfl

theorem overrides_ofMember (owner : TypeName) (m : BlockMember) :
    overrides n (ofMember owner m) =
      if owner.text = n.text then (Override.ofMember? owner m).toList else [] := by
  cases m with
  | other tokens => simp [ofMember, Override.ofMember?, overrides, contributions]
  | function f =>
    rw [ofMember, ofFunction, Override.ofMember?, Override.ofFunction?]
    cases f.attributes.find? (·.helper? == some .viewProperty) with
    | none => 
      dsimp only
      rw [overrides_append]
      cases f.accessor? <;> cases f.setter? owner <;> simp [overrides, contributions]
    | some a =>
      dsimp only
      rw [overrides_ofContribution, Option.bind_some]
      cases FunctionRole.ofAttribute a with
      | error fault => rfl
      | ok role => cases role <;> rfl

theorem overrides_ofBlockItem (item : Item) :
    overrides n (ofBlockItem scope item) = Override.ofBlockItem n scope item := by
  cases item with
  | block b =>
    rw [ofBlockItem, ofBlock, Override.ofBlockItem]
    cases owner? scope b with
    | none => rfl
    | some owner =>
      dsimp only
      rw [overrides_flatMap]
      simp only [overrides_ofMember]
      split
      · exact (List.filterMap_eq_flatMap_toList ..).symm
      · simp
  | _ => rfl

theorem overrides_ofModules (modules : List (Scope × List Item)) :
    overrides n (ofModules modules) = Override.written n modules := by
  simp only [ofModules, Override.written, overrides_append, overrides_flatMap,
    overrides_ofRecordItem, overrides_ofBlockItem]

end Finding

theorem TypeName.modifyIn_insertIn {α : Type} {key : α → TypeName} {n : TypeName} {l : List α}
    {a : α} {f : α → α} (named : ∀ b, key (f b) = key b) (here : (key a).text = n.text)
    (new : findIn? key n l = none) :
    modifyIn key n f (insertIn key a l) = insertIn key (f a) l := by
  have apart : ∀ b ∈ l, (key b).text ≠ n.text := by
    simpa [findIn?] using new
  have others : ∀ l' : List α, (∀ b ∈ l', (key b).text ≠ n.text) → modifyIn key n f l' = l' := by
    intro l' apart
    rw [modifyIn, List.map_congr_left fun b hb => if_neg (by simpa using apart b hb)]
    exact List.map_id' l'
  induction l with
  | nil => simp [insertIn, modifyIn, here]
  | cons b rest ih =>
    obtain ⟨first, later⟩ := List.forall_mem_cons.1 apart
    have rest_new : findIn? key n rest = none := by
      simpa [findIn?] using later
    rw [insertIn, insertIn, named]
    split
    · rw [modifyIn, List.map_cons, if_pos (by simpa using here), ← modifyIn, others _ apart]
    · rename_i behind
      split
      · rw [modifyIn, List.map_cons, if_neg (by simpa using first), ← modifyIn, ih rest_new later]
      · rename_i before
        exact absurd ((text_eq_of_not_before before behind).trans here) first

theorem TypeName.findIn?_map {α β : Type} {key' : β → TypeName} {n : TypeName} {f : α → β}
    (key : α → TypeName) (named : ∀ a, key' (f a) = key a) (l : List α) :
    findIn? key' n (l.map f) = (findIn? key n l).map f := by
  rw [findIn?, List.find?_map, findIn?]
  simp only [Function.comp_def, named]

/-- Two changes to one member are contributed one by one or merged. -/
theorem contribute_merge {bearers : List Bearer} {n : TypeName} {o p : Override}
    (same : p.name = o.name) :
    contribute (contribute bearers n (.override o)) n (.override p) =
      contribute bearers n (.override (o.merge p)) := by
  have both (b : Bearer) : (Contribution.override p).addTo ((Contribution.override o).addTo b) =
      (Contribution.override (o.merge p)).addTo b := by
    simp only [Contribution.addTo, Bearer.addOverride, Override.mergeInto_mergeInto same]
  cases known : TypeName.findIn? Bearer.name n bearers with
  | some b =>
    have found : TypeName.findIn? Bearer.name n (TypeName.modifyIn Bearer.name n
        (Contribution.override o).addTo bearers) = some ((Contribution.override o).addTo b) := by
      rw [TypeName.findIn?_modifyIn (Contribution.addTo_name _), if_pos rfl, known]
      rfl
    simp only [contribute, known, found]
    rw [TypeName.modifyIn, TypeName.modifyIn, TypeName.modifyIn, List.map_map]
    refine List.map_congr_left fun c _ => ?_
    rw [Function.comp_apply]
    by_cases here : (c.name.text == n.text) = true
    · rw [if_pos here, Contribution.addTo_name, if_pos here, if_pos here, both]
    · rw [if_neg here, if_neg here, if_neg here]
  | none =>
    have named (c : Contribution) : (c.addTo { name := n }).name = n := c.addTo_name _
    have found : TypeName.findIn? Bearer.name n (TypeName.insertIn Bearer.name
        ((Contribution.override o).addTo { name := n }) bearers) =
          some ((Contribution.override o).addTo { name := n }) := by
      rw [TypeName.findIn?_insertIn_eq, named, if_pos rfl]
    simp only [contribute, known, found]
    rw [TypeName.modifyIn_insertIn (Contribution.addTo_name _) (by rw [named]) known, both]

/-- Attributes that ask for the same, where some changes are spread over several attributes that
together ask for what one asked for. -/
inductive Spread (scope : Scope) : List Attribute → List Attribute → Prop where
  | nil : Spread scope [] []
  | keep (a : Attribute) {as as' : List Attribute} : Spread scope as as' →
      Spread scope (a :: as) (a :: as')
  | split {a : Attribute} {parts as as' : List Attribute} {o : Override} {os : List Override} :
      Override.ofHelper? scope a = some o → parts.map (Override.ofHelper? scope) = os.map some →
      Override.collect os = [o] → Spread scope as as' → Spread scope (a :: as) (parts ++ as')

namespace Grammar.Item

mutual

/-- The item with other attributes on the record that it is, or on those inside it. -/
def withAttributes (attributes : Scope → RecordItem → List Attribute) (scope : Scope) : Item → Item
  | .record r => .record { r with attributes := attributes scope r }
  | .block b => .block b
  | .module head items =>
    .module head (listWithAttributes attributes (scope ++ [unraw head.name]) items)
  | .other tokens => .other tokens

def listWithAttributes (attributes : Scope → RecordItem → List Attribute) (scope : Scope) :
    List Item → List Item
  | [] => []
  | item :: rest =>
    item.withAttributes attributes scope :: listWithAttributes attributes scope rest

end

variable {attributes : Scope → RecordItem → List Attribute}

theorem listWithAttributes_eq (scope : Scope) (items : List Item) :
    listWithAttributes attributes scope items = items.map (withAttributes attributes scope) := by
  induction items with
  | nil => rfl
  | cons item rest ih => rw [listWithAttributes, ih, List.map_cons]

theorem listModules_withAttributes (scope : Scope) (items : List Item) :
    listModules scope (listWithAttributes attributes scope items) =
      (listModules scope items).map fun m => (m.1, listWithAttributes attributes m.1 m.2) := by
  match items with
  | [] => rfl
  | item :: rest =>
    have first : (item.withAttributes attributes scope).modules scope =
        (item.modules scope).map fun m => (m.1, listWithAttributes attributes m.1 m.2) := by
      match item with
      | .module head inner =>
        rw [withAttributes, modules, modules, List.map_cons, listModules_withAttributes _ inner]
      | .record r => rfl
      | .block b => rfl
      | .other tokens => rfl
    rw [listWithAttributes, listModules, listModules, List.map_append, first,
      listModules_withAttributes _ rest]

end Grammar.Item

namespace Finding

/-- Findings that are the same except that some changes are spread over several. -/
inductive Alike : List Finding → List Finding → Prop where
  | nil : Alike [] []
  | keep (finding : Finding) {fs fs' : List Finding} : Alike fs fs' →
      Alike (finding :: fs) (finding :: fs')
  | split (n : TypeName) (place : Nat) {fs fs' : List Finding} {o : Override} {os : List Override} :
      Override.collect os = [o] → Alike fs fs' →
      Alike (.contribution n place (.override o) :: fs)
        (os.map (fun o => .contribution n place (.override o)) ++ fs')

namespace Alike

variable {fs fs' gs gs' : List Finding}

theorem refl (fs : List Finding) : Alike fs fs := by
  induction fs with
  | nil => exact .nil
  | cons finding rest ih => exact .keep finding ih

theorem append (h : Alike fs fs') (h' : Alike gs gs') : Alike (fs ++ gs) (fs' ++ gs') := by
  induction h with
  | nil => exact h'
  | keep finding _ ih => exact .keep finding ih
  | split n place comes _ ih =>
    rw [List.append_assoc]
    exact .split n place comes ih

theorem flatMap {α : Type} {f g : α → List Finding} (l : List α) (h : ∀ a, Alike (f a) (g a)) :
    Alike (l.flatMap f) (l.flatMap g) := by
  induction l with
  | nil => exact .nil
  | cons a rest ih => exact (h a).append ih

/-- Whatever passes over the findings and skips changes comes to the same. -/
theorem foldl {β : Type} {act : β → Finding → β} (h : Alike fs fs')
    (spread : ∀ b n place o os, Override.collect os = [o] →
      (os.map fun o => Finding.contribution n place (.override o)).foldl act b =
        act b (.contribution n place (.override o))) (b : β) :
    fs.foldl act b = fs'.foldl act b := by
  induction h generalizing b with
  | nil => rfl
  | keep finding _ ih => exact ih _
  | split n place comes _ ih =>
    rw [List.foldl_cons, List.foldl_append, spread b n place _ _ comes, ih]

theorem filterMap {β : Type} {f : Finding → Option β} (h : Alike fs fs')
    (skips : ∀ n place c, f (.contribution n place c) = none) :
    fs.filterMap f = fs'.filterMap f := by
  induction h with
  | nil => rfl
  | keep finding _ ih => rw [List.filterMap_cons, List.filterMap_cons, ih]
  | split n place _ _ ih =>
    have none (os : List Override) :
        (os.map fun o => Finding.contribution n place (.override o)).filterMap f = [] := by
      simp [skips]
    rw [List.filterMap_cons, skips, List.filterMap_append, none, List.nil_append]
    exact ih

theorem types (h : Alike fs fs') : Finding.types fs = Finding.types fs' := by
  have ignored (act : List SourceType → Finding → List SourceType)
      (skips : ∀ ts n place c, act ts (.contribution n place c) = ts) (ts : List SourceType) :
      fs.foldl act ts = fs'.foldl act ts := by
    refine h.foldl (fun ts n place o os _ => ?_) ts
    rw [skips, List.foldl_map]
    simp only [skips]
    exact List.foldl_fixed' (fun _ => rfl) os
  have same : declared fs = declared fs' := h.filterMap fun _ _ _ => rfl
  rw [types_eq, types_eq, same, ignored addAccessor fun _ _ _ _ => rfl,
    ignored addSetter fun _ _ _ _ => rfl]

theorem faults (h : Alike fs fs') : Finding.faults fs = Finding.faults fs' :=
  h.filterMap fun _ _ _ => rfl

theorem bearers (h : Alike fs fs') : Finding.bearers fs = Finding.bearers fs' := by
  refine h.foldl (fun bearers n place o os comes => ?_) []
  rw [List.foldl_map]
  exact Override.foldl_of_collect (fun _ _ _ same => contribute_merge same) comes bearers

/-- A name is found at the same place. -/
theorem findIn?_places (h : Alike fs fs') (n : TypeName) :
    TypeName.findIn? Prod.fst n (Finding.places fs) =
      TypeName.findIn? Prod.fst n (Finding.places fs') := by
  induction h with
  | nil => rfl
  | @keep finding fs fs' _ ih =>
    cases finding with
    | contribution m place c =>
      have cons (fs : List Finding) : Finding.places (.contribution m place c :: fs) =
          (m, place) :: Finding.places fs := rfl
      rw [cons, cons, TypeName.findIn?_cons, TypeName.findIn?_cons, ih]
    | _ => exact ih
  | @split m place fs fs' o os comes _ ih =>
    have several : Finding.places (os.map (fun o => .contribution m place (.override o)) ++ fs') =
        List.replicate os.length (m, place) ++ Finding.places fs' := by
      simp [Finding.places, List.filterMap_append]
    have one : Finding.places (.contribution m place (.override o) :: fs) =
        (m, place) :: Finding.places fs := rfl
    have some : os.length ≠ 0 := by
      cases os with
      | nil => cases comes
      | cons p rest => simp
    rw [several, one, TypeName.findIn?_cons, ih, TypeName.findIn?, TypeName.findIn?,
      List.find?_append, List.find?_replicate, if_neg some]
    by_cases here : m.text = n.text <;> simp [here]

end Alike

end Finding

theorem Override.ofHelper?_eq_some {scope : Scope} {a : Attribute} {o : Override}
    (h : ofHelper? scope a = some o) :
    a.helper?.isSome = true ∧
      Finding.contribution? scope a = some (.ok (Contribution.override o)) := by
  unfold ofHelper? at h
  split at h
  · rename_i kind
    rw [toOption_eq_some_iff] at h
    refine ⟨by rw [kind]; rfl, ?_⟩
    rw [Finding.contribution?, kind, Option.map_some, h]
    rfl
  · cases h

section Spreading

variable {scope : Scope} {as as' : List Attribute}

theorem Spread.refl (scope : Scope) (as : List Attribute) : Spread scope as as := by
  induction as with
  | nil => exact .nil
  | cons a rest ih => exact .keep a ih

theorem docComment?_helpers {parts : List Attribute}
    (helpers : ∀ a ∈ parts, a.helper?.isSome = true) (front : List Attribute) :
    docComment? (front ++ (parts ++ as)) = docComment? (front ++ as) := by
  induction parts with
  | nil => rfl
  | cons a rest ih =>
    obtain ⟨first, later⟩ := List.forall_mem_cons.1 helpers
    rw [List.cons_append, docComment?_helper first, ih later]

theorem Spread.docComment? (h : Spread scope as as') (front : List Attribute) :
    RecordViews.docComment? (front ++ as) = RecordViews.docComment? (front ++ as') := by
  induction h generalizing front with
  | nil => rfl
  | keep a _ ih => simpa using ih (front ++ [a])
  | @split a parts as as' o os asks ask _ _ ih =>
    have helpers : ∀ p ∈ parts, p.helper?.isSome = true := by
      intro p hp
      have : Override.ofHelper? scope p ∈ os.map some := ask ▸ List.mem_map_of_mem hp
      obtain ⟨q, -, same⟩ := List.mem_map.1 this
      exact (Override.ofHelper?_eq_some same.symm).1
    rw [docComment?_helper (Override.ofHelper?_eq_some asks).1, docComment?_helpers helpers, ih]

theorem Spread.alike (h : Spread scope as as') (n : TypeName) (place : Nat) : Finding.Alike
    ((as.filterMap (Finding.contribution? scope)).map (Finding.ofContribution n place))
    ((as'.filterMap (Finding.contribution? scope)).map (Finding.ofContribution n place)) := by
  induction h with
  | nil => exact .nil
  | keep a _ ih =>
    rw [List.filterMap_cons, List.filterMap_cons]
    cases Finding.contribution? scope a with
    | none => exact ih
    | some c => exact .keep _ ih
  | @split a parts as as' o os asks ask comes _ ih =>
    have several : (parts.filterMap (Finding.contribution? scope)).map
        (Finding.ofContribution n place) =
          os.map fun o => .contribution n place (.override o) := by
      clear comes
      induction parts generalizing os with
      | nil =>
        obtain rfl := List.map_eq_nil_iff.1 ask.symm
        rfl
      | cons p rest ih =>
        obtain ⟨q, os, rfl, first, later⟩ := List.map_eq_cons_iff.1 ask.symm
        rw [List.filterMap_cons_some (Override.ofHelper?_eq_some first.symm).2, List.map_cons,
          ih later.symm]
        rfl
    rw [List.filterMap_cons_some (Override.ofHelper?_eq_some asks).2, List.filterMap_append,
      List.map_append, several]
    exact .split n place comes ih

end Spreading

theorem Finding.Alike.unit {fs fs' : List Finding} {locate : Nat → Location} {u : SourceUnit}
    (h : Alike fs fs') (read : SourceUnit.ofFindings locate fs = .ok u) :
    ∃ u', SourceUnit.ofFindings locate fs' = .ok u' ∧ u'.model = u.model ∧
      u'.bearers = u.bearers ∧ ∀ n, u'.location? n = u.location? n := by
  unfold SourceUnit.ofFindings at read ⊢
  split at read
  · rename_i none
    obtain rfl := Except.ok.inj read
    rw [← h.faults, none]
    refine ⟨_, rfl, by rw [h.types], h.bearers.symm, fun n => ?_⟩
    rw [SourceUnit.location?, SourceUnit.location?, TypeName.findIn?_map Prod.fst (by intro _; rfl),
      TypeName.findIn?_map Prod.fst (by intro _; rfl), h.findIn?_places]
  · cases read

theorem Finding.ofRecordItem_alike {attributes : Scope → RecordItem → List Attribute}
    (spread : ∀ scope r, Spread scope r.attributes (attributes scope r)) (scope : Scope)
    (item : Item) : Alike (ofRecordItem scope item)
      (ofRecordItem scope (item.withAttributes attributes scope)) := by
  cases item with
  | record r =>
    have same : SourceType.ofItem scope { r with attributes := attributes scope r } =
        SourceType.ofItem scope r := by
      have comment := (spread scope r).docComment? []
      rw [List.nil_append, List.nil_append] at comment
      simp only [SourceType.ofItem, comment]
      rfl
    rw [Item.withAttributes, ofRecordItem, ofRecordItem, ofRecord, ofRecord, same]
    exact .keep _ ((spread scope r).alike _ _)
  | block b => exact .nil
  | module head items => rw [Item.withAttributes]; exact .nil
  | other tokens => exact .nil

theorem Finding.ofModules_alike {attributes : Scope → RecordItem → List Attribute}
    (spread : ∀ scope r, Spread scope r.attributes (attributes scope r))
    (modules : List (Scope × List Item)) : Alike (ofModules modules)
      (ofModules (modules.map fun m => (m.1, Item.listWithAttributes attributes m.1 m.2))) := by
  have blocks (scope : Scope) (item : Item) :
      ofBlockItem scope (item.withAttributes attributes scope) = ofBlockItem scope item := by
    cases item with
    | module head items => rw [Item.withAttributes]; rfl
    | _ => rfl
  rw [ofModules, ofModules, List.flatMap_map, List.flatMap_map]
  simp only [Item.listWithAttributes_eq, List.flatMap_map, blocks]
  refine Alike.append (.flatMap _ fun m => .flatMap _ fun item => ?_) (.refl _)
  exact ofRecordItem_alike spread m.1 item

namespace HoldsFor

variable {bearers : List Bearer} {n : TypeName} {cs : List Contribution} {b : Bearer}

theorem exists_bearer (h : HoldsFor bearers n cs) (some : cs ≠ []) :
    ∃ b ∈ bearers, b.name.text = n.text := by
  cases cs with
  | nil => exact absurd rfl some
  | cons c rest =>
    obtain ⟨b, found, -⟩ := h
    exact ⟨b, List.mem_of_find?_eq_some found, by simpa using List.find?_some found⟩

/-- A bearer is made of the contributions to it. -/
theorem made (h : HoldsFor bearers b.name cs) (distinct : (bearers.map (·.name.text)).Nodup)
    (inside : b ∈ bearers) : cs ≠ [] ∧ b = Bearer.ofContributions b.name cs := by
  cases cs with
  | nil => exact absurd (List.find?_eq_none.1 h b inside) (by simp)
  | cons c rest =>
    obtain ⟨b', found, made⟩ := h
    obtain rfl := List.inj_on_of_nodup_map distinct (List.mem_of_find?_eq_some found) inside
      (by simpa using List.find?_some found)
    exact ⟨List.cons_ne_nil c rest, made⟩

theorem overrides (h : HoldsFor bearers b.name cs) (distinct : (bearers.map (·.name.text)).Nodup)
    (inside : b ∈ bearers) :
    b.overrides = Override.collect (cs.filterMap Contribution.override?) := by
  rw [(h.made distinct inside).2, Bearer.ofContributions_eq]

end HoldsFor

namespace SourceUnit

def modulesRead (flat : Bool) (scope : Scope) (items : List Item) : List (Scope × List Item) :=
  (scope, items) :: if flat then [] else Item.listModules scope items

theorem ofItems_or_ofFile (locate : Nat → Location) (flat : Bool) (scope : Scope)
    (items : List Item) : (if flat then ofItems else ofFile) locate scope items =
      ofFindings locate (Finding.ofModules (modulesRead flat scope items)) := by
  cases flat <;> rfl

theorem modulesRead_withAttributes (attributes : Scope → RecordItem → List Attribute) (flat : Bool)
    (scope : Scope) (items : List Item) :
    modulesRead flat scope (Item.listWithAttributes attributes scope items) =
      (modulesRead flat scope items).map fun m =>
        (m.1, Item.listWithAttributes attributes m.1 m.2) := by
  cases flat with
  | true => rfl
  | false =>
    exact congrArg (List.cons _) (Item.listModules_withAttributes scope items)

variable {locate : Nat → Location} {flat : Bool} {scope : Scope} {items : List Item}
  {u : SourceUnit}

/-- The changes of a bearer are those written for its name, one for each member in the order of
their first mentions, and each part of a change is as the last of them says that sets it. Every name
with a change has a bearer. So it makes no difference if a change is spread over several
attributes. -/
theorem overrides_collected (read : (if flat then ofItems else ofFile) locate scope items = .ok u) :
    (∀ b ∈ u.bearers, (b.overrides.map (·.name)).Nodup ∧
      b.overrides = Override.collect (Override.written b.name (modulesRead flat scope items))) ∧
    (∀ n, Override.written n (modulesRead flat scope items) ≠ [] →
      ∃ b ∈ u.bearers, b.name.text = n.text) ∧
    ∀ attributes, (∀ scope r, Spread scope r.attributes (attributes scope r)) →
      ∃ u', (if flat then ofItems else ofFile) locate scope
          (Item.listWithAttributes attributes scope items) = .ok u' ∧
        u'.model = u.model ∧ u'.bearers = u.bearers ∧ ∀ n, u'.location? n = u.location? n := by
  rw [ofItems_or_ofFile] at read
  have held (n : TypeName) := Finding.bearers_holdFor n
    (Finding.ofModules (modulesRead flat scope items))
  refine ⟨fun b inside => ?_, fun n mentioned => ?_, fun attributes spread => ?_⟩
  · rw [(ofFindings_ok read).2] at inside
    have written : b.overrides =
        Override.collect (Override.written b.name (modulesRead flat scope items)) := by
      rw [(held b.name).overrides (Finding.bearers_distinct _) inside,
        ← Finding.overrides_ofModules, Finding.overrides]
    refine ⟨?_, written⟩
    rw [written, Override.collect, List.map_map]
    exact (List.map_id _).symm ▸ eraseDups_nodup _
  · rw [(ofFindings_ok read).2]
    refine (held n).exists_bearer fun none => mentioned ?_
    rw [← Finding.overrides_ofModules, Finding.overrides, none, List.filterMap_nil]
  · rw [ofItems_or_ofFile, modulesRead_withAttributes]
    exact (Finding.ofModules_alike spread _).unit read

def ageAttribute (options : List (String × String)) : Attribute where
  path := .ofNames ["view_property"]
  args := .list .paren (options.flatMap fun (key, value) =>
    [.ident key, .punct '=' false, .literal value, .punct ',' false])

def wholeAttribute : Attribute :=
  ageAttribute [("name", "\"age\""), ("rename", "\"years\""), ("comment", "\"Full years.\"")]

def halfAttributes : List Attribute := [
  ageAttribute [("name", "\"age\""), ("rename", "\"years\"")],
  ageAttribute [("name", "\"age\""), ("comment", "\"Full years.\"")]]

def ageFunction : FunctionItem :=
  { labelFunction (.ofNames ["crate", "Person"]) with
    attributes := [propertyAttribute "extract" "\"age\""] }

/-- A record with these attributes, and a function that gives the age. -/
def agedPerson (attributes : List Attribute) : List Item := [
  .record { (default : RecordItem) with name := "Person", attributes },
  .block { (default : BlockItem) with
    selfType := .path (.ofNames ["crate", "Person"])
    members := [.function ageFunction] }]

def ageChange : Override where
  name := "age"
  rename := some "years"
  comment := some "Full years."
  extractor := some (.ofItem labelOwner ageFunction)

theorem wholeAttribute_spread (scope : Scope) (r : RecordItem) : Spread scope r.attributes
    (if r.attributes = [wholeAttribute] then halfAttributes else r.attributes) := by
  split
  · rename_i whole
    have asks : Override.ofHelper? scope wholeAttribute =
        some { name := "age", rename := some "years", comment := some "Full years." } := rfl
    have ask : halfAttributes.map (Override.ofHelper? scope) = List.map some
        [{ name := "age", rename := some "years" },
          { name := "age", comment := some "Full years." }] := rfl
    rw [whole, ← List.append_nil halfAttributes]
    exact .split asks ask rfl .nil
  · exact Spread.refl _ _

/-- Two halves of a change and a function for the same member come to the change that the whole
attribute and the function come to. -/
theorem halves_collected :
    ∃ u u', ofFile (fun _ => ⟨1, 0⟩) ["crate"] (agedPerson [wholeAttribute]) = .ok u ∧
      ofFile (fun _ => ⟨1, 0⟩) ["crate"] (agedPerson halfAttributes) = .ok u' ∧
      u'.bearers = u.bearers ∧ ∃ b ∈ u.bearers, b.overrides = [ageChange] := by
  obtain ⟨u, read, one⟩ : ∃ u, (if false then ofItems else ofFile) (fun _ => ⟨1, 0⟩) ["crate"]
      (agedPerson [wholeAttribute]) = .ok u ∧ u.bearers.map (·.name) = [labelOwner] :=
    ⟨_, rfl, rfl⟩
  obtain ⟨laws, bearer, spread⟩ := overrides_collected read
  obtain ⟨u', read', -, same, -⟩ := spread _ wholeAttribute_spread
  obtain ⟨b, inside, -⟩ := bearer labelOwner (by decide)
  refine ⟨u, u', read, read', same, b, inside, ?_⟩
  have named : b.name ∈ [labelOwner] := one ▸ List.mem_map_of_mem inside
  rw [(laws b inside).2, List.mem_singleton.1 named]
  rfl

end SourceUnit

end RecordViews
