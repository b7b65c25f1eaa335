import RecordViews.Proofs.Entries
import RecordViews.Proofs.NameTexts
import RecordViews.Proofs.ReorderedBearers

/-! Names as keys. Names compare as their texts do, which is a total order; among names without
colons only equal ones compare as equal. So a list that is kept in the order of such names is a map
by names, although it is searched by texts: what is found under a name depends on what was done
under this very name, in the names generated so far (`GeneratedNames`), in a model (`Model`) and in
the bearers of a unit (`Finding.bearers`). And of several names one at most is the least. -/

namespace RecordViews

namespace TypeName

variable {α : Type} {key : α → TypeName} {m n : TypeName} {l : List α} {a : α}

instance (n : TypeName) (c : Char) : Decidable (n.Lacks c) :=
  inferInstanceAs (Decidable (∀ s ∈ n.asScope, c ∉ s.toList))

theorem text_eq_iff (hm : m.Lacks ':') (hn : n.Lacks ':') : m.text = n.text ↔ m = n :=
  ⟨text_inj hm hn, congrArg text⟩

/-- How two names compare: the first comes before the second, behind it, or neither. -/
def order (m n : TypeName) : Ordering :=
  if m.before n then .lt else if n.before m then .gt else .eq

theorem order_eq (m n : TypeName) : order m n = compare m.text n.text := by
  have texts : compare m.text n.text = compareOfLessAndEq m.text n.text := rfl
  rw [texts, order, compareOfLessAndEq, before, before]
  simp only [decide_eq_true_eq]
  split
  · rfl
  · rename_i first
    split
    · rename_i second
      rw [if_neg fun same => String.lt_irrefl _ (same ▸ second)]
    · rename_i second
      rw [if_pos (text_eq_of_not_before (mt before_iff.1 first) (mt before_iff.1 second))]

theorem order_trans : Std.TransCmp order where
  eq_swap {m n} := by
    rw [order_eq, order_eq]
    exact Std.OrientedCmp.eq_swap
  isLE_trans {m n k} h h' := by
    rw [order_eq] at h h' ⊢
    exact Std.TransCmp.isLE_trans h h'

theorem order_eq_iff (hm : m.Lacks ':') (hn : n.Lacks ':') : order m n = .eq ↔ m = n := by
  rw [order_eq, Std.LawfulEqCmp.compare_eq_iff_eq, text_eq_iff hm hn]

/-- The list is kept in the order of the names of its entries, and no colon is in any of them. -/
structure Keyed (key : α → TypeName) (l : List α) : Prop where
  ordered : InOrder key l
  clear : ∀ a ∈ l, (key a).Lacks ':'

/-- No two entries share a name, and under a name nothing is found but the entry of this name. -/
structure Exact (key : α → TypeName) (l : List α) : Prop where
  distinct : (l.map key).Nodup
  found : ∀ n, n.Lacks ':' → ∀ a, findIn? key n l = some a ↔ a ∈ l ∧ key a = n

namespace Keyed

theorem nil : Keyed key [] :=
  ⟨.nil, by simp⟩

theorem insertIn (h : Keyed key l) (clear : (key a).Lacks ':') : Keyed key (insertIn key a l) := by
  refine ⟨h.ordered.insertIn a, fun b hb => ?_⟩
  rcases mem_of_mem_insertIn hb with rfl | old
  · exact clear
  · exact h.clear b old

theorem modifyIn {f : α → α} (h : Keyed key l) (named : ∀ b, key (f b) = key b) :
    Keyed key (modifyIn key m f l) := by
  refine ⟨h.ordered.modifyIn named, fun b hb => ?_⟩
  obtain ⟨b, old, rfl⟩ := List.mem_map.1 hb
  split
  · exact named b ▸ h.clear b old
  · exact h.clear b old

theorem nodup (h : Keyed key l) : (l.map key).Nodup := by
  refine List.pairwise_map.2 (h.ordered.imp fun before same => ?_)
  rw [same] at before
  exact String.lt_irrefl _ before

theorem findIn?_eq_some_iff (h : Keyed key l) (hn : n.Lacks ':') :
    findIn? key n l = some a ↔ a ∈ l ∧ key a = n := by
  constructor
  · intro found
    have old := List.mem_of_find?_eq_some found
    have same : (key a).text = n.text := by simpa using List.find?_some found
    exact ⟨old, text_inj (h.clear a old) hn same⟩
  · rintro ⟨old, rfl⟩
    obtain ⟨front, back, rfl⟩ := List.append_of_mem old
    refine List.find?_eq_some_iff_append.2 ⟨by simp, front, back, rfl, fun b hb => ?_⟩
    have before := (List.pairwise_append.1 h.ordered).2.2 b hb a List.mem_cons_self
    simpa using String.ne_of_lt before

/-- Where each step keeps the order, and does to the entry of a name what `entry` says, so does a
whole run. -/
theorem foldl {σ ε : Type} (held : σ → List α) {step : σ → ε → σ}
    {entry : TypeName → Option α → ε → Option α} {steps : List ε} {s : σ} (h : Keyed key (held s))
    (keeps : ∀ e ∈ steps, ∀ s, Keyed key (held s) → Keyed key (held (step s e)))
    (finds : ∀ e ∈ steps, ∀ s n, n.Lacks ':' →
      findIn? key n (held (step s e)) = entry n (findIn? key n (held s)) e) :
    Keyed key (held (steps.foldl step s)) ∧ ∀ n, n.Lacks ':' →
      findIn? key n (held (steps.foldl step s)) =
        steps.foldl (entry n) (findIn? key n (held s)) := by
  induction steps generalizing s with
  | nil => exact ⟨h, fun _ _ => rfl⟩
  | cons e rest ih =>
    obtain ⟨keep, keeps⟩ := List.forall_mem_cons.1 keeps
    obtain ⟨find, finds⟩ := List.forall_mem_cons.1 finds
    obtain ⟨keyed, found⟩ := ih (keep s h) keeps finds
    refine ⟨keyed, fun n hn => ?_⟩
    rw [List.foldl_cons, List.foldl_cons, found n hn, find s n hn]

theorem toExact (h : Keyed key l) : Exact key l :=
  ⟨h.nodup, fun _ hn _ => h.findIn?_eq_some_iff hn⟩

end Keyed

/-- The name is in the list, and none of the list comes before it. -/
def Least (n : TypeName) (l : List TypeName) : Prop :=
  n ∈ l ∧ ∀ m ∈ l, m.before n = false

section Least

variable {l : List TypeName} (clear : ∀ m ∈ l, m.Lacks ':')
include clear

theorem first?_eq_some_iff_least : first? l = some n ↔ Least n l := by
  have behind (m : TypeName) : m.before n = false ↔ n.text ≤ m.text := by
    rw [← Bool.not_eq_true, before_iff, String.not_lt]
  simp only [first?_eq_some_iff fun m hm m' hm' => text_inj (clear m hm) (clear m' hm'), Least,
    behind]

theorem existsUnique_least (some : l ≠ []) : ∃! n, Least n l := by
  obtain ⟨n, first⟩ := Option.ne_none_iff_exists'.1 (mt first?_eq_none_iff.1 some)
  refine ⟨n, (first?_eq_some_iff_least clear).1 first, fun m least => ?_⟩
  have same := (first?_eq_some_iff_least clear).2 least
  exact Option.some.inj (same.symm.trans first)

end Least

end TypeName

namespace GeneratedNames

variable {g : GeneratedNames} {m n : TypeName}

theorem contains_iff_mem (h : TypeName.Keyed id g.names) (hn : n.Lacks ':') :
    g.contains n = true ↔ n ∈ g.names := by
  rw [contains_iff]
  constructor
  · rintro ⟨m, hm, same⟩
    exact TypeName.text_inj (h.clear m hm) hn same ▸ hm
  · intro hn
    exact ⟨n, hn, rfl⟩

theorem keyed_insert (h : TypeName.Keyed id g.names) (hm : m.Lacks ':') :
    TypeName.Keyed id (g.insert m).names := by
  unfold insert
  split
  · exact h
  · exact h.insertIn hm

theorem mem_insert (h : TypeName.Keyed id g.names) (hm : m.Lacks ':') :
    n ∈ (g.insert m).names ↔ n ∈ g.names ∨ n = m := by
  cases old : g.contains m with
  | true =>
    have there := (contains_iff_mem h hm).1 old
    rw [insert, if_pos old]
    exact ⟨Or.inl, fun h => h.elim id fun same => same ▸ there⟩
  | false => rw [(insert_perm old).mem_iff, List.mem_cons, or_comm]

theorem foldl_insert (names : List TypeName) (h : TypeName.Keyed id g.names)
    (clear : ∀ m ∈ names, m.Lacks ':') :
    TypeName.Keyed id (names.foldl insert g).names ∧
      ∀ n, n ∈ (names.foldl insert g).names ↔ n ∈ g.names ∨ n ∈ names := by
  induction names generalizing g with
  | nil => exact ⟨h, by simp⟩
  | cons m rest ih =>
    obtain ⟨first, later⟩ := List.forall_mem_cons.1 clear
    obtain ⟨keyed, mem⟩ := ih (keyed_insert h first) later
    refine ⟨keyed, fun n => ?_⟩
    rw [List.foldl_cons, mem, mem_insert h first, List.mem_cons, or_assoc]

end GeneratedNames

namespace Model

/-- What is done to a model: a record is added, or the record of a name is changed but for its
name. -/
inductive Edit where
  | insert (t : SourceType)
  | modify (name : TypeName) (f : SourceType → SourceType) (kept : ∀ t, (f t).name = t.name)

namespace Edit

def name : Edit → TypeName
  | insert t => t.name
  | modify n _ _ => n

def apply (m : Model) : Edit → Model
  | insert t => m.insert t
  | modify n f _ => m.modify n f

/-- What the edit does to the record of a name: something if it is an edit of this name. -/
def entry (n : TypeName) (r : Option SourceType) : Edit → Option SourceType
  | insert t => if t.name = n then some t else r
  | modify m f _ => if m = n then r.map f else r

end Edit

variable {m : Model} {n : TypeName}

theorem keyed_apply (h : TypeName.Keyed SourceType.name m.types) {e : Edit}
    (clear : e.name.Lacks ':') :
    TypeName.Keyed SourceType.name (Edit.apply m e).types := by
  cases e with
  | insert t => exact h.insertIn clear
  | modify k f kept => exact h.modifyIn kept

theorem find?_apply {e : Edit} (clear : e.name.Lacks ':') (hn : n.Lacks ':') :
    (Edit.apply m e).find? n = e.entry n (m.find? n) := by
  cases e with
  | insert t =>
    have same : t.name.text = n.text ↔ t.name = n := TypeName.text_eq_iff clear hn
    refine TypeName.findIn?_insertIn_eq.trans ?_
    rw [if_congr same rfl rfl]
    rfl
  | modify k f kept =>
    have same : k.text = n.text ↔ k = n := TypeName.text_eq_iff clear hn
    refine (TypeName.findIn?_modifyIn kept).trans ?_
    rw [if_congr same rfl rfl]
    rfl

theorem foldl_apply (edits : List Edit) (h : TypeName.Keyed SourceType.name m.types)
    (clear : ∀ e ∈ edits, e.name.Lacks ':') :
    TypeName.Keyed SourceType.name (edits.foldl Edit.apply m).types ∧ ∀ n, n.Lacks ':' →
      (edits.foldl Edit.apply m).find? n = edits.foldl (Edit.entry n) (m.find? n) :=
  h.foldl Model.types (fun e he _ h => keyed_apply h (clear e he)) fun e he _ _ hn =>
    find?_apply (clear e he) hn

end Model

namespace Finding

/-- What the finding does to the bearer of a name: something if it contributes to this name. -/
def entry (n : TypeName) (b : Option Bearer) : Finding → Option Bearer
  | .contribution m _ c => if m = n then some (c.addTo (b.getD { name := n })) else b
  | _ => b

variable {bearers : List Bearer} {n : TypeName}

theorem keyed_addBearer (h : TypeName.Keyed Bearer.name bearers) {finding : Finding}
    (clear : ∀ m place c, finding = .contribution m place c → m.Lacks ':') :
    TypeName.Keyed Bearer.name (addBearer bearers finding) := by
  cases finding with
  | contribution m place c =>
    have lacks := clear m place c rfl
    show TypeName.Keyed Bearer.name (contribute bearers m c)
    unfold contribute
    split
    · exact h.modifyIn c.addTo_name
    · refine h.insertIn ?_
      rw [c.addTo_name]
      exact lacks
  | _ => exact h

theorem findIn?_addBearer {finding : Finding}
    (clear : ∀ m place c, finding = .contribution m place c → m.Lacks ':') (hn : n.Lacks ':') :
    TypeName.findIn? Bearer.name n (addBearer bearers finding) =
      entry n (TypeName.findIn? Bearer.name n bearers) finding := by
  cases finding with
  | contribution m place c =>
    have same : m.text = n.text ↔ m = n := TypeName.text_eq_iff (clear m place c rfl) hn
    refine (findIn?_contribute bearers m n c).trans ?_
    rw [if_congr same rfl rfl]
    refine if_ctx_congr Iff.rfl (fun own => ?_) fun _ => rfl
    rw [own]
  | _ => rfl

theorem foldl_addBearer (findings : List Finding) (h : TypeName.Keyed Bearer.name bearers)
    (clear : ∀ m place c, .contribution m place c ∈ findings → m.Lacks ':') :
    TypeName.Keyed Bearer.name (findings.foldl addBearer bearers) ∧ ∀ n, n.Lacks ':' →
      TypeName.findIn? Bearer.name n (findings.foldl addBearer bearers) =
        findings.foldl (entry n) (TypeName.findIn? Bearer.name n bearers) := by
  have own finding (hf : finding ∈ findings) m place c (same : finding = .contribution m place c) :
      m.Lacks ':' :=
    clear m place c (same ▸ hf)
  exact h.foldl id (fun f hf _ h => keyed_addBearer h (own f hf)) fun f hf _ _ hn =>
    findIn?_addBearer (own f hf) hn

end Finding

/-- Names compare in a total order, and names without colons are equal if they compare as equal. So
where no name has a colon, the names generated so far are the set of those inserted, and one of them
is the least; each record of a model and each bearer is found under its own name alone, and is what
the edits and contributions of this very name made of it; and the bearer with priority for a target
is the one whose name is the least of those that ask. -/
theorem names_as_keys :
    (Std.TransCmp TypeName.order ∧
      ∀ m n : TypeName, m.Lacks ':' → n.Lacks ':' → (m.order n = .eq ↔ m = n)) ∧
    (∀ names : List TypeName, (∀ m ∈ names, m.Lacks ':') →
      let g := GeneratedNames.ofList names
      g.names.Nodup ∧ (∀ n, n ∈ g.names ↔ n ∈ names) ∧
        (∀ n, n.Lacks ':' → (g.contains n = true ↔ n ∈ names)) ∧
        (names ≠ [] → ∃! n, TypeName.Least n names)) ∧
    (∀ edits : List Model.Edit, (∀ e ∈ edits, e.name.Lacks ':') →
      let m := edits.foldl Model.Edit.apply {}
      TypeName.Exact SourceType.name m.types ∧
        ∀ n, n.Lacks ':' → m.find? n = edits.foldl (Model.Edit.entry n) none) ∧
    (∀ findings : List Finding,
      (∀ m place c, .contribution m place c ∈ findings → m.Lacks ':') →
      let bearers := Finding.bearers findings
      TypeName.Exact Bearer.name bearers ∧ ∀ n, n.Lacks ':' →
        TypeName.findIn? Bearer.name n bearers = findings.foldl (Finding.entry n) none) ∧
    ∀ bearers : List Bearer, (∀ b ∈ bearers, b.name.Lacks ':') → ∀ target n,
      (Bearer.viewWinner? bearers target = some n ↔
        n.Least ((bearers.filter (·.targets target)).map (·.name))) ∧
      (Bearer.metaWinner? bearers target = some n ↔
        n.Least ((bearers.filter (·.describes target)).map (·.name))) := by
  refine ⟨⟨TypeName.order_trans, fun m n => TypeName.order_eq_iff⟩, ?_, ?_, ?_, ?_⟩
  · intro names clear g
    obtain ⟨keyed, mem⟩ := GeneratedNames.foldl_insert names (g := {}) .nil clear
    have inserted (n : TypeName) : n ∈ g.names ↔ n ∈ names := (mem n).trans (by simp)
    refine ⟨List.map_id g.names ▸ keyed.nodup, inserted, fun n hn => ?_,
      TypeName.existsUnique_least clear⟩
    exact (GeneratedNames.contains_iff_mem keyed hn).trans (inserted n)
  · intro edits clear m
    obtain ⟨keyed, found⟩ := Model.foldl_apply edits (m := {}) .nil clear
    exact ⟨keyed.toExact, found⟩
  · intro findings clear bearers
    obtain ⟨keyed, found⟩ := Finding.foldl_addBearer findings .nil clear
    exact ⟨keyed.toExact, found⟩
  · intro bearers clear target n
    have names (p : Bearer → Bool) : ∀ m ∈ (bearers.filter p).map (·.name), m.Lacks ':' := by
      intro m hm
      obtain ⟨b, hb, rfl⟩ := List.mem_map.1 hm
      exact clear b (List.mem_filter.1 hb).1
    exact ⟨TypeName.first?_eq_some_iff_least (names _), TypeName.first?_eq_some_iff_least (names _)⟩

/-- Names whose texts start with each other, one of them twice. -/
def overlapping : List TypeName :=
  [⟨["crate", "model", "Row"], "Cell"⟩, ⟨["crate"], "model"⟩, ⟨["crate", "model"], "Row"⟩,
    ⟨["crate"], "model"⟩]

def overlappingEdits : List Model.Edit :=
  overlapping.map fun n => .insert { name := n }

def overlappingFindings : List Finding :=
  overlapping.map fun n => .contribution n 0 (.metaType {})

def overlappingBearers : List Bearer :=
  overlapping.map fun n => { name := n, metas := [{ target := .named ⟨[], "crate"⟩ }] }

theorem overlapping_names_kept_apart :
    (∀ m ∈ overlapping, m.Lacks ':') ∧
    ((⟨["crate"], "model"⟩ : TypeName).order ⟨[], "crate"⟩ ≠ .eq) ∧
    (GeneratedNames.ofList overlapping).names.Nodup ∧
    TypeName.Exact SourceType.name (overlappingEdits.foldl Model.Edit.apply {}).types ∧
    TypeName.Exact Bearer.name (Finding.bearers overlappingFindings) ∧
    Bearer.metaWinner? overlappingBearers ⟨[], "crate"⟩ = some ⟨["crate"], "model"⟩ := by
  obtain ⟨⟨-, equal⟩, names, model, unit, winner⟩ := names_as_keys
  have clear : ∀ m ∈ overlapping, m.Lacks ':' := by decide
  refine ⟨clear, ?_, (names overlapping clear).1, (model overlappingEdits ?_).1,
    (unit overlappingFindings ?_).1, ?_⟩
  · exact mt (equal _ _ (by decide) (by decide)).1 (by decide)
  · simpa [overlappingEdits, Model.Edit.name] using clear
  · intro m place c found
    obtain ⟨n, hn, same⟩ := List.mem_map.1 found
    cases same
    exact clear m hn
  · refine (winner overlappingBearers ?_ _ _).2.2 ⟨by decide, by decide⟩
    simpa [overlappingBearers] using clear

end RecordViews
