import RecordViews.Proofs.HelperAttributes
import RecordViews.Round

/-! The same records and requests in another module: every name moves there and keeps its simple
name. Names of one module are ordered by their simple names, and are told apart by them; so what is
found, put in order or compared among them does not depend on which module it is. A value that stays
the same when it moves to `S` has all its names in `S`. -/

namespace RecordViews

open Grammar (Ty Path)

namespace TypeName

variable {S T : Scope} {m n : TypeName}

@[simp] theorem relocate_relocate (n : TypeName) (S T : Scope) :
    (n.relocate S).relocate T = n.relocate T := rfl

@[simp] theorem relocate_simple (n : TypeName) (T : Scope) : (n.relocate T).simple = n.simple := rfl

theorem relocate_eq_self_iff : n.relocate S = n ↔ n.module = S := by
  obtain ⟨module, simple⟩ := n
  simp [relocate, eq_comm]

theorem text_relocate (n : TypeName) (T : Scope) :
    (n.relocate T).text = String.join (T.map (· ++ "::")) ++ n.simple := rfl

/-- Names of one module are the same if they are where they have moved to. -/
theorem relocate_inj (hm : m.relocate S = m) (hn : n.relocate S = n) :
    m.relocate T = n.relocate T ↔ m = n := by
  refine ⟨fun h => ?_, fun h => congrArg (fun n => relocate n T) h⟩
  have back : (m.relocate T).relocate S = (n.relocate T).relocate S := by rw [h]
  exact hm.symm.trans (back.trans hn)

theorem relocate_beq (hm : m.relocate S = m) (hn : n.relocate S = n) :
    (m.relocate T == n.relocate T) = (m == n) := by
  rw [Bool.eq_iff_iff, beq_iff_eq, beq_iff_eq, relocate_inj hm hn]

theorem relocate_text_inj (hm : m.relocate S = m) (hn : n.relocate S = n) :
    (m.relocate T).text = (n.relocate T).text ↔ m.text = n.text := by
  rw [← hm, ← hn]
  simp only [relocate_relocate, text_relocate, String.append_right_inj]

theorem relocate_text_beq (hm : m.relocate S = m) (hn : n.relocate S = n) :
    ((m.relocate T).text == (n.relocate T).text) = (m.text == n.text) := by
  rw [Bool.eq_iff_iff, beq_iff_eq, beq_iff_eq, relocate_text_inj hm hn]

/-- What stands in front of both texts does not count for their order. -/
theorem append_lt_append (front a b : String) : front ++ a < front ++ b ↔ a < b := by
  change (front ++ a).toList < (front ++ b).toList ↔ a.toList < b.toList
  rw [String.toList_append, String.toList_append]
  induction front.toList with
  | nil => rfl
  | cons c front ih => simpa using ih

theorem relocate_before (hm : m.relocate S = m) (hn : n.relocate S = n) :
    (m.relocate T).before (n.relocate T) = m.before n := by
  rw [← hm, ← hn]
  simp only [relocate_relocate, before, text_relocate, append_lt_append]

section Ordered

variable {α : Type} {key : α → TypeName} (move : Scope → α → α)
  (moves : ∀ T a, key (move T a) = (key a).relocate T)

include moves

theorem key_of_moved {a : α} (h : move S a = a) : (key a).relocate S = key a := by
  rw [← moves, h]

theorem findIn?_relocate {l : List α} (hl : ∀ a ∈ l, move S a = a) (hn : n.relocate S = n) :
    findIn? key (n.relocate T) (l.map (move T)) = (findIn? key n l).map (move T) := by
  induction l with
  | nil => rfl
  | cons a rest ih =>
    obtain ⟨ha, hrest⟩ := List.forall_mem_cons.1 hl
    have ka := key_of_moved move moves ha
    rw [List.map_cons, findIn?_cons, findIn?_cons, moves, ih hrest]
    simp only [relocate_text_inj ka hn]
    split <;> rfl

theorem insertIn_relocate {a : α} {l : List α} (ha : move S a = a) (hl : ∀ a ∈ l, move S a = a) :
    insertIn key (move T a) (l.map (move T)) = (insertIn key a l).map (move T) := by
  induction l with
  | nil => rfl
  | cons b rest ih =>
    obtain ⟨hb, hrest⟩ := List.forall_mem_cons.1 hl
    have ka := key_of_moved move moves ha
    have kb := key_of_moved move moves hb
    rw [List.map_cons, insertIn, insertIn, moves, moves, relocate_before ka kb,
      relocate_before kb ka, ih hrest]
    split
    · rfl
    · split <;> rfl

theorem modifyIn_relocate {f g : α → α} {l : List α} (hl : ∀ a ∈ l, move S a = a)
    (hn : n.relocate S = n) (h : ∀ a ∈ l, g (move T a) = move T (f a)) :
    modifyIn key (n.relocate T) g (l.map (move T)) = (modifyIn key n f l).map (move T) := by
  rw [modifyIn, modifyIn, List.map_map, List.map_map]
  refine List.map_congr_left fun a ha => ?_
  rw [Function.comp_apply, Function.comp_apply, moves,
    relocate_text_beq (key_of_moved move moves (hl a ha)) hn]
  split
  · exact h a ha
  · rfl

end Ordered

theorem first?_relocate {l : List TypeName} (hl : ∀ n ∈ l, n.relocate S = n) :
    first? (l.map (relocate · T)) = (first? l).map (relocate · T) := by
  cases l with
  | nil => rfl
  | cons a rest =>
    obtain ⟨ha, hrest⟩ := List.forall_mem_cons.1 hl
    simp only [List.map_cons, first?, Option.map_some, Option.some.injEq]
    induction rest generalizing a with
    | nil => rfl
    | cons b rest ih =>
      obtain ⟨hb, hrest⟩ := List.forall_mem_cons.1 hrest
      have next : earlier (a.relocate T) (b.relocate T) = (earlier a b).relocate T := by
        rw [earlier, earlier, relocate_before hb ha]
        split <;> rfl
      have kept : (earlier a b).relocate S = earlier a b := by
        rcases earlier_mem a b with same | same <;> rw [same] <;> assumption
      rw [List.map_cons, List.foldl_cons, List.foldl_cons, next]
      exact ih _ (List.forall_mem_cons.2 ⟨kept, hrest⟩) kept hrest

end TypeName

/-- Steps that move with what they are about end where the moved steps end. -/
theorem foldl_relocate {α β : Type} (move : Scope → α → α) (move' : Scope → β → β) {S T : Scope}
    {step : β → α → β}
    (h : ∀ T a b, move S a = a → move' S b = b → step (move' T b) (move T a) = move' T (step b a))
    {as : List α} {b : β} (has : ∀ a ∈ as, move S a = a) (hb : move' S b = b) :
    (as.map (move T)).foldl step (move' T b) = move' T (as.foldl step b) := by
  induction as generalizing b with
  | nil => rfl
  | cons a rest ih =>
    obtain ⟨ha, hrest⟩ := List.forall_mem_cons.1 has
    have kept : move' S (step b a) = step b a := by rw [← h S a b ha hb, ha, hb]
    rw [List.map_cons, List.foldl_cons, List.foldl_cons, h T a b ha hb]
    exact ih hrest kept

def Selector.relocate (s : Selector) (T : Scope) : Selector :=
  match s with
  | .itself => .itself
  | .named n => .named (n.relocate T)

@[simp] theorem Selector.resolve_relocate (s : Selector) (n : TypeName) (T : Scope) :
    (s.relocate T).resolve (n.relocate T) = (s.resolve n).relocate T := by
  cases s <;> rfl

def ViewRequest.relocate (r : ViewRequest) (T : Scope) : ViewRequest :=
  { r with target := r.target.relocate T, config := r.config.relocate T,
           genModule := r.genModule.map fun _ => T }

def MetaRequest.relocate (r : MetaRequest) (T : Scope) : MetaRequest :=
  { r with target := r.target.relocate T, genModule := r.genModule.map fun _ => T }

def Signature.relocate (s : Signature) (T : Scope) : Signature :=
  { s with container := s.container.relocate T }

def Override.relocate (o : Override) (T : Scope) : Override :=
  { o with view := o.view.map (·.relocate T), extractor := o.extractor.map (·.relocate T) }

theorem Override.merge_relocate (o p : Override) (T : Scope) :
    (o.relocate T).merge (p.relocate T) = (o.merge p).relocate T := by
  unfold Override.merge Override.relocate
  cases p.view <;> cases p.extractor <;> rfl

theorem Override.mergeInto_relocate (o : Override) (os : List Override) (T : Scope) :
    (o.relocate T).mergeInto (os.map (·.relocate T)) = (o.mergeInto os).map (·.relocate T) := by
  induction os with
  | nil => rfl
  | cons p rest ih =>
    rw [List.map_cons, Override.mergeInto, Override.mergeInto, ih, Override.merge_relocate]
    change (if p.name == o.name then _ else _) = _
    split <;> rfl

def Addition.relocate (a : Addition) (T : Scope) : Addition :=
  { a with function := a.function.relocate T }

def Bearer.relocate (b : Bearer) (T : Scope) : Bearer where
  name := b.name.relocate T
  requests := b.requests.map (·.relocate T)
  overrides := b.overrides.map (·.relocate T)
  additions := b.additions.map (·.relocate T)
  metas := b.metas.map (·.relocate T)

def SourceType.relocate (t : SourceType) (T : Scope) : SourceType :=
  { t with name := t.name.relocate T }

def Model.relocate (m : Model) (T : Scope) : Model :=
  ⟨m.types.map (·.relocate T)⟩

theorem generatedName_relocate (target : TypeName) (module : Option Scope) (name : Option String)
    (suffix : String) (T : Scope) :
    generatedName (target.relocate T) (module.map fun _ => T) name suffix =
      (generatedName target module name suffix).relocate T := by
  cases module <;> rfl

namespace Bearer

variable {S T : Scope} {b : Bearer}

/-- What a bearer in `S` carries is in `S`. -/
structure In (b : Bearer) (S : Scope) : Prop where
  name : b.name.relocate S = b.name
  requests : ∀ r ∈ b.requests, r.relocate S = r
  overrides : ∀ o ∈ b.overrides, o.relocate S = o
  additions : ∀ a ∈ b.additions, a.relocate S = a
  metas : ∀ r ∈ b.metas, r.relocate S = r

theorem in_of_relocate (h : b.relocate S = b) : b.In S where
  name := congrArg Bearer.name h
  requests := map_eq_self_iff.1 (congrArg Bearer.requests h)
  overrides := map_eq_self_iff.1 (congrArg Bearer.overrides h)
  additions := map_eq_self_iff.1 (congrArg Bearer.additions h)
  metas := map_eq_self_iff.1 (congrArg Bearer.metas h)

end Bearer

end RecordViews
