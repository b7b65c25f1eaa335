import RecordViews.Grammar.Items
import RecordViews.Proofs.Customising

/-! Where records are declared in a text, and by which words. A record or a module is read with an
identifier for its name, which stands for no place; so the words that lead to a record, whatever
modules it lies in, can be written as a path that goes down from where they start. -/

namespace RecordViews.Grammar

/-- Whatever the reader gives satisfies `P`. -/
def Reader.Yields {α : Type} (r : Reader α) (P : α → Prop) : Prop :=
  ∀ i a rest, r i = .ok (a, rest) → P a

namespace Reader

variable {α β : Type} {r : Reader α} {f : α → Reader β} {P : β → Prop} {Q : α → Prop}

theorem yields_pure {b : β} (h : P b) : (pure b : Reader β).Yields P := by
  intro i a rest given
  cases given
  exact h

theorem Yields.bind (h : r.Yields Q) (h' : ∀ a, Q a → (f a).Yields P) : (r >>= f).Yields P := by
  intro i b rest given
  change (r i >>= fun both => f both.1 both.2) = .ok (b, rest) at given
  cases first : r i with
  | error e =>
    rw [first] at given
    cases given
  | ok both =>
    rw [first] at given
    exact h' both.1 (h i both.1 both.2 first) both.2 b rest given

theorem yields_true : r.Yields fun _ => True :=
  fun _ _ _ _ => trivial

theorem yields_bind (h : ∀ a, (f a).Yields P) : (r >>= f).Yields P :=
  yields_true.bind fun a _ => h a

theorem yields_ite {c : Bool} {r r' : Reader β} (h : c = true → r.Yields P)
    (h' : c = false → r'.Yields P) : (if c then r else r').Yields P := by
  cases c with
  | true => exact h rfl
  | false => exact h' rfl

theorem yields_either {c : Bool} {r' : Reader α} (h : r.Yields Q) (h' : r'.Yields Q)
    (rest : ∀ a, Q a → (f a).Yields P) : (if c then r >>= f else r' >>= f).Yields P :=
  yields_ite (fun _ => h.bind rest) fun _ => h'.bind rest

/-- The rest of a reader stands behind both ways to read what comes next. -/
theorem yields_seen {p : Stream → Bool} {r' : Reader α}
    (h : Reader.Yields (do if ← sees p then r else r') Q) (rest : ∀ a, Q a → (f a).Yields P) :
    Reader.Yields (do if ← sees p then r >>= f else r' >>= f) P := by
  intro i
  refine Eq.mp ?_ (h.bind rest i)
  cases seen : p i.stream <;> simp [sees, seen, bind, StateT.bind, Except.bind]

theorem yields_check {c : Bool} {r : Reader PUnit} {f : PUnit → Reader β}
    (rest : ∀ u, (f u).Yields P) : (if c then r >>= f else f ()).Yields P :=
  yields_ite (fun _ => yields_bind rest) fun _ => rest ()

theorem yields_refuse {text : String} : (refuse text : Reader β).Yields P := by
  intro i b rest given
  cases given

theorem Yields.repeatWith {step : α → Reader (α × Bool)}
    (h : ∀ a, Q a → (step a).Yields fun next => Q next.1) (n : Nat) {a : α} (start : Q a) :
    Reader.Yields (Grammar.repeatWith step n a) Q := by
  induction n generalizing a with
  | zero => exact yields_pure start
  | succ n ih =>
    refine (h a start).bind fun next go => ?_
    exact yields_ite (fun _ => ih go) fun _ => yields_pure go

theorem Yields.loop {step : α → Reader (α × Bool)} {a : α} (start : Q a)
    (h : ∀ a, Q a → (step a).Yields fun next => Q next.1) :
    Reader.Yields (Grammar.loop a step) Q :=
  fun i => Yields.repeatWith h (i.stream.length + 2) start i

theorem Yields.untilEnd (h : r.Yields Q) : (Grammar.untilEnd r).Yields fun as => ∀ a ∈ as, Q a := by
  refine Yields.bind (Q := fun done => ∀ a ∈ done, Q a) (Yields.loop (by simp) ?_) ?_
  · intro done so
    refine yields_bind fun atEnd => yields_ite (fun _ => yields_pure so) fun _ => ?_
    exact h.bind fun a new => yields_pure (List.forall_mem_cons.2 ⟨new, so⟩)
  · intro done so
    exact yields_pure fun a ha => so a (List.mem_reverse.1 ha)

theorem Yields.group {d : Delimiter} (h : r.Yields Q) : (Grammar.group d r).Yields Q := by
  intro i a rest given
  unfold Grammar.group at given
  split at given
  · split at given
    · split at given
      · cases given
      · rename_i inner
        cases given
        exact h _ _ _ inner
      · rename_i inner
        cases given
        exact h _ _ _ inner
    · cases given
  · cases given

end Reader

/-- The record is declared among the items, in the modules of the given names one inside the other.
The names are as they are written. -/
inductive Declares : List Item → List String → RecordItem → Prop
  | here {items : List Item} {r : RecordItem} (h : .record r ∈ items) : Declares items [] r
  | inside {items inner : List Item} {head : ModuleHead} {path : List String} {r : RecordItem}
    (h : .module head inner ∈ items) (h' : Declares inner path r) :
    Declares items (head.name :: path) r

/-- The words that lead to records in the item stand for no place. -/
def Item.Named (item : Item) : Prop :=
  ∀ path r, Declares [item] path r → ∀ w ∈ path ++ [r.name], w ∉ pathRoots

theorem Declares.of_mem {items : List Item} {path : List String} {r : RecordItem}
    (h : Declares items path r) : ∃ item ∈ items, Declares [item] path r := by
  cases h with
  | here h => exact ⟨_, h, .here List.mem_cons_self⟩
  | inside h h' => exact ⟨_, h, .inside List.mem_cons_self h'⟩

namespace Item

theorem named_record {r : RecordItem} (h : r.name ∉ pathRoots) : (Item.record r).Named := by
  intro path s declared
  cases declared with
  | here same =>
    obtain rfl := Item.record.inj (List.mem_singleton.1 same)
    simpa using h
  | inside other _ => cases List.mem_singleton.1 other

theorem named_module {head : ModuleHead} {items : List Item} (h : head.name ∉ pathRoots)
    (h' : ∀ item ∈ items, item.Named) : (Item.module head items).Named := by
  intro path r declared
  cases declared with
  | here other => cases List.mem_singleton.1 other
  | inside same inner =>
    obtain ⟨rfl, rfl⟩ := Item.module.inj (List.mem_singleton.1 same)
    obtain ⟨item, member, within⟩ := inner.of_mem
    exact List.forall_mem_cons.2 ⟨h, h' item member _ r within⟩

theorem named_block (b : BlockItem) : (Item.block b).Named := by
  intro path r declared
  cases declared with
  | here other => cases List.mem_singleton.1 other
  | inside other _ => cases List.mem_singleton.1 other

theorem named_other (tokens : Tokens) : (Item.other tokens).Named := by
  intro path r declared
  cases declared with
  | here other => cases List.mem_singleton.1 other
  | inside other _ => cases List.mem_singleton.1 other

end Item

open Reader

theorem taking_ok {α : Type} {take : Stream → Except Fault (α × Stream)} {i rest : Input} {a : α}
    (h : taking take i = .ok (a, rest)) : ∃ s, take i.stream = .ok (a, s) := by
  obtain ⟨⟨_, s⟩, taken, e⟩ := map_ok_iff.1 h
  cases e
  exact ⟨s, taken⟩

theorem anyWord_ok {i rest : Input} {name : String} (h : anyWord i = .ok (name, rest)) :
    i.stream.word? = some name := by
  obtain ⟨_, taken⟩ := taking_ok h
  split at taken
  · rename_i found
    cases taken
    exact found
  · cases taken

theorem ident_yields : ident.Yields (· ∉ pathRoots) := by
  intro i name rest h root
  have keyword : ∀ w ∈ pathRoots, isKeyword w = true := by decide
  obtain ⟨_, taken⟩ := taking_ok h
  split at taken
  · split at taken
    · cases taken
    · rename_i free
      cases taken
      exact free (keyword _ root)
  · cases taken

/-- The name of a module; one keyword is allowed there. -/
theorem moduleName_yields :
    Reader.Yields (do if ← sees (Stream.isWord "try") then anyWord else ident) (· ∉ pathRoots) := by
  intro i name rest h
  change (if i.stream.isWord "try" = true then anyWord else ident) i = .ok (name, rest) at h
  split at h
  · rename_i seen
    obtain rfl := Option.some.inj ((anyWord_ok h).symm.trans (eq_of_beq seen))
    decide
  · exact ident_yields i name rest h

theorem recordItem_yields (g : Nested) (attributes : List Attribute) (vis : Visibility) :
    (recordItem g attributes vis).Yields Item.Named := by
  unfold recordItem
  refine yields_bind fun _ => yields_bind fun at_ => ?_
  refine ident_yields.bind fun name own => ?_
  exact yields_bind fun generics => yields_bind fun _ => yields_pure (Item.named_record own)

theorem blockItem_yields (g : Nested) (start : Stream) (attributes : List Attribute) :
    (blockItem g start attributes).Yields Item.Named := by
  unfold blockItem
  refine yields_bind fun vis => yields_bind fun isDefault => yields_bind fun isUnsafe => ?_
  -- whether there are parameters, and a trait in front, does not matter
  refine yields_bind fun _ => yields_bind fun _ => ?_
  refine yields_either yields_true yields_true fun generics _ => ?_
  refine yields_bind fun constness => yields_bind fun denied => yields_bind fun first => ?_
  refine yields_bind fun isFor => yields_either yields_true yields_true fun selfType _ => ?_
  refine yields_check fun _ => yields_bind fun conditions => yields_bind fun (inner, members) => ?_
  refine yields_ite (fun _ => ?_) fun _ => yields_pure (Item.named_block _)
  exact yields_bind fun tokens => yields_pure (Item.named_other tokens)

section Levels

variable {g : Nested} (h : ∀ start attributes, (g.item start attributes).Yields Item.Named)

include h

theorem member_yields : Reader.Yields (do g.item (← here) (← outerAttributes g)) Item.Named :=
  yields_bind fun start => yields_bind fun attributes => h start attributes

theorem moduleItem_yields (attributes : List Attribute) :
    (moduleItem g attributes).Yields Item.Named := by
  unfold moduleItem
  refine yields_bind fun vis => yields_bind fun isUnsafe => yields_bind fun _ => ?_
  refine yields_seen moduleName_yields fun name own => ?_
  refine yields_bind fun _ => yields_ite (fun _ => ?_) fun _ => yields_bind fun _ => ?_
  · exact yields_bind fun _ => yields_pure (Item.named_other _)
  refine yields_check fun _ => ?_
  have items : (innerParts g (do g.item (← here) (← outerAttributes g))).Yields
      fun parts => ∀ item ∈ parts.2, item.Named :=
    Yields.group <| yields_bind fun _ =>
      (member_yields h).untilEnd.bind fun _ named => yields_pure named
  exact items.bind fun (inner, items) named => yields_pure (Item.named_module own named)

theorem itemOf_yields (start : Stream) (attributes : List Attribute) :
    (itemOf g start attributes).Yields Item.Named := by
  unfold itemOf
  refine yields_bind fun _ => yields_ite (fun _ => blockItem_yields g start attributes) fun _ => ?_
  refine yields_bind fun _ => yields_ite (fun _ => moduleItem_yields h attributes) fun _ => ?_
  refine yields_bind fun vis => yields_bind fun _ => yields_ite (fun _ => ?_) fun _ => ?_
  · exact yields_bind fun _ => yields_pure (Item.named_other _)
  refine yields_bind fun _ => yields_ite (fun _ => recordItem_yields g attributes vis) fun _ => ?_
  refine yields_bind fun plain => ?_
  cases plain with
  | some tokens => exact yields_pure (Item.named_other _)
  | none => exact yields_bind fun _ => yields_pure (Item.named_other _)

end Levels

theorem level_yields (n : Nat) (start : Stream) (attributes : List Attribute) :
    ((Nested.level n).item start attributes).Yields Item.Named := by
  induction n generalizing start attributes with
  | zero => exact yields_refuse
  | succ n ih =>
    -- what an item is one level up depends on the items inside it only
    exact itemOf_yields ih start attributes

theorem readFile_yields : readFile.Yields fun file => ∀ item ∈ file.items, item.Named := by
  intro i
  refine yields_bind (fun _ => ?_) i
  exact (member_yields (level_yields _)).untilEnd.bind fun items named => yields_pure named

/-- The words that lead to a record of a text stand for no place. -/
theorem Declares.own {text : String} {items : List Item} {path : List String} {r : RecordItem}
    (read : itemsOfText text = .ok items) (h : Declares items path r) :
    ∀ w ∈ path ++ [r.name], w ∉ pathRoots := by
  obtain ⟨file, whole, rfl⟩ := map_ok_iff.1 read
  unfold readText at whole
  split at whole
  · obtain ⟨⟨all, left⟩, first, last⟩ := bind_ok_iff.1 whole
    dsimp only at last
    split at last
    · obtain rfl := Except.ok.inj last
      obtain ⟨item, member, within⟩ := h.of_mem
      exact readFile_yields _ _ _ first item member path r within
    · cases last
  · cases whole

end RecordViews.Grammar
