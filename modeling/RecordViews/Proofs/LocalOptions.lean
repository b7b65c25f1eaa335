import RecordViews.Proofs.LocalPaths
import RecordViews.Source.Finding

/-! Options that name only records of their own module, read in two modules: whatever goes wrong
goes wrong in both, and what is read in one is what is read in the other, moved. -/

namespace RecordViews

open Grammar Options

instance {α : Type} {r : Reader α} [Takes r] : Takes (liftM r : OptionReader α) where
  suffix i a rest given := by
    change (r i).mapError AttributeFault.grammar = .ok (a, rest) at given
    cases taken : r i with
    | error f =>
      rw [taken] at given
      cases given
    | ok both =>
      rw [taken] at given
      cases given
      exact Takes.suffix _ _ _ taken

instance {α : Type} {f : AttributeFault} : Takes (throw f : OptionReader α) where
  suffix _ _ _ given := by cases given

set_option synthInstance.maxSize 100000 in
set_option maxRecDepth 10000 in
instance : Takes keyPath := by
  unfold keyPath
  dsimp only
  infer_instance

instance : Takes literalValue := by
  unfold literalValue
  infer_instance

instance {key : String} : Takes (writtenString key) := by
  unfold writtenString
  refine takes_bind fun ts => ?_
  split <;> infer_instance

instance {key : String} : Takes (stringValue key) := by
  unfold stringValue
  infer_instance

instance {key : String} : Takes (boolValue key) := by
  unfold boolValue
  refine takes_bind fun ts => ?_
  split <;> infer_instance

instance {key : String} : Takes (accessValue key) := by
  unfold accessValue
  refine takes_bind fun word => ?_
  split <;> infer_instance

instance {α : Type} {r : Reader α} {key : String} : Takes (sourceValue r key) := by
  unfold sourceValue
  refine takes_bind fun text => ?_
  split <;> infer_instance

instance {key : String} : Takes (typeValue key) := by
  unfold typeValue
  infer_instance

instance : Takes stringList := by
  unfold stringList
  infer_instance

def Grammar.Stream.Home (s : Stream) : Prop :=
  ∀ t, t <:+ s → Stream.staysHome t = true

theorem Grammar.Attribute.home_of_isLocal {a : Attribute} {d : Delimiter} {inner : Tokens}
    (h : a.isLocal = true) (args : a.args = .list d inner) : (Stream.ofTokens inner).Home := by
  rw [Attribute.isLocal, args] at h
  simpa [Stream.Home] using h

/-- Where options stay home, the second reader reads what the first one does, moved, and what is
left stays home. -/
structure Alongside {α β : Type} (move : α → β) (r : OptionReader α) (r' : OptionReader β) :
    Prop where
  same : ∀ i, i.stream.Home → r' i = (r i).map (Prod.map move id)
  home : ∀ i a rest, i.stream.Home → r i = .ok (a, rest) → rest.stream.Home

namespace Alongside

variable {α β γ δ : Type} {move : α → β} {r : OptionReader α} {r' : OptionReader β}

theorem refl [Takes r] : Alongside id r r where
  same i _ := by cases r i <;> rfl
  home i a rest home given t ht := home t (ht.trans (Takes.suffix _ _ _ given))

theorem pure {a : α} {b : β} (h : b = move a) :
    Alongside move (Pure.pure a) (Pure.pure b) where
  same i _ := by rw [h]; rfl
  home i a rest home given := by
    cases given
    exact home

theorem bind {move' : γ → δ} {f : α → OptionReader γ} {f' : β → OptionReader δ}
    (h : Alongside move r r') (next : ∀ a, Alongside move' (f a) (f' (move a))) :
    Alongside move' (r >>= f) (r' >>= f') where
  same i home := by
    change (r' i >>= fun both => f' both.1 both.2) =
      Except.map (Prod.map move' id) (r i >>= fun both => f both.1 both.2)
    rw [h.same i home]
    cases first : r i with
    | error f => rfl
    | ok both => exact (next both.1).same both.2 (h.home _ _ _ home first)
  home i a rest home given := by
    obtain ⟨b, mid, first, second⟩ := Reader.bind_ok given
    exact (next b).home _ _ _ (h.home _ _ _ home first) second

/-- The last step puts in place what was read. -/
theorem put {move' : γ → δ} {f : α → γ} {f' : β → δ} (h : Alongside move r r')
    (moves : ∀ a, f' (move a) = move' (f a)) :
    Alongside move' (r >>= fun a => Pure.pure (f a)) (r' >>= fun b => Pure.pure (f' b)) :=
  h.bind fun a => pure (moves a)

theorem fail {f : AttributeFault} : Alongside move (throw f) (throw f) where
  same _ _ := rfl
  home _ _ _ _ given := by cases given

theorem ite {c : Prop} [Decidable c] {s : OptionReader α} {s' : OptionReader β}
    (h : Alongside move r r') (h' : Alongside move s s') :
    Alongside move (if c then r else s) (if c then r' else s') := by
  split <;> assumption

theorem loop {move : α → α} {step step' : α → OptionReader (α × Bool)} {a : α}
    (h : ∀ a, Alongside (Prod.map move id) (step a) (step' (move a))) :
    Alongside move (Grammar.loop a step) (Grammar.loop (move a) step') := by
  have counted (n : Nat) (a : α) :
      Alongside move (repeatWith step n a) (repeatWith step' n (move a)) := by
    induction n generalizing a with
    | zero => exact pure rfl
    | succ n ih =>
      exact bind (h a) fun next => ite (ih next.1) (pure rfl)
  exact ⟨fun i home => (counted _ a).same i home, fun i => (counted _ a).home i⟩

end Alongside

variable {S T : Scope}

theorem lifted_ok {α : Type} {r : Reader α} {i rest : Input} {a : α}
    (h : (liftM r : OptionReader α) i = .ok (a, rest)) : r i = .ok (a, rest) := by
  change (r i).mapError AttributeFault.grammar = .ok (a, rest) at h
  cases read : r i with
  | error f =>
    rw [read] at h
    cases h
  | ok both =>
    rw [read] at h
    cases h
    rfl

theorem mark_ok {operator : String} {i rest : Input} {ts : Tokens}
    (h : mark operator i = .ok (ts, rest)) :
    i.stream.isMark operator = true ∧ rest.stream = i.stream.drop operator.length := by
  obtain ⟨⟨_, left⟩, taken, same⟩ := map_ok_iff.1 h
  cases same
  dsimp only at taken ⊢
  split at taken
  · rename_i there
    cases taken
    exact ⟨there, rfl⟩
  · cases taken

theorem mark_absent {operator : String} {i : Input} (h : i.stream.isMark operator = false) :
    mark operator i = .error (.expected ("expected `" ++ operator ++ "`") false) := by
  change ((if i.stream.isMark operator = true then _ else _) : Except Fault _).map _ = _
  rw [h]
  rfl

theorem readPath_local {i rest : Input} {p : Path} (home : i.stream.startsLocal = true)
    (h : readPath i = .ok (p, rest)) : p.isLocal = true ∧ rest.stream <:+ i.stream := by
  unfold readPath nested at h
  exact pathOf_local home h

theorem pathValue_local {i rest : Input} {p : Path} (home : i.stream.Home)
    (h : pathValue i = .ok (p, rest)) : p.isLocal = true ∧ rest.stream.Home := by
  obtain ⟨_, mid, marked, read⟩ := Reader.bind_ok h
  obtain ⟨equals, behind⟩ := mark_ok (lifted_ok marked)
  have here : i.stream.staysHome = true := home _ List.suffix_rfl
  have starts : mid.stream.startsLocal = true := by
    rw [behind, show "=".length = 1 from rfl]
    simpa [Stream.staysHome, equals] using (Bool.and_eq_true_iff.1 here).1
  obtain ⟨isLocal, left⟩ := readPath_local starts (lifted_ok read)
  have left := left.trans (behind ▸ List.drop_suffix _ _)
  exact ⟨isLocal, fun t ht => home t (ht.trans left)⟩

/-- What comes of a path behind an equals sign. -/
theorem Alongside.ofPath {α β : Type} {move : α → β} {f : Path → OptionReader α}
    {f' : Path → OptionReader β} (h : ∀ p, p.isLocal = true → Alongside move (f p) (f' p)) :
    Alongside move (pathValue >>= f) (pathValue >>= f') where
  same i home := by
    change (pathValue i >>= fun both => f' both.1 both.2) =
      Except.map (Prod.map move id) (pathValue i >>= fun both => f both.1 both.2)
    cases first : pathValue i with
    | error f => rfl
    | ok both =>
      obtain ⟨isLocal, left⟩ := pathValue_local home first
      exact (h both.1 isLocal).same both.2 left
  home i a rest home given := by
    obtain ⟨p, mid, first, second⟩ := Reader.bind_ok given
    obtain ⟨isLocal, left⟩ := pathValue_local home first
    exact (h p isLocal).home _ _ _ left second

theorem pathValue_alongside : Alongside id pathValue pathValue where
  same i _ := by cases pathValue i <;> rfl
  home _ _ _ home given := (pathValue_local home given).2

theorem selector_alongside : Alongside (Selector.relocate · T) (selector S) (selector T) :=
  .ofPath fun p isLocal => by
    rw [TypeName.resolve?_relocate isLocal S T]
    refine .ite (.pure rfl) ?_
    cases TypeName.resolve? S p with
    | none => exact .fail
    | some n => exact .pure rfl

theorem typeName_alongside : Alongside (TypeName.relocate · T) (typeName S) (typeName T) :=
  .ofPath fun p isLocal => by
    rw [TypeName.resolve?_relocate isLocal S T]
    cases TypeName.resolve? S p with
    | none => exact .fail
    | some n => exact .pure rfl

theorem lifted_bind_error {α β : Type} {r : Reader α} {f : α → OptionReader β} {i : Input}
    {fault : Fault} (h : r i = .error fault) : (liftM r >>= f) i = .error (.grammar fault) := by
  change ((r i).mapError AttributeFault.grammar >>= fun both => f both.1 both.2) = _
  rw [h]
  rfl

/-- Where no equals sign follows, no module is read. -/
theorem moduleScope_absent {i : Input} (h : i.stream.isMark "=" = false) (key : String) :
    ∃ f, ∀ S, moduleScope S key i = .error f := by
  obtain ⟨f, absent⟩ : ∃ f, literalValue i = .error f := ⟨_, lifted_bind_error (mark_absent h)⟩
  refine ⟨f, fun S => ?_⟩
  unfold moduleScope sourceValue writtenString
  change (((literalValue i >>= _) >>= _) >>= _) = _
  rw [absent]
  rfl

/-- The option is read alike in both modules. -/
structure ReadAlike {α : Type} (move : α → α) (option option' : String → α → OptionReader α) :
    Prop where
  other : ∀ key a, key ≠ "gen_module" → Alongside move (option key a) (option' key (move a))
  module : ∀ a i, i.stream.isMark "=" = false →
    ∃ f, option "gen_module" a i = .error f ∧ option' "gen_module" (move a) i = .error f

theorem ViewRequest.setOption_alike :
    ReadAlike (ViewRequest.relocate · T) (ViewRequest.setOption S) (ViewRequest.setOption T) where
  other key r notModule := by
    unfold ViewRequest.setOption
    split
    · exact selector_alongside.put fun _ => rfl
    · exact selector_alongside.put fun _ => rfl
    · exact absurd rfl notModule
    all_goals first
      | exact Alongside.fail
      | exact Alongside.refl.put fun _ => rfl
  module r i absent := by
    obtain ⟨f, unread⟩ := moduleScope_absent absent "gen_module"
    have fails (S : Scope) (r : ViewRequest) :
        ViewRequest.setOption S "gen_module" r i = .error f := by
      change (moduleScope S "gen_module" i >>= _) = _
      rw [unread S]
      rfl
    exact ⟨f, fails S r, fails T _⟩

theorem MetaRequest.setOption_alike :
    ReadAlike (MetaRequest.relocate · T) (MetaRequest.setOption S) (MetaRequest.setOption T) where
  other key r notModule := by
    unfold MetaRequest.setOption
    split
    · exact selector_alongside.put fun _ => rfl
    · exact absurd rfl notModule
    all_goals first
      | exact Alongside.fail
      | exact Alongside.refl.put fun _ => rfl
  module r i absent := by
    obtain ⟨f, unread⟩ := moduleScope_absent absent "gen_module"
    have fails (S : Scope) (r : MetaRequest) :
        MetaRequest.setOption S "gen_module" r i = .error f := by
      change (moduleScope S "gen_module" i >>= _) = _
      rw [unread S]
      rfl
    exact ⟨f, fails S r, fails T _⟩

/-- The change moved, and its function changed; no option of an attribute is about the function. -/
def Override.moveWith (T : Scope) (f : Option Signature → Option Signature) (o : Override) :
    Override :=
  { o with view := o.view.map (·.relocate T), extractor := f o.extractor }

def OverrideDraft.moveWith (T : Scope) (f : Option Signature → Option Signature)
    (d : OverrideDraft) : OverrideDraft :=
  { d with override := d.override.moveWith T f }

theorem OverrideDraft.setOption_alike (f : Option Signature → Option Signature) :
    ReadAlike (OverrideDraft.moveWith T f) (OverrideDraft.setOption S)
      (OverrideDraft.setOption T) where
  other key d _ := by
    unfold OverrideDraft.setOption
    dsimp only
    split
    all_goals first
      | exact Alongside.fail
      | exact Alongside.refl.put fun _ => rfl
      | exact pathValue_alongside.put fun _ => rfl
      | exact typeName_alongside.put fun _ => rfl
  module d i _ := ⟨.unsupported .viewProperty "gen_module", rfl, rfl⟩

theorem OverrideDraft.finish_moveWith (f : Option Signature → Option Signature)
    (d : OverrideDraft) : (d.moveWith T f).finish = d.finish.map (·.moveWith T f) := by
  obtain ⟨o, converter, output⟩ := d
  by_cases nameless : o.name.isEmpty = true
  · simp [finish, moveWith, Override.moveWith, nameless, Except.map]
  · cases converter <;> cases output <;>
      simp [finish, moveWith, Override.moveWith, nameless, Except.map]

section Attributes

variable {α : Type} {move : α → α} {option option' : String → α → OptionReader α}

/-- What comes of a key. -/
theorem Alongside.ofKey {α β : Type} {move : α → β} {f : Path → OptionReader α}
    {f' : Path → OptionReader β}
    (other : ∀ p, p.single? ≠ some "gen_module" → Alongside move (f p) (f' p))
    (module : ∀ p i, p.single? = some "gen_module" → i.stream.isMark "=" = false →
      ∃ fault, f p i = .error fault ∧ f' p i = .error fault) :
    Alongside move (liftM keyPath >>= f) (liftM keyPath >>= f') := by
  -- behind the key that asks for a module there is no equals sign
  have unmarked {i rest : Input} {p : Path} (home : i.stream.Home)
      (read : (liftM keyPath : OptionReader Path) i = .ok (p, rest))
      (key : p.single? = some "gen_module") : rest.stream.isMark "=" = false := by
    obtain ⟨k, start⟩ := keyPath_single (lifted_ok read) key
    have here : i.stream.staysHome = true := home _ List.suffix_rfl
    rw [start] at here
    have next : Stream.next (⟨.ident "gen_module", k⟩ :: rest.stream) = rest.stream := rfl
    simpa [Stream.isWord, Stream.word?, next] using (Bool.and_eq_true_iff.1 here).2
  constructor
  · intro i home
    change ((liftM keyPath : OptionReader Path) i >>= fun both => f' both.1 both.2) =
      Except.map (Prod.map move id)
        ((liftM keyPath : OptionReader Path) i >>= fun both => f both.1 both.2)
    cases read : (liftM keyPath : OptionReader Path) i with
    | error f => rfl
    | ok both =>
      by_cases key : both.1.single? = some "gen_module"
      · obtain ⟨fault, first, second⟩ := module both.1 both.2 key (unmarked home read key)
        change f' both.1 both.2 = Except.map _ (f both.1 both.2)
        rw [first, second]
        rfl
      · exact (other both.1 key).same both.2 fun t ht =>
          home t (ht.trans (Takes.suffix _ _ _ read))
  · intro i a rest home given
    obtain ⟨p, mid, read, second⟩ := Reader.bind_ok given
    by_cases key : p.single? = some "gen_module"
    · obtain ⟨fault, first, -⟩ := module p mid key (unmarked home read key)
      rw [first] at second
      cases second
    · have left : mid.stream.Home := fun t ht => home t (ht.trans (Takes.suffix _ _ _ read))
      exact (other p key).home _ _ _ left second

theorem options_alongside (h : ReadAlike move option option') (a : α) :
    Alongside move (options option a) (options option' (move a)) := by
  refine .loop fun a => .bind .refl fun ended => .ite (.pure rfl) (.ofKey ?_ ?_)
  · intro p key
    have key : p.single?.getD "" ≠ "gen_module" := by
      cases single : p.single? with
      | none => decide
      | some w => exact fun same => key (single.trans (congrArg some same))
    exact .bind (h.other _ a key) fun b => .bind .refl fun ended =>
      .ite (.pure rfl) (.bind .refl fun _ => .pure rfl)
  · intro p i key absent
    obtain ⟨fault, first, second⟩ := h.module a i absent
    refine ⟨fault, ?_, ?_⟩
    · change (option (p.single?.getD "") a i >>= _) = _
      rw [key, Option.getD_some, first]
      rfl
    · change (option' (p.single?.getD "") (move a) i >>= _) = _
      rw [key, Option.getD_some, second]
      rfl

theorem ofStream_alike (h : ReadAlike move option option') {s : Stream} (home : s.Home) (a : α) :
    ofStream s option' (move a) = (ofStream s option a).map move := by
  unfold ofStream
  rw [(options_alongside h a).same ⟨s, none⟩ home]
  cases options option a ⟨s, none⟩ with
  | error f => rfl
  | ok both =>
    simp only [Except.map, Prod.map, id, bind, Except.bind]
    cases both.2.leftover? <;> rfl

variable {a : Attribute}

theorem ofAttribute_alike (h : ReadAlike move option option') (home : a.isLocal = true)
    (start : α) :
    Options.ofAttribute a option' (move start) =
      (Options.ofAttribute a option start).map move := by
  unfold Options.ofAttribute
  split
  · rfl
  · rfl
  · rename_i args
    exact ofStream_alike h (Attribute.home_of_isLocal home args) start

theorem ViewRequest.ofAttribute_relocate (home : a.isLocal = true) :
    ViewRequest.ofAttribute T a = (ViewRequest.ofAttribute S a).map (·.relocate T) := by
  unfold ViewRequest.ofAttribute
  split
  · rfl
  · exact ofAttribute_alike ViewRequest.setOption_alike home {}

theorem MetaRequest.ofAttribute_relocate (home : a.isLocal = true) :
    MetaRequest.ofAttribute T a = (MetaRequest.ofAttribute S a).map (·.relocate T) := by
  unfold MetaRequest.ofAttribute
  split
  · rfl
  · exact ofAttribute_alike MetaRequest.setOption_alike home {}

theorem Override.ofAttribute_moveWith (home : a.isLocal = true)
    {f : Option Signature → Option Signature} (hf : f none = none) :
    Override.ofAttribute T a = (Override.ofAttribute S a).map (·.moveWith T f) := by
  have start : ({} : OverrideDraft) = OverrideDraft.moveWith T f {} := by
    simp [OverrideDraft.moveWith, Override.moveWith, hf]
  have read := ofAttribute_alike (OverrideDraft.setOption_alike (S := S) (T := T) f) home {}
  rw [← start] at read
  unfold Override.ofAttribute
  rw [read]
  cases Options.ofAttribute a (OverrideDraft.setOption S) {} with
  | error f => rfl
  | ok d => exact d.finish_moveWith f

theorem Override.ofAttribute_relocate (home : a.isLocal = true) :
    Override.ofAttribute T a = (Override.ofAttribute S a).map (·.relocate T) :=
  ofAttribute_moveWith home (f := Option.map (·.relocate T)) rfl

/-- An attribute on a record gives no function. -/
theorem Override.extractor_of_ofAttribute (home : a.isLocal = true) {o : Override}
    (read : Override.ofAttribute S a = .ok o) : o.extractor = none := by
  have same := ofAttribute_moveWith (S := S) (T := S) home (f := fun _ => none) rfl
  rw [read] at same
  exact congrArg Override.extractor (Except.ok.inj same)

end Attributes

end RecordViews
