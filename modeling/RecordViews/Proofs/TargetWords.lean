import RecordViews.Proofs.LocalOptions
import RecordViews.Proofs.NameTexts

/-! Requests name records by paths of a text, and a path is made of the words of the text. So every
segment of the name that such a path stands for is a word, whatever module the path leads to; a text
in quotes, from which a module or a generated name is read, is none. -/

namespace RecordViews

open Grammar Options

theorem Wordy.unraw {w : String} (h : Wordy w) : Wordy (unraw w) := by
  unfold RecordViews.unraw
  split
  · rename_i rest start
    refine wordy_ofList fun c hc => h c ?_
    rw [start]
    exact List.mem_cons_of_mem _ (List.mem_cons_of_mem _ hc)
  · exact h

namespace TypeName

theorem worded_iff {n : TypeName} : n.Worded ↔ WordyScope n.module ∧ Wordy n.simple := by
  simp [Worded, WordyScope, asScope, or_imp, forall_and]

theorem parent?_wordy {scope place : Scope} (hs : WordyScope scope)
    (h : parent? scope = some place) : WordyScope place := by
  unfold parent? at h
  split at h
  · cases h
  · cases h
    exact fun w hw => hs w (List.mem_of_mem_dropLast hw)

theorem wordyScope_concat {scope : Scope} {w : String} (hs : WordyScope scope) (hw : Wordy w) :
    WordyScope (scope ++ [w]) := by
  intro v hv
  rcases List.mem_append.1 hv with old | new
  · exact hs v old
  · exact List.mem_singleton.1 new ▸ hw

theorem firstStep?_wordy {scope place : Scope} {w : String} (hs : WordyScope scope) (hw : Wordy w)
    (h : firstStep? scope w = some place) : WordyScope place := by
  unfold firstStep? at h
  split at h
  · rename_i root
    cases h
    intro v hv
    rw [List.mem_singleton.1 hv, ← eq_of_beq root]
    exact hw
  split at h
  · cases h
    exact hs
  split at h
  · exact parent?_wordy hs h
  · cases h
    exact wordyScope_concat hs hw

theorem nextStep?_wordy {scope place : Scope} {w : String} (hs : WordyScope scope) (hw : Wordy w)
    (h : nextStep? scope w = some place) : WordyScope place := by
  unfold nextStep? at h
  split at h
  · exact parent?_wordy hs h
  · cases h
    exact wordyScope_concat hs hw

theorem foldlM_wordy {scope place : Scope} {words : List String} (hs : WordyScope scope)
    (hw : ∀ w ∈ words, Wordy w) (h : words.foldlM nextStep? scope = some place) :
    WordyScope place := by
  induction words generalizing scope with
  | nil =>
    cases h
    exact hs
  | cons w rest ih =>
    obtain ⟨first, others⟩ := List.forall_mem_cons.1 hw
    obtain ⟨there, step, more⟩ := Option.bind_eq_some_iff.1 h
    exact ih (nextStep?_wordy hs first step) others more

/-- A path of words in a module of words stands for a name of words. -/
theorem resolve?_worded {scope : Scope} {p : Path} {n : TypeName} (hs : WordyScope scope)
    (hp : p.isPlain = true → ∀ w ∈ p.words, Wordy w) (h : resolve? scope p = some n) :
    n.Worded := by
  obtain ⟨plain, led⟩ := resolve?_eq_some_iff.1 h
  have words := hp plain
  unfold follow? at led
  split at led
  · cases led
  · rename_i first rest split
    rw [split] at words
    obtain ⟨own, others⟩ := List.forall_mem_cons.1 words
    obtain ⟨there, step, more⟩ := Option.bind_eq_some_iff.1 led
    exact foldlM_wordy (firstStep?_wordy hs own step) others more

end TypeName

/-- Whatever is written as an identifier is a word. -/
def Token.isWorded : Token → Bool
  | .ident w => decide (Wordy w)
  | _ => true

namespace Grammar

/-- Whatever the stream has as an identifier is a word, as in every stream that is the tokens of a
text. -/
def Stream.Worded (s : Stream) : Prop :=
  ∀ p ∈ s, p.token.isWorded = true

theorem Stream.Worded.suffix {s t : Stream} (h : s.Worded) (ht : t <:+ s) : t.Worded := fun p hp =>
  h p (ht.subset hp)

theorem Stream.worded_ofTokens {ts : Tokens} (h : ∀ t ∈ ts, t.isWorded = true) :
    (Stream.ofTokens ts).Worded := by
  intro p hp
  obtain ⟨t, ht, rfl⟩ := List.mem_map.1 hp
  split
  · rfl
  · rfl
  · exact h _ ht

/-- From a stream of words the reader gives what satisfies `P`, and it leaves words. -/
def FromWords {ε α : Type} (r : StateT Input (Except ε) α) (P : α → Prop) : Prop :=
  ∀ i a rest, i.stream.Worded → r i = .ok (a, rest) → P a ∧ rest.stream.Worded

/-- What holds before every step of a loop holds of what the loop gives. -/
theorem loop_keeps {ε α : Type} {I : α → Stream → Prop}
    {step : α → StateT Input (Except ε) (α × Bool)}
    (h : ∀ a i next rest, I a i.stream → step a i = .ok (next, rest) → I next.1 rest.stream)
    {a b : α} {i rest : Input} (start : I a i.stream) (read : loop a step i = .ok (b, rest)) :
    I b rest.stream := by
  have counted : ∀ n a i, I a i.stream → repeatWith step n a i = .ok (b, rest) →
      I b rest.stream := by
    intro n
    induction n with
    | zero =>
      intro a i start read
      cases read
      exact start
    | succ n ih =>
      intro a i start read
      obtain ⟨⟨next, goesOn⟩, mid, first, later⟩ := Reader.bind_ok read
      have there : I next mid.stream := h a i _ mid start first
      dsimp only at later
      split at later
      · exact ih next mid there later
      · cases later
        exact there
  exact counted _ a i start read

namespace FromWords

variable {ε α β : Type} {r r' : StateT Input (Except ε) α} {f : α → StateT Input (Except ε) β}
  {P : β → Prop} {Q : α → Prop}

theorem of_takes [Takes r] : FromWords r fun _ => True := fun i a rest worded read =>
  ⟨trivial, worded.suffix (Takes.suffix i a rest read)⟩

theorem pure {b : β} (h : P b) : FromWords (Pure.pure b : StateT Input (Except ε) β) P := by
  intro i a rest worded read
  cases read
  exact ⟨h, worded⟩

theorem bind (h : FromWords r Q) (next : ∀ a, Q a → FromWords (f a) P) :
    FromWords (r >>= f) P := by
  intro i b rest worded read
  obtain ⟨a, mid, first, second⟩ := Reader.bind_ok read
  obtain ⟨ha, left⟩ := h i a mid worded first
  exact next a ha mid b rest left second

/-- Whatever is read first, it only takes tokens off the stream. -/
theorem after [Takes r] (next : ∀ a, FromWords (f a) P) : FromWords (r >>= f) P :=
  of_takes.bind fun a _ => next a

theorem ite {c : Prop} [Decidable c] (h : FromWords r Q) (h' : FromWords r' Q) :
    FromWords (if c then r else r') Q := by
  split <;> assumption

theorem loop {step : α → StateT Input (Except ε) (α × Bool)} {a : α} (start : Q a)
    (h : ∀ a, Q a → FromWords (step a) fun next => Q next.1) :
    FromWords (Grammar.loop a step) Q := fun _ _ _ worded read =>
  loop_keeps (I := fun a s => Q a ∧ s.Worded)
    (fun a i next rest kept read => h a kept.1 i next rest kept.2 read) ⟨start, worded⟩ read

theorem fail {fault : AttributeFault} {P : α → Prop} :
    FromWords (throw fault : OptionReader α) P := fun _ _ _ _ read => by cases read

end FromWords

theorem anyWord_fromWords : FromWords anyWord Wordy := by
  intro i name rest worded read
  obtain ⟨k, start⟩ := anyWord_cons read
  rw [start] at worded
  obtain ⟨first, others⟩ := List.forall_mem_cons.1 worded
  exact ⟨of_decide_eq_true first, others⟩

section Paths

variable {g : Nested} {i rest : Input}

/-- Nothing is said of what follows generic arguments. -/
theorem pathSegment_wordy {seg : Segment} (worded : i.stream.Worded)
    (h : pathSegment g false i = .ok (seg, rest)) (plain : seg.args = []) :
    Wordy seg.name ∧ rest.stream.Worded := by
  obtain ⟨mid, read, ⟨-, rfl⟩ | ⟨arguments, -⟩⟩ := pathSegment_ok h
  · exact anyWord_fromWords _ _ _ worded read
  · exact absurd plain arguments

/-- The segments read so far are words, unless one has arguments. -/
def SegmentsWordy (segments : List Segment) (s : Stream) : Prop :=
  (∀ seg ∈ segments, seg.args = []) → (∀ seg ∈ segments, Wordy seg.name) ∧ s.Worded

theorem segmentsWordy_nil {s : Stream} (worded : s.Worded) : SegmentsWordy [] s := fun _ =>
  ⟨by simp, worded⟩

theorem segmentsWordy_cons {seg : Segment} {segments : List Segment} {mid : Input}
    (before : SegmentsWordy segments i.stream)
    (behind : i.stream.Worded → mid.stream.Worded)
    (h : pathSegment g false mid = .ok (seg, rest)) :
    SegmentsWordy (seg :: segments) rest.stream := by
  intro plain
  obtain ⟨own, others⟩ := List.forall_mem_cons.1 plain
  obtain ⟨words, worded⟩ := before others
  obtain ⟨word, left⟩ := pathSegment_wordy (behind worded) h own
  exact ⟨List.forall_mem_cons.2 ⟨word, words⟩, left⟩

theorem pathOf_wordy {p : Path} (worded : i.stream.Worded) (h : pathOf g false i = .ok (p, rest))
    (plain : p.isPlain = true) : (∀ w ∈ p.words, Wordy w) ∧ rest.stream.Worded := by
  unfold pathOf at h
  obtain ⟨leading, start, seen, h⟩ := Reader.bind_ok h
  have start := worded.suffix (Takes.suffix _ _ _ seen)
  obtain ⟨first, mid, read, h⟩ := Reader.bind_ok h
  obtain ⟨found, last, looped, h⟩ := Reader.bind_ok h
  have kept : SegmentsWordy found last.stream := by
    refine loop_keeps (I := SegmentsWordy) ?_ ?_ looped
    · intro segments i next rest before step
      obtain ⟨goesOn, _, seen, step⟩ := Reader.bind_ok step
      cases seen
      split at step
      · cases step
        exact before
      · obtain ⟨_, behind, marked, step⟩ := Reader.bind_ok step
        obtain ⟨seg, _, read, step⟩ := Reader.bind_ok step
        cases step
        exact segmentsWordy_cons before (·.suffix (Takes.suffix _ _ _ marked)) read
    · exact segmentsWordy_cons (segmentsWordy_nil start) id read
  cases h
  obtain ⟨words, left⟩ := kept (by simpa [Path.isPlain] using plain)
  exact ⟨by simpa [Path.words] using words, left⟩

theorem pathValue_wordy {p : Path} (worded : i.stream.Worded) (h : pathValue i = .ok (p, rest))
    (plain : p.isPlain = true) : (∀ w ∈ p.words, Wordy w) ∧ rest.stream.Worded := by
  obtain ⟨_, mid, marked, read⟩ := Reader.bind_ok h
  have read := lifted_ok read
  unfold readPath nested at read
  exact pathOf_wordy (worded.suffix (Takes.suffix _ _ _ (lifted_ok marked))) read plain

end Paths

end Grammar

/-- A record that is named is so by a path of words. -/
def Selector.Worded : Selector → Prop
  | .itself => True
  | .named n => n.Worded

variable {scope : Scope}

theorem selector_fromWords (hs : WordyScope scope) :
    FromWords (selector scope) Selector.Worded := by
  intro i s rest worded h
  obtain ⟨p, mid, read, h⟩ := Reader.bind_ok h
  have words := pathValue_wordy worded read
  split at h
  · rename_i own
    cases h
    refine ⟨trivial, (words ?_).2⟩
    rw [Path.single?_eq_some (eq_of_beq own)]
    rfl
  · cases found : TypeName.resolve? scope p with
    | none =>
      rw [found] at h
      cases h
    | some n =>
      rw [found] at h
      cases h
      have plain := (TypeName.resolve?_eq_some_iff.1 found).1
      exact ⟨TypeName.resolve?_worded hs (fun plain => (words plain).1) found, (words plain).2⟩

instance {key : String} : Takes (moduleScope scope key) := by
  unfold moduleScope
  refine takes_bind fun p => ?_
  split <;> infer_instance

theorem ViewRequest.setOption_fromWords (hs : WordyScope scope) (key : String) {r : ViewRequest}
    (h : r.target.Worded) :
    FromWords (setOption scope key r) fun r => r.target.Worded := by
  unfold setOption
  split
  · exact (selector_fromWords hs).bind fun s worded => .pure worded
  · exact (selector_fromWords hs).bind fun _ _ => .pure h
  all_goals first
    | exact .fail
    | exact .after fun _ => .pure h

theorem MetaRequest.setOption_fromWords (hs : WordyScope scope) (key : String) {r : MetaRequest}
    (h : r.target.Worded) :
    FromWords (setOption scope key r) fun r => r.target.Worded := by
  unfold setOption
  split
  · exact (selector_fromWords hs).bind fun s worded => .pure worded
  all_goals first
    | exact .fail
    | exact .after fun _ => .pure h

namespace Grammar

def Attribute.isWorded (a : Attribute) : Bool :=
  match a.args with
  | .list _ inner => inner.all Token.isWorded
  | _ => true

end Grammar

section Options

variable {α : Type} {option : String → α → OptionReader α} {P : α → Prop}

theorem options_fromWords (h : ∀ key a, P a → FromWords (option key a) P) {a : α} (start : P a) :
    FromWords (options option a) P :=
  .loop start fun a kept => .after fun _ => .ite (.pure kept) <| .after fun _ =>
    (h _ a kept).bind fun _ kept' => .after fun _ => .ite (.pure kept') <|
      .after fun _ => .pure kept'

theorem ofAttribute_fromWords (h : ∀ key a, P a → FromWords (option key a) P) {a : Attribute}
    (worded : a.isWorded = true) {start b : α} (hs : P start)
    (read : Options.ofAttribute a option start = .ok b) : P b := by
  unfold Options.ofAttribute at read
  split at read
  · cases read
  · cases read
  · rename_i inner args
    rw [Attribute.isWorded, args] at worded
    obtain ⟨⟨c, left⟩, options, ended⟩ := bind_ok_iff.1 read
    have kept := (options_fromWords h hs _ _ _
      (Stream.worded_ofTokens (List.all_eq_true.1 worded)) options).1
    dsimp only at ended
    split at ended
    · cases ended
      exact kept
    · cases ended

variable {a : Attribute}

theorem ViewRequest.ofAttribute_worded (hs : WordyScope scope) (worded : a.isWorded = true)
    {r : ViewRequest} (read : ofAttribute scope a = .ok r) : r.target.Worded := by
  unfold ofAttribute at read
  split at read
  · cases read
    trivial
  · exact ofAttribute_fromWords (P := fun r => r.target.Worded)
      (fun key _ => setOption_fromWords hs key) worded trivial read

theorem MetaRequest.ofAttribute_worded (hs : WordyScope scope) (worded : a.isWorded = true)
    {r : MetaRequest} (read : ofAttribute scope a = .ok r) : r.target.Worded := by
  unfold ofAttribute at read
  split at read
  · cases read
    trivial
  · exact ofAttribute_fromWords (P := fun r => r.target.Worded)
      (fun key _ => setOption_fromWords hs key) worded trivial read

end Options

end RecordViews
