import Mathlib.Data.List.Infix
import RecordViews.Proofs.Relocation
import RecordViews.Proofs.TokenTaking

/-! Attributes, blocks and functions that name only records of their own module. What they say is
the same in every module, as soon as names are moved there: each option is read alike, and a path of
one word leads to the record of that name in the module. -/

namespace RecordViews

open Grammar Options

def placeWords : List String := ["crate", "self", "super"]

/-- The path is one word that stands for no place; a path with generic arguments names no record
anyway. -/
def Grammar.Path.isLocal (p : Path) : Bool :=
  !p.isPlain ||
    match p.segments with
    | [s] => !placeWords.contains s.name
    | _ => false

theorem Grammar.Path.isLocal_ofNames {w : String} (own : w ∉ placeWords) :
    (Path.ofNames [w]).isLocal = true := by
  simpa [isLocal, ofNames] using Or.inr own

theorem TypeName.resolve?_relocate {p : Path} (h : p.isLocal = true) (S T : Scope) :
    resolve? T p = (resolve? S p).map (·.relocate T) := by
  unfold resolve?
  cases plain : p.isPlain with
  | false => rfl
  | true =>
    rw [Path.isLocal, plain] at h
    simp only [Bool.not_true, Bool.false_or] at h
    split at h
    · rename_i s segments
      have free : s.name ≠ "crate" ∧ s.name ≠ "self" ∧ s.name ≠ "super" := by
        simpa [placeWords] using h
      simp [segments, follow?, firstStep?, ofSegments?, free, relocate]
    · cases h

namespace Grammar

/-- A path that starts here is one word that stands for no place. -/
def Stream.startsLocal (s : Stream) : Bool :=
  !s.isMark "::" && s.word?.all fun w =>
    !placeWords.contains w && !s.next.isMark "::" && !s.next.isMark "<"

/-- Neither does a path start behind an equals sign here that leads elsewhere, nor is a module asked
for. -/
def Stream.staysHome (s : Stream) : Bool :=
  (!s.isMark "=" || Stream.startsLocal (s.drop 1)) && !(s.isWord "gen_module" && s.next.isMark "=")

/-- All paths among the options are single words, and none of them asks for a module. -/
def Attribute.isLocal (a : Attribute) : Bool :=
  match a.args with
  | .list _ inner => (Stream.ofTokens inner).tails.all Stream.staysHome
  | _ => true

theorem Reader.bind_ok {ε α β : Type} {r : StateT Input (Except ε) α}
    {f : α → StateT Input (Except ε) β} {i rest : Input} {b : β}
    (h : (r >>= f) i = .ok (b, rest)) : ∃ a mid, r i = .ok (a, mid) ∧ f a mid = .ok (b, rest) := by
  change (r i >>= fun both => f both.1 both.2) = .ok (b, rest) at h
  obtain ⟨⟨a, mid⟩, first, second⟩ := bind_ok_iff.1 h
  exact ⟨a, mid, first, second⟩

theorem anyWord_cons {i rest : Input} {name : String} (h : anyWord i = .ok (name, rest)) :
    ∃ k, i.stream = ⟨.ident name, k⟩ :: rest.stream := by
  obtain ⟨⟨_, left⟩, taken, same⟩ := map_ok_iff.1 h
  cases same
  dsimp only at taken ⊢
  split at taken
  · rename_i found
    cases taken
    unfold Stream.word? at found
    split at found <;> cases found
    rename_i start
    rw [start]
    exact ⟨_, rfl⟩
  · cases taken

theorem anyWord_of_ident {i rest : Input} {name : String} (h : ident i = .ok (name, rest)) :
    anyWord i = .ok (name, rest) := by
  obtain ⟨⟨_, left⟩, taken, same⟩ := map_ok_iff.1 h
  cases same
  dsimp only at taken
  split at taken
  · rename_i found
    split at taken <;> cases taken
    exact map_ok_iff.2 ⟨_, by dsimp only; rw [found], rfl⟩
  · cases taken

/-- Generic arguments are written in brackets. -/
theorem genericArguments_ne_nil {g : Nested} {i rest : Input} {ts : Tokens}
    (h : genericArguments g i = .ok (ts, rest)) : ts ≠ [] := by
  obtain ⟨inner, mid, -, made⟩ := Reader.bind_ok h
  cases made
  exact List.cons_ne_nil _ _

/-- A segment of a path is a word, and nothing else unless arguments follow. -/
theorem pathSegment_ok {g : Nested} {i rest : Input} {seg : Segment}
    (h : pathSegment g false i = .ok (seg, rest)) :
    ∃ mid, anyWord i = .ok (seg.name, mid) ∧
      (seg.args = [] ∧ rest = mid ∨ seg.args ≠ [] ∧
        (mid.stream.isMark "::" = true ∨ mid.stream.isMark "<" = true)) := by
  unfold pathSegment at h
  obtain ⟨isPlace, _, seen, h⟩ := Reader.bind_ok h
  cases seen
  split at h
  · obtain ⟨name, mid, read, h⟩ := Reader.bind_ok h
    cases h
    exact ⟨_, read, Or.inl ⟨rfl, rfl⟩⟩
  · obtain ⟨isOwn, _, seen, h⟩ := Reader.bind_ok h
    cases seen
    split at h
    all_goals
      obtain ⟨name, mid, read, h⟩ := Reader.bind_ok h
      have read : anyWord i = .ok (name, mid) := by
        first | exact read | exact anyWord_of_ident read
      obtain ⟨more, _, seen, h⟩ := Reader.bind_ok h
      cases seen
      split at h
      · rename_i marked
        obtain ⟨front, _, -, h⟩ := Reader.bind_ok h
        obtain ⟨args, _, given, h⟩ := Reader.bind_ok h
        cases h
        refine ⟨mid, read, Or.inr ⟨fun none => ?_, ?_⟩⟩
        · exact genericArguments_ne_nil given (List.append_eq_nil_iff.1 none).2
        · simp only [Bool.or_eq_true, Bool.and_eq_true] at marked
          exact marked.elim (fun angle => Or.inr angle.1.1.2) fun colons => Or.inl colons.1
      · cases h
        exact ⟨_, read, Or.inl ⟨rfl, rfl⟩⟩

section OneWord

variable {g : Nested} {w : String} {k : Nat} {t : Stream} {u : Option Delimiter} {rest : Input}

theorem anyWord_word {name : String} (h : anyWord ⟨⟨.ident w, k⟩ :: t, u⟩ = .ok (name, rest)) :
    name = w ∧ rest = ⟨t, u⟩ := by
  cases h
  exact ⟨rfl, rfl⟩

theorem pathSegment_word {seg : Segment}
    (h : pathSegment g false ⟨⟨.ident w, k⟩ :: t, u⟩ = .ok (seg, rest))
    (noColons : t.isMark "::" = false) (noAngle : t.isMark "<" = false) :
    seg = { name := w } ∧ rest = ⟨t, u⟩ := by
  obtain ⟨name, args⟩ := seg
  obtain ⟨mid, read, given⟩ := pathSegment_ok h
  obtain ⟨rfl, rfl⟩ := anyWord_word read
  rcases given with ⟨rfl, rfl⟩ | ⟨-, marked⟩
  · exact ⟨rfl, rfl⟩
  · rw [noColons, noAngle] at marked
    simp at marked

theorem pathSegment_starts {i : Input} {seg : Segment}
    (h : pathSegment g false i = .ok (seg, rest)) : i.stream.word? ≠ none := by
  obtain ⟨mid, read, -⟩ := pathSegment_ok h
  rw [anyWord_ok read]
  exact Option.some_ne_none _

theorem mark?_absent {operator : String} {i : Input} (h : i.stream.isMark operator = false) :
    mark? operator i = .ok ([], i) := by
  change (if i.stream.isMark operator = true then mark operator else pure []) i = _
  rw [h]
  rfl

theorem loop_stop {ε α : Type} {step : α → StateT Input (Except ε) (α × Bool)} {a b : α}
    {i rest : Input} (h : step a i = .ok ((b, false), rest)) : loop a step i = .ok (b, rest) := by
  change (step a >>= fun next => if next.2 then _ else pure next.1) i = _
  change (step a i >>= fun both => _) = _
  rw [h]
  rfl

theorem pathOf_word {p : Path} (h : pathOf g false ⟨⟨.ident w, k⟩ :: t, u⟩ = .ok (p, rest))
    (noColons : t.isMark "::" = false) (noAngle : t.isMark "<" = false) :
    p = .ofNames [w] ∧ rest = ⟨t, u⟩ := by
  unfold pathOf at h
  obtain ⟨leading, _, seen, h⟩ := Reader.bind_ok h
  rw [mark?_absent rfl] at seen
  cases seen
  obtain ⟨first, _, read, h⟩ := Reader.bind_ok h
  obtain ⟨rfl, rfl⟩ := pathSegment_word read noColons noAngle
  obtain ⟨found, _, read, h⟩ := Reader.bind_ok h
  rw [loop_stop (b := [{ name := w }]) ?stops] at read
  case stops =>
    change (if (!(t.isMark "::" && !t.third (Stream.isOpen .paren))) = true then
      (pure _ : Reader _) else _) (⟨t, u⟩ : Input) = _
    rw [if_pos (by simp [noColons])]
    rfl
  cases read
  cases h
  exact ⟨rfl, rfl⟩

theorem pathOf_local {i : Input} {p : Path} (home : i.stream.startsLocal = true)
    (h : pathOf g false i = .ok (p, rest)) : p.isLocal = true ∧ rest.stream <:+ i.stream := by
  obtain ⟨s, u⟩ := i
  dsimp only at home
  obtain ⟨noLeading, rule⟩ := Bool.and_eq_true_iff.1 home
  cases start : s.word? with
  | none =>
    unfold pathOf at h
    obtain ⟨leading, _, seen, h⟩ := Reader.bind_ok h
    rw [mark?_absent (by simpa using noLeading)] at seen
    cases seen
    obtain ⟨first, _, read, -⟩ := Reader.bind_ok h
    exact absurd start (pathSegment_starts read)
  | some w =>
    obtain ⟨k, t, rfl⟩ : ∃ k t, s = ⟨.ident w, k⟩ :: t := by
      unfold Stream.word? at start
      split at start <;> cases start
      exact ⟨_, _, rfl⟩
    have next : Stream.next (⟨.ident w, k⟩ :: t) = t := rfl
    simp only [start, Option.all_some, next, Bool.and_eq_true, Bool.not_eq_true'] at rule
    obtain ⟨rfl, rfl⟩ := pathOf_word h rule.1.2 rule.2
    exact ⟨Path.isLocal_ofNames (by simpa using rule.1.1), List.suffix_cons _ _⟩

end OneWord

/-- Further words make the list longer. -/
theorem repeatWith_words {step : List String → Reader (List String × Bool)}
    (h : ∀ names i names' more rest, step names i = .ok ((names', more), rest) →
      (names' = names ∧ more = false ∧ rest = i) ∨ names.length < names'.length)
    (n : Nat) {names names' : List String} {i rest : Input}
    (read : repeatWith step n names i = .ok (names', rest)) :
    (names' = names ∧ rest = i) ∨ names.length < names'.length := by
  induction n generalizing names i with
  | zero =>
    cases read
    exact Or.inl ⟨rfl, rfl⟩
  | succ n ih =>
    obtain ⟨⟨next, more⟩, mid, first, later⟩ := Reader.bind_ok read
    dsimp only at later
    rcases h _ _ _ _ _ first with ⟨rfl, rfl, rfl⟩ | longer
    · rw [if_neg Bool.false_ne_true] at later
      cases later
      exact Or.inl ⟨rfl, rfl⟩
    · right
      split at later
      · rcases ih later with ⟨rfl, -⟩ | longer'
        · exact longer
        · exact longer.trans longer'
      · cases later
        exact longer

/-- One round of reading the words of a key. -/
theorem furtherWord_ok {names names' : List String} {more : Bool} {i rest : Input}
    (step : (do
        if !(← sees (Stream.isMark "::")) then return (names, false)
        let _ ← mark "::"
        return ((← anyWord) :: names, true) : Reader (List String × Bool)) i =
      .ok ((names', more), rest)) :
    (names' = names ∧ more = false ∧ rest = i) ∨ names.length < names'.length := by
  obtain ⟨marked, _, looked, step⟩ := Reader.bind_ok step
  cases looked
  split at step
  · cases step
    exact Or.inl ⟨rfl, rfl, rfl⟩
  · obtain ⟨_, _, _, step⟩ := Reader.bind_ok step
    obtain ⟨_, _, _, step⟩ := Reader.bind_ok step
    cases step
    exact Or.inr (Nat.lt_succ_self _)

theorem mark?_colons {i rest : Input} {ts : Tokens} (h : mark? "::" i = .ok (ts, rest))
    (none : ts.isEmpty = true) : i.stream.isMark "::" = false := by
  by_contra there
  obtain ⟨_, _, looked, taken⟩ := Reader.bind_ok h
  cases looked
  rw [if_pos (by simpa using there)] at taken
  obtain ⟨_, marks⟩ := taking_ok taken
  split at marks <;> cases marks
  cases none

/-- A key of one word is the first word of the stream. -/
theorem keyPath_single {i rest : Input} {p : Path} {w : String}
    (h : keyPath i = .ok (p, rest)) (single : p.single? = some w) :
    ∃ k, i.stream = ⟨.ident w, k⟩ :: rest.stream := by
  unfold keyPath at h
  obtain ⟨leading, start, seen, h⟩ := Reader.bind_ok h
  obtain ⟨isWord, _, looked, h⟩ := Reader.bind_ok h
  cases looked
  dsimp only at h
  have failing {α β : Type} {what : String} {f : α → Reader β} {i rest : Input} {b : β} :
      (expected what >>= f) i ≠ .ok (b, rest) := fun read => by cases read
  split at h
  · -- without a word there is no key
    obtain ⟨ended, _, _, h⟩ := Reader.bind_ok h
    split at h
    · exact absurd h failing
    · obtain ⟨isLiteral, _, _, h⟩ := Reader.bind_ok h
      split at h <;> exact absurd h failing
  · rename_i wordy
    obtain ⟨first, mid, read, h⟩ := Reader.bind_ok h
    obtain ⟨names, last, looped, h⟩ := Reader.bind_ok h
    cases h
    have path := Path.single?_eq_some single
    have noLeading : leading.isEmpty = true := by
      simpa [Path.ofNames] using congrArg Path.leading path
    have words : names = [w] := by
      have := congrArg Path.segments path
      simpa [Path.ofNames] using this
    rw [mark?_absent (mark?_colons seen noLeading)] at seen
    cases seen
    obtain ⟨k, head⟩ := anyWord_cons read
    rcases repeatWith_words (fun _ _ _ _ _ => furtherWord_ok) _ looped with ⟨rfl, rfl⟩ | longer
    · obtain rfl := List.head_eq_of_cons_eq words
      exact ⟨k, head⟩
    · rw [words] at longer
      exact absurd longer (by simp)

end Grammar

end RecordViews
