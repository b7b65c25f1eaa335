import RecordViews.Proofs.Paths

/-! Paths that are written in a crate. Word by word a path goes up and down, and above the root of
the crate there is nothing. A `super` at the root nevertheless takes `crate` back, and from there
the words behind it lead down again. So a path leads where it says exactly if no such `super` has
words behind it that lead to a name. -/

namespace RecordViews

open Grammar (Path)

/-- Followed from a place, the words lead to another one: `super` to the parent, which the outermost
place does not have, and any other word one level down. -/
inductive Reaches : Scope → List String → Scope → Prop
  | stop (place : Scope) : Reaches place [] place
  | up {place there : Scope} {rest : List String} (inside : place ≠ [])
      (further : Reaches place.dropLast rest there) : Reaches place ("super" :: rest) there
  | down {place there : Scope} {word : String} {rest : List String} (own : word ≠ "super")
      (further : Reaches (place ++ [word]) rest there) : Reaches place (word :: rest) there

/-- Followed from a place in a crate, the words lead to the root and with a `super` out of the
crate; `behind` are the words that are left then. -/
inductive Climbs : Scope → List String → List String → Prop
  | out (behind : List String) : Climbs [] ("super" :: behind) behind
  | up {place : Scope} {rest behind : List String} (inside : place ≠ [])
      (further : Climbs place.dropLast rest behind) : Climbs place ("super" :: rest) behind
  | down {place : Scope} {word : String} {rest behind : List String} (own : word ≠ "super")
      (further : Climbs (place ++ [word]) rest behind) : Climbs place (word :: rest) behind

section Following

variable {place there inside : Scope} {words behind rest : List String} {word : String}

theorem reaches_super :
    Reaches place ("super" :: rest) there ↔ place ≠ [] ∧ Reaches place.dropLast rest there := by
  constructor
  · intro followed
    cases followed with
    | up inside further => exact ⟨inside, further⟩
    | down own _ => exact absurd rfl own
  · rintro ⟨inside, further⟩
    exact .up inside further

theorem reaches_word (own : word ≠ "super") :
    Reaches place (word :: rest) there ↔ Reaches (place ++ [word]) rest there := by
  constructor
  · intro followed
    cases followed with
    | up _ _ => exact absurd rfl own
    | down _ further => exact further
  · exact .down own

theorem foldlM_nextStep?_iff :
    words.foldlM TypeName.nextStep? place = some there ↔ Reaches place words there := by
  induction words generalizing place with
  | nil =>
    constructor
    · intro same
      obtain rfl := Option.some.inj same
      exact .stop place
    · intro followed
      cases followed
      rfl
  | cons word rest ih =>
    rw [List.foldlM_cons, TypeName.nextStep?]
    by_cases back : word = "super"
    · subst back
      rw [reaches_super, if_pos (by simp), TypeName.parent?]
      by_cases outermost : place = []
      · simp [outermost]
      · simp [outermost, ih]
    · rw [reaches_word back, if_neg (by simpa using back)]
      exact ih

/-- A path that stays in the crate does not lead out of it. -/
theorem Reaches.not_climbs (followed : Reaches place words there) :
    ¬ Climbs place words behind := by
  induction followed with
  | stop place => nofun
  | up inside _ ih =>
    intro climbs
    cases climbs with
    | out => exact inside rfl
    | up _ further => exact ih further
    | down own _ => exact own rfl
  | down own _ ih =>
    intro climbs
    cases climbs with
    | out => exact own rfl
    | up _ _ => exact own rfl
    | down _ further => exact ih further

/-- With the root of the crate as one more word, the words lead to a place in the crate, or out of
it and down again from there. -/
theorem reaches_crate_iff :
    Reaches ("crate" :: place) words there ↔
      (∃ inside, Reaches place words inside ∧ there = "crate" :: inside) ∨
        ∃ behind, Climbs place words behind ∧ Reaches [] behind there := by
  constructor
  · intro followed
    induction words generalizing place with
    | nil =>
      cases followed
      exact Or.inl ⟨place, .stop place, rfl⟩
    | cons word rest ih =>
      by_cases back : word = "super"
      · subst back
        have further := (reaches_super.1 followed).2
        by_cases outermost : place = []
        · subst outermost
          exact Or.inr ⟨rest, .out rest, further⟩
        · rw [List.dropLast_cons_of_ne_nil outermost] at further
          rcases ih further with ⟨inside, stays, same⟩ | ⟨behind, climbs, again⟩
          · exact Or.inl ⟨inside, .up outermost stays, same⟩
          · exact Or.inr ⟨behind, .up outermost climbs, again⟩
      · have further := (reaches_word back).1 followed
        rcases ih further with ⟨inside, stays, same⟩ | ⟨behind, climbs, again⟩
        · exact Or.inl ⟨inside, .down back stays, same⟩
        · exact Or.inr ⟨behind, .down back climbs, again⟩
  · rintro (⟨inside, stays, rfl⟩ | ⟨behind, climbs, again⟩)
    · induction stays with
      | stop place => exact .stop _
      | up inside _ ih =>
        refine .up (List.cons_ne_nil _ _) ?_
        rwa [List.dropLast_cons_of_ne_nil inside]
      | down own _ ih => exact .down own ih
    · induction climbs with
      | out behind => exact .up (List.cons_ne_nil _ _) again
      | up inside _ ih =>
        refine .up (List.cons_ne_nil _ _) ?_
        rw [List.dropLast_cons_of_ne_nil inside]
        exact ih again
      | down own _ ih => exact .down own (ih again)

end Following

namespace Grammar.Path

/-- Where following a path starts in the module `inner` of a crate, and the words to follow. -/
def start? (inner : Scope) (p : Path) : Option (Scope × List String) :=
  match p.words with
  | [] => none
  | first :: rest =>
    some (if first = "crate" then ([], rest) else if first = "self" then (inner, rest)
      else (inner, first :: rest))

/-- The path, written in the module `inner` of a crate, leads to a place in the crate. -/
def LeadsTo (p : Path) (inner there : Scope) : Prop :=
  ∃ place words, p.start? inner = some (place, words) ∧ Reaches place words there

/-- The path, written in the module `inner` of a crate, leads out of the crate, with the words
`behind` left. -/
def LeadsOut (p : Path) (inner : Scope) (behind : List String) : Prop :=
  ∃ place words, p.start? inner = some (place, words) ∧ Climbs place words behind

end Grammar.Path

namespace TypeName

variable {inner : Scope} {p : Path}

theorem follow?_crate_iff {there : Scope} :
    follow? ("crate" :: inner) p.words = some there ↔
      ∃ place words, p.start? inner = some (place, words) ∧
        Reaches ("crate" :: place) words there := by
  unfold Path.start?
  cases p.words with
  | nil => simp [follow?]
  | cons first rest =>
    simp only [Option.some.injEq]
    by_cases root : first = "crate"
    · simp [follow?, firstStep?, root, foldlM_nextStep?_iff, and_assoc]
    · by_cases here : first = "self"
      · simp [follow?, firstStep?, here, foldlM_nextStep?_iff, and_assoc]
      · -- a word that only leads on is followed like those behind it
        have whole : follow? ("crate" :: inner) (first :: rest) =
            (first :: rest).foldlM nextStep? ("crate" :: inner) := by
          simp [follow?, firstStep?, nextStep?, root, here]
        rw [whole, foldlM_nextStep?_iff]
        simp [root, here, and_assoc]

theorem resolve?_crate_iff (plain : p.isPlain = true) {n : TypeName} :
    resolve? ("crate" :: inner) p = some n ↔
      (∃ there, p.LeadsTo inner there ∧ n.asScope = "crate" :: there) ∨
        ∃ behind, p.LeadsOut inner behind ∧ Reaches [] behind n.asScope := by
  rw [resolve?_eq_some_iff, follow?_crate_iff]
  simp only [plain, true_and, reaches_crate_iff]
  constructor
  · rintro ⟨place, words, start, ⟨inside, stays, same⟩ | ⟨behind, climbs, again⟩⟩
    · exact Or.inl ⟨inside, ⟨place, words, start, stays⟩, same⟩
    · exact Or.inr ⟨behind, ⟨place, words, start, climbs⟩, again⟩
  · rintro (⟨inside, ⟨place, words, start, stays⟩, same⟩ | ⟨behind, out, again⟩)
    · exact ⟨place, words, start, Or.inl ⟨inside, stays, same⟩⟩
    · obtain ⟨place, words, start, climbs⟩ := out
      exact ⟨place, words, start, Or.inr ⟨behind, climbs, again⟩⟩

/-- In a module of a crate a path stands for the place that it leads to in the crate, or for a place
that it leads down to after it has left the crate. So it stands for the place that it leads to, and
otherwise for none, exactly if after leaving the crate no path leads down again. -/
theorem resolve?_in_crate_iff (inner : Scope) (p : Path) (plain : p.isPlain = true) :
    (∀ n, resolve? ("crate" :: inner) p = some n ↔
      (∃ there, p.LeadsTo inner there ∧ n.asScope = "crate" :: there) ∨
        ∃ behind, p.LeadsOut inner behind ∧ Reaches [] behind n.asScope) ∧
    ((∀ n, resolve? ("crate" :: inner) p = some n ↔
        ∃ there, p.LeadsTo inner there ∧ n.asScope = "crate" :: there) ↔
      ∀ behind, p.LeadsOut inner behind → ∀ there, Reaches [] behind there → there = []) := by
  refine ⟨fun n => resolve?_crate_iff plain, ?_⟩
  constructor
  · intro faithful behind out there again
    rcases List.eq_nil_or_concat there with rfl | ⟨path, simple, rfl⟩
    · rfl
    · -- the path stands for the name of the place, and so it would have to lead to one in the crate
      have stands : resolve? ("crate" :: inner) p = some ⟨path, simple⟩ :=
        (resolve?_crate_iff plain).2 (Or.inr ⟨behind, out, by simpa [asScope] using again⟩)
      obtain ⟨_, ⟨place, words, start, stays⟩, -⟩ := (faithful _).1 stands
      obtain ⟨_, _, start', climbs⟩ := out
      obtain ⟨rfl, rfl⟩ := Prod.mk.inj (Option.some.inj (start.symm.trans start'))
      exact absurd climbs stays.not_climbs
  · intro closed n
    rw [resolve?_crate_iff plain]
    apply or_iff_left
    rintro ⟨behind, out, again⟩
    have none := closed behind out _ again
    simp [asScope] at none

/-- From one module of a crate to a record in another one beside it. -/
theorem neighbour_stands_for_itself :
    (Path.ofNames ["super", "data", "Row"]).isPlain = true ∧
      (∀ behind, (Path.ofNames ["super", "data", "Row"]).LeadsOut ["views"] behind →
        ∀ there, Reaches [] behind there → there = []) ∧
      (Path.ofNames ["super", "data", "Row"]).LeadsTo ["views"] ["data", "Row"] ∧
      resolve? ["crate", "views"] (.ofNames ["super", "data", "Row"]) =
        some ⟨["crate", "data"], "Row"⟩ := by
  have follows : Reaches ["views"] ["super", "data", "Row"] ["data", "Row"] :=
    .up (by decide) (.down (by decide) (.down (by decide) (.stop _)))
  have leads : (Path.ofNames ["super", "data", "Row"]).LeadsTo ["views"] ["data", "Row"] :=
    ⟨_, _, rfl, follows⟩
  have closed : ∀ behind, (Path.ofNames ["super", "data", "Row"]).LeadsOut ["views"] behind →
      ∀ there, Reaches [] behind there → there = [] := by
    rintro behind ⟨place, words, start, climbs⟩
    cases start
    exact absurd climbs follows.not_climbs
  have stands := (resolve?_in_crate_iff ["views"] _ (by decide)).2.2 closed
  exact ⟨by decide, closed, leads, (stands _).2 ⟨_, leads, rfl⟩⟩

/-- At the root there is no parent, and yet the path stands for a name, which is not in the
crate. -/
theorem above_root_stands_for_name :
    resolve? ["crate"] (.ofNames ["super", "Person"]) = some ⟨[], "Person"⟩ ∧
      (Path.ofNames ["super", "Person"]).LeadsOut [] ["Person"] ∧
      ∀ there, ¬ (Path.ofNames ["super", "Person"]).LeadsTo [] there := by
  refine ⟨by decide, ⟨_, _, rfl, .out _⟩, ?_⟩
  rintro there ⟨place, words, start, stays⟩
  cases start
  exact (reaches_super.1 stays).1 rfl

end TypeName

end RecordViews
