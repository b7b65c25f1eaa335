import RecordViews.Proofs.Customising
import RecordViews.Proofs.Paths
import RecordViews.Proofs.Spelling

/-! Names that are printed into a module and read there again. A name is printed with all its words
unless it lies in the module itself, and a word that is a keyword gets the mark of a raw identifier,
which reading does not take off. So the path reads back exactly if the name lies in the module
itself or below the root of the crate, and no word that is printed is a keyword. -/

namespace RecordViews

open Grammar (Path)

/-- The word can be the name of something declared: it is one word without a mark, which stands for
no place. It may be a keyword. -/
structure Declarable (word : String) : Prop where
  sole : soleWord? word = some word
  bare : unraw word = word
  own : word ∉ "_" :: pathRoots

namespace Declarable

variable {w i : String}

instance (w : String) : Decidable (Declarable w) :=
  decidable_of_iff (soleWord? w = some w ∧ unraw w = w ∧ w ∉ "_" :: pathRoots)
    ⟨fun ⟨sole, bare, own⟩ => ⟨sole, bare, own⟩, fun h => ⟨h.sole, h.bare, h.own⟩⟩

theorem not_root (h : Declarable w) : w ∉ pathRoots :=
  fun root => h.own (List.mem_cons_of_mem "_" root)

theorem segment_eq (h : Declarable w) :
    segment w = .ok (if isKeyword w then "r#" ++ w else w) := by
  have root : pathRoots.contains w = false := by simpa using h.not_root
  have blank : (w == "_") = false := beq_eq_false_iff_ne.2 fun e => h.own (e ▸ List.mem_cons_self)
  have alone : asIdentifier w = .ok w := asIdentifier_ok_iff.2 ⟨rfl, h.sole⟩
  unfold segment identifier
  simp only [h.bare, h.sole, root, blank, alone]
  cases isKeyword w <;> rfl

/-- It is printed as it is unless it is a keyword, which gets a mark. -/
theorem segment_eq_self_iff (h : Declarable w) : segment w = .ok w ↔ isKeyword w = false := by
  rw [h.segment_eq, Except.ok.injEq]
  cases isKeyword w <;> simp

theorem printed_not_root (h : Declarable w) (printed : segment w = .ok i) : i ∉ pathRoots := by
  rw [h.segment_eq] at printed
  obtain rfl := Except.ok.inj printed
  split
  · intro root
    -- a word with a mark is none of the roots, which have none
    have unmarked : ∀ r ∈ pathRoots, unraw r = r := by decide
    exact raw_ne w ((unmarked _ root).symm.trans (unraw_raw w))
  · exact h.not_root

end Declarable

/-- Words that lead to a module or a record: the first may be the root of the crate. -/
structure Rooted (words : List String) : Prop where
  first : ∀ w ∈ words.head?, w = "crate" ∨ Declarable w
  others : ∀ w ∈ words.tail, Declarable w

namespace Rooted

variable {words more : List String}

instance (words : List String) : Decidable (Rooted words) :=
  decidable_of_iff
    ((∀ w ∈ words.head?, w = "crate" ∨ Declarable w) ∧ ∀ w ∈ words.tail, Declarable w)
    ⟨fun ⟨first, others⟩ => ⟨first, others⟩, fun h => ⟨h.first, h.others⟩⟩

theorem take (h : Rooted words) (n : Nat) : Rooted (words.take n) := by
  constructor
  · intro w hw
    rw [List.head?_take] at hw
    split at hw
    · cases hw
    · exact h.first w hw
  · intro w hw
    have tails : (words.take n).tail = words.tail.take (n - 1) := by
      cases words <;> cases n <;> simp
    exact h.others w (List.mem_of_mem_take (tails ▸ hw))

theorem mem {w : String} (h : Rooted words) (hw : w ∈ words) : w = "crate" ∨ Declarable w := by
  cases words with
  | nil => cases hw
  | cons first rest =>
    rcases List.mem_cons.1 hw with rfl | hw
    · exact h.first w rfl
    · exact Or.inr (h.others w hw)

theorem root_only (h : Rooted (words ++ ["crate"])) : words = [] := by
  cases words with
  | nil => rfl
  | cons first rest => exact absurd (by decide) (h.others "crate" (by simp)).not_root

theorem append (h : Rooted words) (h' : ∀ w ∈ more, Declarable w) : Rooted (words ++ more) := by
  cases words with
  | nil =>
    exact ⟨fun w hw => Or.inr (h' w (List.mem_of_mem_head? hw)),
      fun w hw => h' w (List.mem_of_mem_tail hw)⟩
  | cons first rest =>
    refine ⟨h.first, fun w hw => ?_⟩
    rcases List.mem_append.1 hw with hw | hw
    · exact h.others w hw
    · exact h' w hw

theorem segment_ok (h : Rooted words) : ∀ w ∈ words, ∃ i, segment w = .ok i := by
  intro w hw
  rcases h.mem hw with rfl | own
  · exact ⟨"crate", rfl⟩
  · exact ⟨_, own.segment_eq⟩

theorem unchanged_iff (h : Rooted words) :
    (∀ w ∈ words, segment w = .ok w) ↔ ∀ w ∈ words, isKeyword w = true → w = "crate" := by
  refine forall₂_congr fun w hw => ?_
  rcases h.mem hw with rfl | own
  · exact iff_of_true rfl fun _ => rfl
  · have other : w ≠ "crate" := fun root => own.not_root (root ▸ by decide)
    rw [own.segment_eq_self_iff]
    simp [other]

end Rooted

/-- The path consists of names, with `super` anywhere among them, behind nothing or behind a word
that says where it starts. -/
structure Grammar.Path.Ordinary (p : Path) : Prop where
  first : ∀ w ∈ p.words.head?, w ∈ ["crate", "self", "super"] ∨ Declarable w
  others : ∀ w ∈ p.words.tail, w = "super" ∨ Declarable w

instance (p : Path) : Decidable p.Ordinary :=
  decidable_of_iff
    ((∀ w ∈ p.words.head?, w ∈ ["crate", "self", "super"] ∨ Declarable w) ∧
      ∀ w ∈ p.words.tail, w = "super" ∨ Declarable w)
    ⟨fun ⟨first, others⟩ => ⟨first, others⟩, fun h => ⟨h.first, h.others⟩⟩

namespace Walk

theorem step_down {w : Walk} {word : String} (h : ∀ d ∈ w.down, Declarable d)
    (h' : word = "super" ∨ Declarable word) : ∀ d ∈ (w.step word).down, Declarable d := by
  unfold step
  split
  · split
    · exact h
    · exact fun d hd => h d (List.dropLast_subset _ hd)
  · rename_i name
    intro d hd
    rcases List.mem_append.1 hd with hd | hd
    · exact h d hd
    · obtain rfl := List.mem_singleton.1 hd
      exact h'.resolve_left name

theorem foldl_step_down {words : List String} (h' : ∀ w ∈ words, w = "super" ∨ Declarable w)
    {w : Walk} (h : ∀ d ∈ w.down, Declarable d) :
    ∀ d ∈ (words.foldl step w).down, Declarable d := by
  induction words generalizing w with
  | nil => exact h
  | cons word rest ih =>
    obtain ⟨first, others⟩ := List.forall_mem_cons.1 h'
    exact ih others (step_down h first)

theorem walk_down {p : Path} (h : p.Ordinary) : ∀ d ∈ p.walk.down, Declarable d := by
  obtain ⟨first, others⟩ := h
  unfold Path.walk
  generalize p.words = words at first others
  cases words with
  | nil => simp [ofWords]
  | cons word rest =>
    refine foldl_step_down others ?_
    split
    · simp
    · rename_i relative
      refine step_down (by simp) ?_
      rcases first word rfl with place | own
      · simp only [List.mem_cons, List.not_mem_nil, or_false, not_or] at place relative
        exact Or.inl ((place.resolve_left relative.1).resolve_left relative.2)
      · exact Or.inr own

end Walk

namespace TypeName

variable {scope : Scope} {p : Path} {n : TypeName}

theorem writeSegments_ok_iff {words printed : List String} :
    writeSegments words = .ok printed ↔ words.map segment = printed.map .ok := by
  induction words generalizing printed with
  | nil => cases printed <;> simp [writeSegments]
  | cons w rest ih =>
    simp only [writeSegments, bind_ok_iff]
    cases printed with
    | nil => simp [pure, Except.pure]
    | cons i others =>
      simp only [pure, Except.pure, Except.ok.injEq, List.cons.injEq, List.map_cons, ← ih]
      constructor
      · rintro ⟨_, first, _, later, rfl, rfl⟩
        exact ⟨first, later⟩
      · rintro ⟨first, later⟩
        exact ⟨i, first, others, later, rfl, rfl⟩

theorem printed_eq_iff {words printed : List String}
    (h : words.map segment = printed.map .ok) :
    printed = words ↔ ∀ w ∈ words, segment w = .ok w := by
  constructor
  · rintro rfl
    exact List.map_inj_left.1 h
  · intro same
    rw [List.map_congr_left same] at h
    exact (List.map_inj_right fun _ _ => Except.ok.inj).1 h.symm

theorem exists_printed {words : List String} (h : ∀ w ∈ words, ∃ i, segment w = .ok i) :
    ∃ printed : List String, words.map segment = printed.map .ok := by
  induction words with
  | nil => exact ⟨[], rfl⟩
  | cons w rest ih =>
    obtain ⟨first, others⟩ := List.forall_mem_cons.1 h
    obtain ⟨i, hi⟩ := first
    obtain ⟨printed, e⟩ := ih others
    exact ⟨i :: printed, by simp [hi, e]⟩

/-- Printed words lead down, from the root of the crate if they start there and from the module
they are printed into if not. -/
theorem follow?_printed {words printed : List String} (rooted : Rooted words) (ne : words ≠ [])
    (h : words.map segment = printed.map .ok) (scope : Scope) :
    follow? scope printed =
      some ((if words.head? = some "crate" then [] else scope) ++ printed) := by
  have own {words printed : List String} (declarable : ∀ w ∈ words, Declarable w)
      (h : words.map segment = printed.map .ok) : ∀ i ∈ printed, i ∉ pathRoots := by
    intro i hi
    have image : .ok i ∈ words.map segment := h ▸ List.mem_map_of_mem hi
    obtain ⟨w, hw, e⟩ := List.mem_map.1 image
    exact (declarable w hw).printed_not_root e
  cases words with
  | nil => exact absurd rfl ne
  | cons first rest =>
    cases printed with
    | nil => simp at h
    | cons i others =>
      obtain ⟨written, written'⟩ := List.cons.inj h
      by_cases root : first = "crate"
      · subst root
        obtain rfl : "crate" = i := Except.ok.inj written
        rw [follow?_crate (own rooted.others written')]
        simp
      · have declarable := List.forall_mem_cons.2
          ⟨(rooted.first first rfl).resolve_left root, rooted.others⟩
        rw [follow?_local (by simp) (own declarable h)]
        simp [root]

theorem asScope_rooted (rooted : Rooted scope) (ordinary : p.Ordinary)
    (h : resolve? scope p = some n) : Rooted n.asScope := by
  have start : Rooted (p.origin scope) := by
    unfold Path.origin
    split
    · exact ⟨fun w hw => Or.inl (Option.some.inj hw).symm, by simp⟩
    · exact rooted
  obtain ⟨-, place⟩ := (resolve?_eq_some_iff_from (words_ne_nil h)).1 h
  obtain ⟨top, above, e⟩ := Option.map_eq_some_iff.1 place
  rw [Walk.above?_eq] at above
  split at above
  · obtain rfl := Option.some.inj above
    exact e ▸ (start.take _).append (Walk.walk_down ordinary)
  · cases above

/-- The path by which a module names a type that it has resolved is read back as that type exactly
if the type lies in the module itself or below the root of the crate, and no word but this root is a
keyword. In a module without words every name is read from the outermost place. -/
theorem pathFrom_resolves_iff (rooted : Rooted scope) (ordinary : p.Ordinary)
    (h : resolve? scope p = some n) :
    ∃ q, n.pathFrom scope = .ok q ∧
      (resolve? scope q = some n ↔
        (n.module = scope ∨ scope = [] ∨ n.asScope.head? = some "crate") ∧
          ∀ w ∈ n.segmentsFrom scope, isKeyword w = true → w = "crate") := by
  have whole := asScope_rooted rooted ordinary h
  have last : n.simple ∈ n.asScope := by simp [asScope]
  have segments : n.segmentsFrom scope = if n.module = scope then [n.simple] else n.asScope := rfl
  have part : Rooted (n.segmentsFrom scope) := by
    rw [segments]
    split
    · exact ⟨fun w hw => Option.some.inj hw ▸ whole.mem last, by simp⟩
    · exact whole
  have ne : n.segmentsFrom scope ≠ [] := by
    rw [segments]
    split <;> simp [asScope]
  obtain ⟨printed, e⟩ := exists_printed part.segment_ok
  refine ⟨.ofNames printed, congrArg (·.map Path.ofNames) (writeSegments_ok_iff.2 e), ?_⟩
  rw [resolve?_eq_some_iff, Path.words_ofNames, follow?_printed part ne e, ← part.unchanged_iff,
    ← printed_eq_iff e]
  simp only [Path.isPlain_ofNames, true_and, Option.some.injEq]
  rw [segments] at e ⊢
  by_cases here : n.module = scope
  · have base : (if [n.simple].head? = some "crate" then [] else scope) = scope := by
      split
      · rename_i root
        have outer : n.asScope = scope ++ ["crate"] := by
          rw [asScope, here, Option.some.inj root]
        exact (outer ▸ whole).root_only.symm
      · rfl
    rw [if_pos here, base]
    simp [asScope, here]
  · rw [if_neg here] at e ⊢
    have length : n.asScope.length = printed.length := by simpa using congrArg List.length e
    -- printing keeps the number of words, so nothing can stand in front of them
    have longer : scope ++ printed = n.asScope ↔ scope = [] ∧ printed = n.asScope := by
      constructor
      · intro same
        have none : scope = [] := by
          rw [← List.length_eq_zero_iff]
          have sum := congrArg List.length same
          rw [List.length_append] at sum
          omega
        exact ⟨none, by simpa [none] using same⟩
      · rintro ⟨rfl, rfl⟩
        rfl
    by_cases root : n.asScope.head? = some "crate"
    · simp [root]
    · simp only [root, here, if_false, false_or, or_false, longer]

/-- From one module of a crate into another one beside it. -/
theorem neighbour_reads_back :
    ∃ q, pathFrom ⟨["crate", "data"], "Row"⟩ ["crate", "views"] = .ok q ∧
      resolve? ["crate", "views"] q = some ⟨["crate", "data"], "Row"⟩ := by
  have rooted : Rooted ["crate", "views"] := by decide
  have ordinary : (Path.ofNames ["super", "data", "Row"]).Ordinary := by decide
  have resolved : resolve? ["crate", "views"] (.ofNames ["super", "data", "Row"]) =
      some ⟨["crate", "data"], "Row"⟩ := by decide
  obtain ⟨q, printed, back⟩ := pathFrom_resolves_iff rooted ordinary resolved
  exact ⟨q, printed, back.2 (by decide)⟩

/-- The name of a module that is not below the root of the crate leads down once more from there,
and so one module too deep. -/
theorem inner_read_too_deep :
    Rooted ["m"] ∧ (Path.ofNames ["inner", "Config"]).Ordinary ∧
      resolve? ["m"] (.ofNames ["inner", "Config"]) = some ⟨["m", "inner"], "Config"⟩ ∧
      pathFrom ⟨["m", "inner"], "Config"⟩ ["m"] = .ok (.ofNames ["m", "inner", "Config"]) ∧
      resolve? ["m"] (.ofNames ["m", "inner", "Config"]) =
        some ⟨["m", "m", "inner"], "Config"⟩ :=
  ⟨by decide, by decide, by decide, rfl, by decide⟩

end TypeName
end RecordViews
