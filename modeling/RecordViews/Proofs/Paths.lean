import RecordViews.Name

/-! Where paths lead. A path starts at the root of the crate or in the module it is written in, goes
some levels up from there and then down by some words (`follow?_eq_from`). How far up and by which
words does not depend on the module. So two modules read a path alike exactly if there is one module
so many levels above the places where it starts (`resolve?_iff_above`). -/

namespace RecordViews

open Grammar (Path)

/-- Some levels up from a module, then down by some words. -/
structure Walk where
  up : Nat := 0
  down : List String := []
deriving DecidableEq, Repr

namespace Walk

def above? : Nat → Scope → Option Scope
  | 0, scope => some scope
  | n + 1, scope => (above? n scope).bind TypeName.parent?

/-- Where the walk leads from a module. -/
def from? (w : Walk) (scope : Scope) : Option Scope :=
  (above? w.up scope).map (· ++ w.down)

/-- One more word: `super` takes back the last word, or leads further up. -/
def step (w : Walk) (word : String) : Walk :=
  if word = "super" then
    if w.down = [] then { w with up := w.up + 1 } else { w with down := w.down.dropLast }
  else { w with down := w.down ++ [word] }

/-- The walk of the words of a path; the words that only say where it starts lead nowhere. -/
def ofWords : List String → Walk
  | [] => {}
  | first :: rest => rest.foldl step (if first ∈ ["crate", "self"] then {} else step {} first)

theorem above?_eq (n : Nat) (scope : Scope) :
    above? n scope = if n ≤ scope.length then some (scope.take (scope.length - n)) else none := by
  induction n with
  | zero => simp [above?]
  | succ n ih =>
    rw [above?, ih]
    -- one level more is there as long as a word is left to take back
    by_cases within : n + 1 ≤ scope.length
    · have nonempty : scope.take (scope.length - n) ≠ [] := by
        rw [← List.length_pos_iff, List.length_take]
        omega
      rw [if_pos (by omega), if_pos within, Option.bind_some, TypeName.parent?,
        if_neg (by simpa using nonempty), List.dropLast_eq_take, List.take_take, List.length_take]
      congr 2
      omega
    · rw [if_neg within]
      split
      · have empty : scope.take (scope.length - n) = [] := by
          rw [List.take_eq_nil_iff]
          omega
        rw [Option.bind_some, empty]
        rfl
      · rfl

theorem parent?_append (scope : Scope) {words : List String} (h : words ≠ []) :
    TypeName.parent? (scope ++ words) = some (scope ++ words.dropLast) := by
  unfold TypeName.parent?
  rw [if_neg (by simp [h]), List.dropLast_append_of_ne_nil h]

theorem from?_step (w : Walk) (scope : Scope) (word : String) :
    (w.from? scope).bind (TypeName.nextStep? · word) = (w.step word).from? scope := by
  unfold from? step
  cases found : above? w.up scope with
  | none =>
    split
    · split <;> simp [above?, found]
    · simp [found]
  | some top =>
    rw [Option.map_some, Option.bind_some, TypeName.nextStep?]
    by_cases back : word = "super"
    · rw [if_pos back, if_pos (by simpa using back)]
      -- where nothing is left of the way down, the walk turns one level higher
      by_cases out : w.down = []
      · simp [out, above?, found]
      · rw [if_neg out, parent?_append top out]
        simp [found]
    · rw [if_neg back, if_neg (by simpa using back)]
      simp [found]

theorem from?_foldl (words : List String) (w : Walk) (scope : Scope) :
    (w.from? scope).bind (words.foldlM TypeName.nextStep?) = (words.foldl step w).from? scope := by
  induction words generalizing w with
  | nil => simp
  | cons word rest ih =>
    rw [List.foldl_cons, ← ih, ← from?_step, Option.bind_assoc]
    rfl

/-- One walk leads from two modules to one place if it turns at one module above them. -/
theorem from?_eq_iff (w : Walk) (s t : Scope) :
    w.from? s = w.from? t ↔ above? w.up s = above? w.up t := by
  have injective : Function.Injective fun top : Scope => top ++ w.down :=
    fun _ _ => List.append_cancel_right
  exact (Option.map_injective injective).eq_iff

end Walk

namespace Grammar.Path

def words (p : Path) : List String :=
  p.segments.map (·.name)

def walk (p : Path) : Walk :=
  .ofWords p.words

/-- The module that a path written in `scope` starts in. -/
def origin (p : Path) (scope : Scope) : Scope :=
  if p.words.head? = some "crate" then ["crate"] else scope

@[simp] theorem words_ofNames (names : List String) : (ofNames names).words = names := by
  simp [words, ofNames, Function.comp_def]

@[simp] theorem isPlain_ofNames (names : List String) : (ofNames names).isPlain = true := by
  simp [isPlain, ofNames]

end Grammar.Path

namespace TypeName

variable {scope : Scope} {p : Path} {n : TypeName}

theorem firstStep?_eq_from (scope : Scope) (first : String) :
    firstStep? scope first =
      (if first ∈ ["crate", "self"] then ({} : Walk) else Walk.step {} first).from?
        (if first = "crate" then ["crate"] else scope) := by
  unfold firstStep?
  by_cases root : first = "crate"
  · simp [root, Walk.from?, Walk.above?]
  · by_cases here : first = "self"
    · simp [here, Walk.from?, Walk.above?]
    · have relative : first ∉ ["crate", "self"] := by simp [root, here]
      rw [if_neg (by simpa using root), if_neg (by simpa using here), if_neg relative, if_neg root,
        ← Walk.from?_step]
      simp [Walk.from?, Walk.above?, nextStep?]

theorem follow?_eq_from (scope : Scope) (h : p.words ≠ []) :
    follow? scope p.words = p.walk.from? (p.origin scope) := by
  unfold Path.walk Path.origin
  generalize p.words = words at h
  cases words with
  | nil => exact absurd rfl h
  | cons first rest =>
    simp only [List.head?_cons, Option.some.injEq]
    rw [follow?, firstStep?_eq_from, Walk.ofWords, ← Walk.from?_foldl]

theorem ofSegments?_eq_some_iff {segments : List String} :
    ofSegments? segments = some n ↔ segments = n.asScope := by
  unfold ofSegments? asScope
  rcases List.eq_nil_or_concat segments with rfl | ⟨front, last, rfl⟩
  · simp
  · cases n
    simp

theorem resolve?_eq_some_iff :
    resolve? scope p = some n ↔ p.isPlain = true ∧ follow? scope p.words = some n.asScope := by
  unfold resolve?
  split
  · rename_i plain
    simp [plain, Option.bind_eq_some_iff, ofSegments?_eq_some_iff, Path.words]
  · rename_i arguments
    simp [arguments]

theorem words_ne_nil (h : resolve? scope p = some n) : p.words ≠ [] := by
  intro none
  have place := (resolve?_eq_some_iff.1 h).2
  rw [none] at place
  cases place

theorem resolve?_eq_some_iff_from (h : p.words ≠ []) :
    resolve? scope p = some n ↔
      p.isPlain = true ∧ p.walk.from? (p.origin scope) = some n.asScope := by
  rw [resolve?_eq_some_iff, follow?_eq_from scope h]

/-- A path that stands for a name in one module stands for the same in another one exactly if there
is one module above the places where it starts, at the height that it climbs to. -/
theorem resolve?_iff_above {s t : Scope} (h : resolve? s p = some n) :
    resolve? t p = some n ↔
      Walk.above? p.walk.up (p.origin s) = Walk.above? p.walk.up (p.origin t) := by
  have nonempty := words_ne_nil h
  obtain ⟨plain, place⟩ := (resolve?_eq_some_iff_from nonempty).1 h
  rw [resolve?_eq_some_iff_from nonempty, ← Walk.from?_eq_iff, place]
  simp [plain, eq_comm]

theorem foldlM_nextStep? {words : List String} (down : ∀ w ∈ words, w ≠ "super") (here : Scope) :
    words.foldlM nextStep? here = some (here ++ words) := by
  induction words generalizing here with
  | nil => simp
  | cons word rest ih =>
    obtain ⟨first, others⟩ := List.forall_mem_cons.1 down
    rw [List.foldlM_cons, nextStep?, if_neg (by simpa using first)]
    exact (ih others (here ++ [word])).trans (by simp)

/-- A path of words that are no path roots leads down from the module it is written in. -/
theorem follow?_local {words : List String} (ne : words ≠ []) (own : ∀ w ∈ words, w ∉ pathRoots)
    (scope : Scope) : follow? scope words = some (scope ++ words) := by
  cases words with
  | nil => exact absurd rfl ne
  | cons first rest =>
    obtain ⟨start, others⟩ := List.forall_mem_cons.1 own
    simp only [pathRoots, List.mem_cons, not_or] at start
    have down : ∀ w ∈ rest, w ≠ "super" := by
      rintro w hw rfl
      exact others _ hw (by decide)
    rw [follow?, firstStep?, if_neg (by simpa using start.1), if_neg (by simpa using start.2.1),
      if_neg (by simpa using start.2.2.1), Option.bind_some, foldlM_nextStep? down]
    simp

theorem follow?_crate {words : List String} (own : ∀ w ∈ words, w ∉ pathRoots) (scope : Scope) :
    follow? scope ("crate" :: words) = some ("crate" :: words) := by
  have down : ∀ w ∈ words, w ≠ "super" := by
    rintro w hw rfl
    exact own _ hw (by decide)
  exact foldlM_nextStep? down ["crate"]

end TypeName

/-- A place where types are written: a module, and the record that `Self` stands for. -/
structure Site where
  module : Scope
  itself : TypeName
deriving DecidableEq, Repr

def TypeName.site (n : TypeName) : Site where
  module := n.module
  itself := n

namespace Grammar.Path

variable {p : Path} {a b : Site} {n : TypeName}

/-- The name that a path in a type stands for. -/
def meaning? (p : Path) (site : Site) : Option TypeName :=
  if p.single? = some "Self" then some site.itself else TypeName.resolve? site.module p

/-- The path stands for one name at both places, if it stands for one at all: `Self` is the same
record, or there is one module above the places where the path starts, at the height that it climbs
to. -/
def Keeps (p : Path) (a b : Site) : Prop :=
  if p.single? = some "Self" then a.itself = b.itself
  else Walk.above? p.walk.up (p.origin a.module) = Walk.above? p.walk.up (p.origin b.module)

instance (p : Path) (a b : Site) : Decidable (p.Keeps a b) :=
  inferInstanceAs (Decidable (ite _ (a.itself = b.itself)
    (Walk.above? p.walk.up (p.origin a.module) = Walk.above? p.walk.up (p.origin b.module))))

theorem keeps_comm : p.Keeps a b ↔ p.Keeps b a := by
  unfold Keeps
  split <;> exact eq_comm

/-- A path that stands for a name at one place stands for the same at another one exactly if it
keeps its meaning between them. -/
theorem meaning?_iff_keeps (h : p.meaning? a = some n) : p.meaning? b = some n ↔ p.Keeps a b := by
  unfold meaning? at h ⊢
  unfold Keeps
  split at h
  · rename_i own
    rw [if_pos own, if_pos own, Option.some.inj h, Option.some.injEq]
    exact eq_comm
  · rename_i named
    rw [if_neg named, if_neg named]
    exact TypeName.resolve?_iff_above h

/-- Two places agree on whether a path stands for a name that it has at one of them exactly if it
keeps its meaning between them. -/
theorem meanings_agree_iff_keeps (h : p.meaning? a = some n ∨ p.meaning? b = some n) :
    (p.meaning? b = some n ↔ p.meaning? a = some n) ↔ p.Keeps a b := by
  rcases h with first | second
  · rw [iff_true_right first, meaning?_iff_keeps first]
  · rw [iff_true_left second, meaning?_iff_keeps second, keeps_comm]

theorem single?_eq_some {name : String} (h : p.single? = some name) : p = .ofNames [name] := by
  unfold single? at h
  split at h
  · obtain rfl := Option.some.inj h
    rfl
  · cases h

/-- Reading a path as that of any record reads `Self` as a record of that name. -/
theorem resolve?_eq_meaning (p : Path) (module : Scope) :
    TypeName.resolve? module p = p.meaning? (TypeName.site ⟨module, "Self"⟩) := by
  unfold meaning?
  split
  · rename_i own
    rw [single?_eq_some own, TypeName.resolve?_eq_some_iff, words_ofNames, isPlain_ofNames]
    simp [TypeName.follow?, TypeName.firstStep?, TypeName.asScope, TypeName.site]
  · rfl

end Grammar.Path
end RecordViews
