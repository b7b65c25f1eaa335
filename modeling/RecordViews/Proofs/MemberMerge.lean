import Mathlib.Data.List.Forall2
import RecordViews.Proofs.Selection

/-! Which members a view starts with. All requests for one record with one config type choose
together, those that are put off as well: the members that some of them includes and none excludes,
as long as their patterns can be read. So only the set of these requests counts. -/

namespace RecordViews

open Pattern (Node)

namespace Selection

/-- The pattern can be read, if there is one that is not empty. -/
def Compiles (pattern : Option String) : Prop :=
  ∀ text, pattern = some text → text ≠ "" → ∃ n, Node.ofPattern text = .ok n

/-- There is a pattern, not an empty one, and it matches the name. -/
def Matches (pattern : Option String) (name : String) : Prop :=
  ∃ text n, pattern = some text ∧ text ≠ "" ∧ Node.ofPattern text = .ok n ∧ n.isMatch name = true

variable {pattern : Option String}

theorem readPattern_error_iff {f : Failure} :
    readPattern pattern = .error f ↔ ∃ text fault, pattern = some text ∧ text ≠ "" ∧
      Node.ofPattern text = .error fault ∧ f = .pattern text fault := by
  constructor
  · intro h
    unfold readPattern at h
    split at h
    · cases h
    · split at h
      · cases h
      · rename_i text nonempty
        split at h
        · cases h
        · rename_i fault bad
          exact ⟨text, fault, rfl, by simpa using nonempty, bad, (Except.error.inj h).symm⟩
  · rintro ⟨text, fault, rfl, nonempty, bad, rfl⟩
    simp [readPattern, nonempty, bad]

theorem mem_patternsOf_iff {n : Node} :
    n ∈ patternsOf pattern ↔
      ∃ text, pattern = some text ∧ text ≠ "" ∧ Node.ofPattern text = .ok n := by
  cases pattern with
  | none => simp [patternsOf, readPattern, Except.toOption]
  | some text =>
    by_cases nonempty : text = ""
    · simp [patternsOf, readPattern, Except.toOption, nonempty]
    · cases h : Node.ofPattern text with
      | error fault => simp [patternsOf, readPattern, Except.toOption, nonempty, h]
      | ok n' =>
        have one : patternsOf (some text) = [n'] := by
          simp [patternsOf, readPattern, Except.toOption, nonempty, h]
        rw [one, List.mem_singleton]
        constructor
        · rintro rfl
          exact ⟨text, rfl, nonempty, h⟩
        · rintro ⟨_, ⟨⟩, -, good⟩
          exact Except.ok.inj (good.symm.trans h)

theorem compiles_iff : Compiles pattern ↔ readPattern pattern = .ok (patternsOf pattern) := by
  constructor
  · intro compiles
    rcases readPattern_cases pattern with read | ⟨f, failed⟩
    · exact read
    · obtain ⟨text, fault, given, nonempty, bad, -⟩ := readPattern_error_iff.1 failed
      obtain ⟨n, good⟩ := compiles text given nonempty
      rw [bad] at good
      cases good
  · intro read text given nonempty
    cases h : Node.ofPattern text with
    | ok n => exact ⟨n, rfl⟩
    | error fault =>
      rw [readPattern_error_iff.2 ⟨text, fault, given, nonempty, h, rfl⟩] at read
      cases read

theorem isSome_iff_compiles : (readPattern pattern).toOption.isSome = true ↔ Compiles pattern := by
  rw [compiles_iff]
  rcases readPattern_cases pattern with read | ⟨f, failed⟩
  · simp [read, Except.toOption]
  · simp [failed, Except.toOption]

instance : Decidable (Compiles pattern) :=
  decidable_of_iff _ isSome_iff_compiles

theorem mentions_iff {names : List String} {name : String} :
    Mentions names pattern name ↔ name ∈ names ∨ Matches pattern name := by
  refine or_congr_right ⟨?_, ?_⟩
  · rintro ⟨n, hn, hit⟩
    obtain ⟨text, given, nonempty, good⟩ := mem_patternsOf_iff.1 hn
    exact ⟨text, n, given, nonempty, good, hit⟩
  · rintro ⟨text, n, given, nonempty, good, hit⟩
    exact ⟨n, mem_patternsOf_iff.2 ⟨text, given, nonempty, good⟩, hit⟩

theorem add_error {s : Selection} {q : ViewRequest} {f : Failure} (h : s.add q = .error f) :
    readPattern q.includePattern = .error f ∨ readPattern q.excludePattern = .error f := by
  unfold add at h
  cases hi : readPattern q.includePattern with
  | error f' =>
    rw [hi] at h
    exact Or.inl (congrArg _ (Except.error.inj h))
  | ok _ =>
    cases he : readPattern q.excludePattern with
    | error f' =>
      rw [hi, he] at h
      exact Or.inr (congrArg _ (Except.error.inj h))
    | ok _ =>
      rw [hi, he] at h
      cases h

theorem foldlM_add_error {rs : List ViewRequest} {s : Selection} {f : Failure}
    (h : rs.foldlM add s = .error f) :
    ∃ q ∈ rs,
      readPattern q.includePattern = .error f ∨ readPattern q.excludePattern = .error f := by
  induction rs generalizing s with
  | nil => cases h
  | cons q rest ih =>
    rw [List.foldlM_cons] at h
    cases hadd : s.add q with
    | error f' =>
      rw [hadd] at h
      obtain rfl : f' = f := Except.error.inj h
      exact ⟨q, List.mem_cons_self, add_error hadd⟩
    | ok s' =>
      rw [hadd] at h
      obtain ⟨q', hq', bad⟩ := ih h
      exact ⟨q', List.mem_cons_of_mem q hq', bad⟩

/-- Requests together give rules unless one of their patterns cannot be read, and then one of these
is what is reported. -/
theorem ofRequests_error {rs : List ViewRequest} {f : Failure} (h : ofRequests rs = .error f) :
    ∃ q ∈ rs, ∃ text fault, (q.includePattern = some text ∨ q.excludePattern = some text) ∧
      text ≠ "" ∧ Node.ofPattern text = .error fault ∧ f = .pattern text fault := by
  obtain ⟨q, hq, bad | bad⟩ := foldlM_add_error h
  · obtain ⟨text, fault, given, rest⟩ := readPattern_error_iff.1 bad
    exact ⟨q, hq, text, fault, Or.inl given, rest⟩
  · obtain ⟨text, fault, given, rest⟩ := readPattern_error_iff.1 bad
    exact ⟨q, hq, text, fault, Or.inr given, rest⟩

end Selection

/-- Members that cannot be chosen do not end the round. -/
theorem baseProperties_harmless {source : SourceType} {rs : List ViewRequest}
    {winner : ViewRequest} {f : Failure} (h : baseProperties source rs winner = .error f) :
    f.abort? = none := by
  unfold baseProperties at h
  cases read : Selection.ofRequests rs with
  | error f' =>
    rw [read] at h
    obtain rfl := Except.error.inj h
    obtain ⟨-, -, text, fault, -, -, -, rfl⟩ := Selection.ofRequests_error read
    rfl
  | ok selection =>
    rw [read] at h
    cases h

/-- The request, of some bearer of the round, is for views of the target with the changes of the
config type. -/
def Contributes (bearers : List Bearer) (target config : TypeName) (q : ViewRequest) : Prop :=
  ∃ b ∈ bearers, q ∈ b.requests ∧ q.target.resolve b.name = target ∧
    q.config.resolve b.name = config

theorem mem_contributing_iff {bearers : List Bearer} {target config : TypeName} {q : ViewRequest} :
    q ∈ contributing bearers target config ↔ Contributes bearers target config q := by
  simp [contributing, Contributes]

/-- Some contributing request names or matches the member to include it, and none to exclude it. -/
def Chosen (bearers : List Bearer) (target config : TypeName) (name : String) : Prop :=
  (∃ q, Contributes bearers target config q ∧
      (name ∈ q.includes ∨ Selection.Matches q.includePattern name)) ∧
    ¬ ∃ q, Contributes bearers target config q ∧
      (name ∈ q.excludes ∨ Selection.Matches q.excludePattern name)

/-- The property is that of the member, with the accesses that the request gives; a member that
cannot be written has no setter. -/
structure Property.Shows (p : Property) (m : Member) (q : ViewRequest) : Prop where
  source : p.source = some m
  name : p.name = m.name
  getter : p.getter = q.getters
  setter : p.setter = if m.writable then q.setters else .none

theorem Property.ofMember_shows (m : Member) (q : ViewRequest) :
    (ofMember m q.getters q.setters).Shows m q :=
  ⟨rfl, rfl, rfl, rfl⟩

open Classical in
theorem baseProperties_of_compiles (t : SourceType) (bearers : List Bearer)
    (target config : TypeName) (winner : ViewRequest)
    (compiles : ∀ q, Contributes bearers target config q →
      Selection.Compiles q.includePattern ∧ Selection.Compiles q.excludePattern) :
    baseProperties t (contributing bearers target config) winner =
      .ok ((t.members.filter fun m => Chosen bearers target config m.name).map fun m =>
        Property.ofMember m winner.getters winner.setters) := by
  have readable : ∀ q ∈ contributing bearers target config, Selection.Readable q := by
    intro q hq
    obtain ⟨include_, exclude⟩ := compiles q (mem_contributing_iff.1 hq)
    exact ⟨Selection.compiles_iff.1 include_, Selection.compiles_iff.1 exclude⟩
  have same : (t.members.filter fun m =>
        (Selection.together {} (contributing bearers target config)).accepts m.name) =
      t.members.filter fun m => Chosen bearers target config m.name := by
    refine List.filter_congr fun m _ => ?_
    rw [Bool.eq_iff_iff, Selection.accepts_together_iff, decide_eq_true_iff]
    simp only [Selection.Includes, Selection.Excludes, Selection.mentions_iff,
      mem_contributing_iff, Chosen]
  rw [baseProperties, Selection.ofRequests_of_readable readable, ← same]
  rfl

/-- The properties that a view starts with. If all patterns of the contributing requests can be
read, they are those of the members chosen, in their order, with the accesses of the request that
the view is generated for; otherwise there are none, and a pattern that cannot be read is reported.
Only which requests contribute counts, and not in which order or how often. -/
theorem baseProperties_merge (t : SourceType) (bearers : List Bearer) (target config : TypeName)
    (winner : ViewRequest) :
    let result := baseProperties t (contributing bearers target config) winner
    ((∀ q, Contributes bearers target config q →
        Selection.Compiles q.includePattern ∧ Selection.Compiles q.excludePattern) →
      ∃ ps, result = .ok ps ∧ List.Forall₂ (fun m p => p.Shows m winner)
        (open Classical in t.members.filter fun m => Chosen bearers target config m.name) ps) ∧
    ((∃ q, Contributes bearers target config q ∧
        ¬ (Selection.Compiles q.includePattern ∧ Selection.Compiles q.excludePattern)) →
      ∃ q text fault, Contributes bearers target config q ∧
        (q.includePattern = some text ∨ q.excludePattern = some text) ∧ text ≠ "" ∧
        Node.ofPattern text = .error fault ∧ result = .error (.pattern text fault)) ∧
    ∀ rs, (∀ q, q ∈ rs ↔ Contributes bearers target config q) →
      (baseProperties t rs winner).toOption = result.toOption := by
  intro result
  refine ⟨fun compiles => ?_, ?_, fun rs same => ?_⟩
  · refine ⟨_, baseProperties_of_compiles t bearers target config winner compiles, ?_⟩
    rw [List.forall₂_map_right_iff]
    exact List.forall₂_same.2 fun m _ => Property.ofMember_shows m winner
  · rintro ⟨q, contributes, bad⟩
    have unreadable : ¬ Selection.Readable q := fun readable =>
      bad ⟨Selection.compiles_iff.2 readable.1, Selection.compiles_iff.2 readable.2⟩
    obtain ⟨f, hf⟩ := Selection.ofRequests_of_not_readable
      (mem_contributing_iff.2 contributes) unreadable
    obtain ⟨q', hq', text, fault, given, nonempty, fails, rfl⟩ := Selection.ofRequests_error hf
    refine ⟨q', text, fault, mem_contributing_iff.1 hq', given, nonempty, fails, ?_⟩
    simp only [result, baseProperties, hf]
    rfl
  · refine baseProperties_congr (fun q => ?_) t winner
    rw [same, mem_contributing_iff]

def staffMember : SourceType where
  name := ⟨["crate"], "Member"⟩
  members := ["name", "age", "age_group", "email"].map fun name =>
    .field name (.path (.ofNames ["String"]))

/-- Two bearers choose from one record; the first one is put off in favour of the second. -/
def staff : List Bearer := [
  { name := ⟨["crate"], "B"⟩
    requests := [{
      target := .named staffMember.name
      config := .named staffMember.name
      includePattern := some "a.*"
      excludePattern := some "" }] },
  { name := ⟨["crate"], "A"⟩
    requests := [{
      target := .named staffMember.name
      config := .named staffMember.name
      includes := ["name", "email"]
      excludes := ["email"]
      excludePattern := some "age_[a-z]+" }] }]

theorem staff_merge :
    (∀ q, Contributes staff staffMember.name staffMember.name q →
      Selection.Compiles q.includePattern ∧ Selection.Compiles q.excludePattern) ∧
    ∃ ps, baseProperties staffMember
        (contributing staff staffMember.name staffMember.name) {} = .ok ps ∧
      List.Forall₂ (fun m p => p.Shows m {}) (open Classical in staffMember.members.filter fun m =>
        Chosen staff staffMember.name staffMember.name m.name) ps ∧
      ps.map (·.name) = ["name", "age"] := by
  have compiles : ∀ q ∈ contributing staff staffMember.name staffMember.name,
      Selection.Compiles q.includePattern ∧ Selection.Compiles q.excludePattern := by
    decide +kernel
  have names : (baseProperties staffMember
      (contributing staff staffMember.name staffMember.name) {}).toOption.map
        (·.map (·.name)) = some ["name", "age"] := by
    decide +kernel
  have compiles : ∀ q, Contributes staff staffMember.name staffMember.name q →
      Selection.Compiles q.includePattern ∧ Selection.Compiles q.excludePattern :=
    fun q hq => compiles q (mem_contributing_iff.2 hq)
  obtain ⟨ps, result, shown⟩ :=
    (baseProperties_merge staffMember staff staffMember.name staffMember.name {}).1 compiles
  rw [result] at names
  exact ⟨compiles, ps, result, shown, Option.some.inj names⟩

end RecordViews
