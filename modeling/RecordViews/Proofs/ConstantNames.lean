import RecordViews.Proofs.Customising
import RecordViews.Proofs.GeneratedItems
import RecordViews.Proofs.QuotedTexts
import RecordViews.Proofs.RoundStep
import RecordViews.Proofs.SolidTexts
import RecordViews.View.Constants

/-! The constants of a meta type, one for each member. Their texts are taken apart from member
names at everything that is neither letter nor digit, so they have no separators, and different
texts are different identifiers. A member whose constant cannot be written, or came up before, stops
the whole type. -/

namespace RecordViews

open Grammar (Path)
open Text (Solid constantCase)

namespace Text

theorem alphanumericRuns_ne_nil (s : List Char) : alphanumericRuns s ≠ [] := by
  fun_induction alphanumericRuns s <;> simp

theorem alphanumericRuns_alphanumeric (s : List Char) :
    ∀ run ∈ alphanumericRuns s, ∀ c ∈ run, isAlphanumeric c = true := by
  fun_induction alphanumericRuns s with
  | case1 => simp
  | case2 d rest none => exact absurd none (alphanumericRuns_ne_nil rest)
  | case3 d rest run runs found alphanumeric ih =>
    obtain ⟨first, others⟩ := List.forall_mem_cons.1 (found ▸ ih)
    exact List.forall_mem_cons.2 ⟨List.forall_mem_cons.2 ⟨alphanumeric, first⟩, others⟩
  | case4 d rest run runs found _ ih =>
    exact List.forall_mem_cons.2 ⟨List.forall_mem_nil _, found ▸ ih⟩

theorem mem_caseWords {mode : WordCase} {done s word : List Char} {c : Char}
    (inside : word ∈ caseWords mode done s) (h : c ∈ word) : c ∈ done ∨ c ∈ s := by
  fun_induction caseWords mode done s with
  | case1 => cases inside
  | case2 mode done d =>
    obtain rfl := List.mem_singleton.1 inside
    simpa [or_comm] using h
  | case3 mode done d next rest _ _ ih =>
    rcases List.mem_cons.1 inside with rfl | inside
    · rw [List.mem_reverse, List.mem_cons] at h
      exact h.elim (fun same => Or.inr (by simp [same])) Or.inl
    · exact Or.inr (List.mem_cons_of_mem d ((ih inside).resolve_left List.not_mem_nil))
  | case4 mode done d next rest _ _ _ ih =>
    rcases List.mem_cons.1 inside with rfl | inside
    · exact Or.inl (List.mem_reverse.1 h)
    · rcases ih inside with own | own
      · exact Or.inr (by simp [List.mem_singleton.1 own])
      · exact Or.inr (List.mem_cons_of_mem d own)
  | case5 mode done d next rest _ _ _ ih =>
    rcases ih inside with own | own
    · exact (List.mem_cons.1 own).elim (fun same => Or.inr (by simp [same])) Or.inl
    · exact Or.inr (List.mem_cons_of_mem d own)

theorem solidText_intercalate {sep : String} {ws : List String} (mark : SolidText sep.toList)
    (solid : ∀ w ∈ ws, SolidText w.toList) : SolidText (sep.intercalate ws).toList := by
  induction ws with
  | nil => simp [SolidText]
  | cons w rest ih =>
    obtain ⟨first, others⟩ := List.forall_mem_cons.1 solid
    cases rest with
    | nil =>
      rw [String.intercalate_singleton]
      exact first
    | cons next rest =>
      rw [String.intercalate_cons_cons, String.toList_append, String.toList_append]
      exact List.forall_mem_append.2 ⟨List.forall_mem_append.2 ⟨first, mark⟩, ih others⟩

theorem solid_constantCase (name : String) : SolidText (constantCase name).toList := by
  refine solidText_intercalate (by decide) fun w hw => ?_
  obtain ⟨word, inside, rfl⟩ := List.mem_map.1 hw
  obtain ⟨run, found, made⟩ := List.mem_flatMap.1 inside
  rw [String.toList_ofList]
  intro d hd
  obtain ⟨c, hc, image⟩ := List.mem_flatMap.1 hd
  have alphanumeric : isAlphanumeric c = true := by
    refine alphanumericRuns_alphanumeric _ run found c ?_
    exact (mem_caseWords made hc).resolve_left List.not_mem_nil
  exact solid_upper alphanumeric d image

end Text

/-- Constants of different texts that can be written are different identifiers. -/
theorem constantCase_inj {member member' i : String}
    (h : identifier? (constantCase member) = some i)
    (h' : identifier? (constantCase member') = some i) :
    constantCase member = constantCase member' := by
  have solid := Text.solid_constantCase member
  have solid' := Text.solid_constantCase member'
  have same := ((plain_of_solid solid h).identifier?_eq_iff (plain_of_solid solid' h') h).1
    (h.trans h'.symm)
  rwa [unraw_solid solid, unraw_solid solid'] at same

/-- The identifier of the constant is that of the member which is its value. -/
def NameConstant.Named (c : NameConstant) : Prop :=
  identifier? (constantCase c.member) = some c.name

/-- The constant is declared with a literal that stands for its value. -/
def NameConstant.Declared (c : NameConstant) : Prop :=
  ∃ doc literal, GeneratedConstants.constantTokens c =
      docLine doc ++ words "pub const" ++ .ident c.name :: words ": & 'static str =" ++
        [.literal literal, .punct ';' false] ∧
    Text.stringValue? literal = some c.member

theorem NameConstant.declared (c : NameConstant) : c.Declared :=
  ⟨_, _, rfl, Text.stringValue?_quote c.member⟩

/-- The constants of the members can all be written, and no two are the same or one of those
seen. -/
structure Writable (seen members : List String) : Prop where
  words : ∀ m ∈ members, (identifier? (constantCase m)).isSome = true
  once : (members.map constantCase).Nodup
  new : ∀ m ∈ members, constantCase m ∉ seen

/-- Why the constant of the member cannot follow those seen. -/
inductive Offends (seen : List String) (member : String) : RenderFault → Prop
  | repeated (old : constantCase member ∈ seen) :
      Offends seen member (.repeatedConstant (constantCase member))
  | unwritable (new : constantCase member ∉ seen)
      (none : identifier? (constantCase member) = none) :
      Offends seen member (.identifier (constantCase member))

section Constants

-- a constant is never evaluated here
attribute [local irreducible] Text.constantCase identifier?

variable {seen members before after : List String} {member : String} {cs : List NameConstant}
  {fault : RenderFault} {view : TypeName} {f : Failure}

theorem Writable.nil (seen : List String) : Writable seen [] :=
  ⟨by simp, by simp, by simp⟩

theorem writable_cons : Writable seen (member :: members) ↔
    (identifier? (constantCase member)).isSome = true ∧ constantCase member ∉ seen ∧
      Writable (constantCase member :: seen) members := by
  constructor
  · rintro ⟨words, once, new⟩
    obtain ⟨word, words⟩ := List.forall_mem_cons.1 words
    obtain ⟨first, new⟩ := List.forall_mem_cons.1 new
    obtain ⟨apart, once⟩ := List.nodup_cons.1 once
    refine ⟨word, first, words, once, fun m hm old => ?_⟩
    rcases List.mem_cons.1 old with same | old
    · exact apart (same ▸ List.mem_map_of_mem hm)
    · exact new m hm old
  · rintro ⟨word, first, words, once, new⟩
    refine ⟨List.forall_mem_cons.2 ⟨word, words⟩, List.nodup_cons.2 ⟨?_, once⟩,
      List.forall_mem_cons.2 ⟨first, fun m hm old => new m hm (List.mem_cons_of_mem _ old)⟩⟩
    intro again
    obtain ⟨m, hm, same⟩ := List.mem_map.1 again
    exact new m hm (same ▸ List.mem_cons_self)

theorem Offends.congr {seen' : List String} (same : ∀ c, c ∈ seen ↔ c ∈ seen')
    (h : Offends seen member fault) : Offends seen' member fault := by
  cases h with
  | repeated old => exact .repeated ((same _).1 old)
  | unwritable new none => exact .unwritable (mt (same _).2 new) none

/-- A member whose constant cannot follow keeps the constants from being written. -/
theorem Offends.not_writable (h : Offends (before.map constantCase) member fault) :
    ¬ Writable [] (before ++ member :: after) := by
  intro writable
  cases h with
  | repeated old =>
    have once := writable.once
    rw [List.map_append, List.nodup_append] at once
    exact once.2.2 _ old _ (by simp) rfl
  | unwritable _ none =>
    have word := writable.words member (by simp)
    rw [none] at word
    cases word

namespace GeneratedConstants

/-- The text of a constant is an identifier or is none, but never taken for one without being
one. -/
theorem written_constant (view : TypeName) (member : String) :
    GeneratedRecord.written view (identifier (constantCase member)) =
      match identifier? (constantCase member) with
      | some name => .ok name
      | none => .error (.render view (.identifier (constantCase member))) := by
  cases h : identifier (constantCase member) with
  | ok name =>
    rw [identifier?_eq_some_iff.2 h]
    rfl
  | error fault =>
    rw [identifier?_eq_none_iff.2 ⟨fault, h⟩]
    cases fault with
    | invalid n =>
      rw [identifier_invalid h]
      rfl
    | abort text => exact absurd h (identifier_ne_abort (Text.solid_constantCase member))

theorem constantsOf_cons (view : TypeName) (seen : List String) (member : String)
    (rest : List String) :
    constantsOf view seen (member :: rest) =
      if seen.contains (constantCase member) then
        .error (.render view (.repeatedConstant (constantCase member)))
      else
        match identifier? (constantCase member) with
        | none => .error (.render view (.identifier (constantCase member)))
        | some name =>
          (constantsOf view (constantCase member :: seen) rest).map (⟨name, member⟩ :: ·) := by
  rw [constantsOf]
  split
  · rfl
  · rw [written_constant]
    cases identifier? (constantCase member) <;> rfl

/-- The constants are those of the members, in order. -/
theorem constantsOf_ok (h : constantsOf view seen members = .ok cs) :
    Writable seen members ∧ cs.map (·.member) = members ∧ ∀ c ∈ cs, c.Named := by
  induction members generalizing seen cs with
  | nil =>
    obtain rfl := Except.ok.inj h
    exact ⟨.nil seen, rfl, List.forall_mem_nil _⟩
  | cons member rest ih =>
    rw [constantsOf_cons] at h
    split at h
    · cases h
    · rename_i new
      split at h
      · cases h
      · rename_i name word
        obtain ⟨others, made, rfl⟩ := map_ok_iff.1 h
        obtain ⟨writable, values, named⟩ := ih made
        refine ⟨writable_cons.2 ⟨by rw [word]; rfl, by simpa using new, writable⟩, ?_, ?_⟩
        · rw [List.map_cons, values]
        · exact List.forall_mem_cons.2 ⟨word, named⟩

/-- The first member whose constant cannot follow is the fault. -/
theorem constantsOf_error (h : constantsOf view seen members = .error f) :
    ∃ before member after fault, members = before ++ member :: after ∧ Writable seen before ∧
      Offends (before.map constantCase ++ seen) member fault ∧ f = .render view fault := by
  induction members generalizing seen with
  | nil => cases h
  | cons member rest ih =>
    rw [constantsOf_cons] at h
    split at h
    · rename_i old
      cases h
      exact ⟨[], member, rest, _, rfl, .nil seen, .repeated (by simpa using old), rfl⟩
    · rename_i new
      have new : constantCase member ∉ seen := by simpa using new
      split at h
      · rename_i none
        cases h
        exact ⟨[], member, rest, _, rfl, .nil seen, .unwritable new none, rfl⟩
      · rename_i name word
        obtain ⟨before, other, after, fault, rfl, writable, offends, rfl⟩ :=
          ih (map_error_iff.1 h)
        refine ⟨member :: before, other, after, fault, rfl, ?_, offends.congr fun c => ?_, rfl⟩
        · exact writable_cons.2 ⟨by rw [word]; rfl, new, writable⟩
        · simp [or_left_comm]

theorem constantsOf_ok_iff :
    (∃ cs, constantsOf view [] members = .ok cs) ↔ Writable [] members := by
  constructor
  · rintro ⟨cs, made⟩
    exact (constantsOf_ok made).1
  · intro writable
    cases made : constantsOf view [] members with
    | ok cs => exact ⟨cs, rfl⟩
    | error f =>
      obtain ⟨before, member, after, fault, rfl, -, offends, -⟩ := constantsOf_error made
      rw [List.append_nil] at offends
      exact absurd writable offends.not_writable

/-- Constants of different texts have different identifiers. -/
theorem names_nodup (named : ∀ c ∈ cs, c.Named)
    (once : ((cs.map (·.member)).map constantCase).Nodup) : (cs.map (·.name)).Nodup := by
  rw [List.map_map] at once
  refine List.pairwise_map.2 ((List.pairwise_map.1 once).imp_of_mem ?_)
  intro c c' hc hc' differ same
  exact differ (constantCase_inj (named c hc) ((named c' hc').trans (congrArg some same.symm)))

end GeneratedConstants

end Constants

namespace GeneratedConstants

variable {m : MetaType} {name : String}

theorem ofMetaType_eq (named : identifier? m.name.simple = some name) :
    ofMetaType m = (constantsOf m.name [] m.members).map fun constants =>
      { name, sourceName := m.target, access := m.access, constants } := by
  unfold ofMetaType
  rw [identifier?_eq_some_iff.1 named]
  rfl

/-- Let a meta type have a name that can be written. It is written exactly if the constants of its
members are identifiers and differ. Then there is one constant for each member, in order: their
identifiers differ, and each is declared with the member's name as its value. These are all that
stands in the block of the type, which is all that comes behind the type. Otherwise the failure
names the first constant that cannot follow those before it, and nothing comes of the request. -/
theorem one_constant_each (named : identifier? m.name.simple = some name) (derives : List Path) :
    let written := (Renderer.ofDerives derives).metaType m
    let texts := m.members.map constantCase
    ((∃ tokens, written = .ok tokens) ↔
      (∀ t ∈ texts, (identifier? t).isSome = true) ∧ texts.Nodup) ∧
    (∀ tokens, written = .ok tokens → ∃ g : GeneratedConstants, tokens = g.tokens ∧
      g.name = name ∧ g.constants.map (·.member) = m.members ∧
      (g.constants.map (·.name)).Nodup ∧ (∀ c ∈ g.constants, c.Named ∧ c.Declared) ∧
      Renders g.items tokens ∧ ∃ head, tokens = head ++ .ident "impl" :: .ident name ::
        Tokens.braces (g.constants.flatMap constantTokens)) ∧
    ∀ f, written = .error f →
      (∃ before member after fault, m.members = before ++ member :: after ∧
        Writable [] before ∧ Offends (before.map constantCase) member fault ∧
        f = .render m.name fault) ∧
      ∀ {σ : Type} (r : Round) (b : Bearer) (q : MetaRequest), r.resolveMeta b q = .ok m →
        ∀ (sink : Sink σ) (p : Progress σ),
          let after := r.step (.ofDerives derives) sink p (.metaType b q)
          after.sink = p.sink ∧ after.generated = p.generated := by
  intro written texts
  have made : written = ((ofMetaType m).map tokens) := rfl
  have writable : Writable [] m.members ↔
      (∀ t ∈ texts, (identifier? t).isSome = true) ∧ texts.Nodup := by
    constructor
    · exact fun h => ⟨List.forall_mem_map.2 h.words, h.once⟩
    · exact fun h => ⟨List.forall_mem_map.1 h.1, h.2, fun _ _ => List.not_mem_nil⟩
  refine ⟨?_, fun tokens ok => ?_, fun f bad => ⟨?_, fun r b q resolved sink p => ?_⟩⟩
  · rw [← writable, ← constantsOf_ok_iff, made, ofMetaType_eq named]
    cases constantsOf m.name [] m.members with
    | ok cs => exact iff_of_true ⟨_, rfl⟩ ⟨_, rfl⟩
    | error f => exact iff_of_false nofun nofun
  · rw [made, ofMetaType_eq named] at ok
    obtain ⟨g, success, rfl⟩ := map_ok_iff.1 ok
    obtain ⟨cs, found, rfl⟩ := map_ok_iff.1 success
    obtain ⟨fine, values, words⟩ := constantsOf_ok found
    refine ⟨_, rfl, rfl, values, ?_, fun c hc => ⟨words c hc, c.declared⟩, renders_items _,
      tokens_block _⟩
    exact names_nodup words (values ▸ fine.once)
  · rw [made, ofMetaType_eq named] at bad
    have found := map_error_iff.1 (map_error_iff.1 bad)
    obtain ⟨before, member, after, fault, split, fine, offends, rfl⟩ := constantsOf_error found
    rw [List.append_nil] at offends
    exact ⟨before, member, after, fault, split, fine, offends, rfl⟩
  · refine (r.step_ends _ sink p (.metaType b q)).untouched (f := f) ?_
    rw [Task.render, resolved]
    exact bad

def metaOf (members : List String) : MetaType where
  name := ⟨["crate"], "PersonMeta"⟩
  target := ⟨["crate"], "Person"⟩
  access := .everywhere
  members

/-- Two members in words of different cases have different constants, in the same case. -/
theorem person_constants :
    identifier? "PersonMeta" = some "PersonMeta" ∧
      ["firstName", "HTTPPort"].map constantCase = ["FIRST_NAME", "HTTP_PORT"] ∧
      ∃ g : GeneratedConstants,
        (Renderer.ofDerives []).metaType (metaOf ["firstName", "HTTPPort"]) = .ok g.tokens ∧
          g.constants.map (·.member) = ["firstName", "HTTPPort"] ∧
          (g.constants.map (·.name)).Nodup := by
  have named : identifier? "PersonMeta" = some "PersonMeta" := by decide +kernel
  have texts : ["firstName", "HTTPPort"].map constantCase = ["FIRST_NAME", "HTTP_PORT"] := by
    decide +kernel
  have words : ∀ t ∈ ["FIRST_NAME", "HTTP_PORT"], (identifier? t).isSome = true := by
    decide +kernel
  obtain ⟨written, each, -⟩ := one_constant_each (m := metaOf ["firstName", "HTTPPort"]) named []
  obtain ⟨tokens, made⟩ := written.2 (texts ▸ ⟨words, by decide⟩)
  obtain ⟨g, same, -, members, nodup, -⟩ := each tokens made
  exact ⟨named, texts, g, same ▸ made, members, nodup⟩

end GeneratedConstants

end RecordViews
