import Mathlib.Data.List.Nodup
import Mathlib.Data.List.Perm.Basic
import RecordViews.Proofs.Accessors

/-! What accessors and setters make of the records that are found, if no two records share a name.
Each record is then completed by itself: its accessors come behind its fields, unless a field has
the name, and a setter goes to the first member that it fits. If no two accessors and no two setters
of a record are for one member, it does not matter in which order they are found, except that the
accessors stand in this order. -/

namespace RecordViews

section ModifyFirst

variable {α : Type} {p q : α → Bool} {f g : α → α} {l : List α}

theorem modifyFirst_of_none (none : ∀ a ∈ l, p a = false) : modifyFirst p f l = l := by
  induction l with
  | nil => rfl
  | cons a rest ih =>
    obtain ⟨first, later⟩ := List.forall_mem_cons.1 none
    rw [modifyFirst, if_neg (by simp [first]), ih later]

/-- Where at most one element is hit, there is no need to look for the first. -/
theorem modifyFirst_eq_map (once : l.Pairwise fun a b => p a = true → p b = false) :
    modifyFirst p f l = l.map fun a => if p a then f a else a := by
  induction l with
  | nil => rfl
  | cons a rest ih =>
    obtain ⟨first, later⟩ := List.pairwise_cons.1 once
    rw [modifyFirst, List.map_cons]
    split
    · rename_i hit
      rw [List.map_congr_left fun b hb => if_neg (by simp [first b hb hit]), List.map_id']
    · rw [ih later]

theorem modifyFirst_append (l l' : List α) :
    modifyFirst p f (l ++ l') =
      if l.any p then modifyFirst p f l ++ l' else l ++ modifyFirst p f l' := by
  induction l with
  | nil => rfl
  | cons a rest ih =>
    rw [List.cons_append, modifyFirst, modifyFirst, ih, List.any_cons]
    cases hit : p a
    · cases rest.any p <;> simp
    · simp

/-- Changes to different elements can be made in either order. -/
theorem modifyFirst_comm (kept : ∀ a, q (f a) = q a) (kept' : ∀ a, p (g a) = p a)
    (apart : ∀ a, p a = true → q a = false) (l : List α) :
    modifyFirst q g (modifyFirst p f l) = modifyFirst p f (modifyFirst q g l) := by
  induction l with
  | nil => rfl
  | cons a rest ih =>
    cases hit : p a
    · cases hit' : q a
      · simp [modifyFirst, hit, hit', ih]
      · simp [modifyFirst, hit, hit', kept']
    · simp [modifyFirst, hit, apart a hit, kept]

end ModifyFirst

namespace Setter

/-- The members, where the first that the setter fits has it. -/
def giveTo (s : Setter) (ms : List Member) : List Member :=
  modifyFirst s.fits (·.withSetter s.function) ms

/-- The member, which has the setter if it fits. -/
def giveOne (s : Setter) (m : Member) : Member :=
  if s.fits m then m.withSetter s.function else m

theorem fits_withSetter (s : Setter) (m : Member) (function : String) :
    s.fits (m.withSetter function) = s.fits m :=
  rfl

theorem fits_apart {s t : Setter} (apart : s.member ≠ t.member) (m : Member)
    (hit : s.fits m = true) : t.fits m = false := by
  have named : m.name = s.member := by
    simp only [fits, Bool.and_eq_true, beq_iff_eq] at hit
    exact hit.1
  simp [fits, named, apart]

theorem giveTo_comm {s t : Setter} (apart : s.member ≠ t.member) (ms : List Member) :
    t.giveTo (s.giveTo ms) = s.giveTo (t.giveTo ms) :=
  modifyFirst_comm (fun m => t.fits_withSetter m _) (fun m => s.fits_withSetter m _)
    (fits_apart apart) ms

theorem giveOne_comm {s t : Setter} (apart : s.member ≠ t.member) (m : Member) :
    t.giveOne (s.giveOne m) = s.giveOne (t.giveOne m) := by
  unfold giveOne
  cases hit : s.fits m
  · cases hit' : t.fits m <;> simp [hit, hit', fits_withSetter]
  · simp [hit, fits_apart apart m hit, fits_withSetter]

theorem giveTo_names (s : Setter) (ms : List Member) :
    (s.giveTo ms).map (·.name) = ms.map (·.name) :=
  modifyFirst_map (f := (·.withSetter s.function)) (·.name) (fun _ => rfl) ms

theorem giveTo_kinds (s : Setter) (ms : List Member) :
    (s.giveTo ms).map (·.kind) = ms.map (·.kind) :=
  modifyFirst_map (f := (·.withSetter s.function)) (·.kind) (fun _ => rfl) ms

/-- Members behind others, each of a name of its own: a setter that fits one of them is given to
it. -/
theorem giveTo_append (s : Setter) {front back : List Member}
    (named : (back.map (·.name)).Nodup)
    (new : ∀ m ∈ back, m.name ∉ front.map (·.name)) :
    s.giveTo (front ++ back) = s.giveTo front ++ back.map s.giveOne := by
  have name_of (m : Member) (hit : s.fits m = true) : m.name = s.member := by
    simp only [fits, Bool.and_eq_true, beq_iff_eq] at hit
    exact hit.1
  have once : back.Pairwise fun a b => s.fits a = true → s.fits b = false := by
    refine (List.pairwise_map.1 named).imp fun {a b} ne hit => ?_
    rw [Bool.eq_false_iff]
    exact fun hit' => ne ((name_of a hit).trans (name_of b hit').symm)
  rw [giveTo, modifyFirst_append]
  cases inside : front.any s.fits
  · have none : ∀ m ∈ front, s.fits m = false := by
      simpa using inside
    rw [if_neg Bool.false_ne_true, giveTo, modifyFirst_of_none none, modifyFirst_eq_map once]
    rfl
  · obtain ⟨m, hm, hit⟩ := List.any_eq_true.1 inside
    have behind : back.map s.giveOne = back := by
      refine (List.map_congr_left fun b hb => if_neg fun hit' => new b hb ?_).trans (List.map_id' _)
      rw [name_of b hit', ← name_of m hit]
      exact List.mem_map_of_mem hm
    rw [if_pos rfl, behind]
    rfl

end Setter

section Setters

variable {ss ss' : List Setter} {front back : List Member}

def giveAll (ss : List Setter) (ms : List Member) : List Member :=
  ss.foldl (fun ms s => s.giveTo ms) ms

theorem giveAll_append (named : (back.map (·.name)).Nodup)
    (new : ∀ m ∈ back, m.name ∉ front.map (·.name)) :
    giveAll ss (front ++ back) =
      giveAll ss front ++ back.map fun m => ss.foldl (fun m s => s.giveOne m) m := by
  induction ss generalizing front back with
  | nil => simp [giveAll]
  | cons s rest ih =>
    have same : (back.map s.giveOne).map (·.name) = back.map (·.name) := by
      rw [List.map_map]
      refine List.map_congr_left fun m _ => ?_
      rw [Function.comp_apply, Setter.giveOne]
      split <;> rfl
    rw [giveAll, List.foldl_cons, ← giveAll, s.giveTo_append named new, ih (same ▸ named),
      List.map_map]
    · rfl
    · intro m hm
      have : m.name ∈ back.map (·.name) := same ▸ List.mem_map_of_mem hm
      obtain ⟨m', hm', name⟩ := List.mem_map.1 this
      rw [s.giveTo_names, ← name]
      exact new m' hm'

/-- Steps that commute for setters of different members can be made in any order. -/
theorem foldl_setters_perm {β : Type} {act : β → Setter → β}
    (comm : ∀ s t : Setter, s.member ≠ t.member → ∀ b, act (act b s) t = act (act b t) s)
    (perm : ss.Perm ss') (apart : (ss.map (·.member)).Nodup) (b : β) :
    ss.foldl act b = ss'.foldl act b := by
  refine perm.foldl_eq' (fun s hs t ht b => ?_) b
  by_cases same : s = t
  · rw [same]
  · exact comm s t (fun e => same (List.inj_on_of_nodup_map apart hs ht e)) b

theorem giveAll_kinds (ss : List Setter) (ms : List Member) :
    (giveAll ss ms).map (·.kind) = ms.map (·.kind) := by
  induction ss generalizing ms with
  | nil => rfl
  | cons s rest ih => exact (ih _).trans (s.giveTo_kinds ms)

theorem giveOnes_kind (ss : List Setter) (m : Member) :
    (ss.foldl (fun m s => s.giveOne m) m).kind = m.kind := by
  induction ss generalizing m with
  | nil => rfl
  | cons s rest ih =>
    rw [List.foldl_cons, ih, Setter.giveOne]
    split <;> rfl

end Setters

namespace SourceType

/-- The record with the setter, if it is for one of the members. -/
def withSetter (s : Setter) (t : SourceType) : SourceType :=
  { t with members := s.giveTo t.members }

theorem foldl_withAccessor {ms : List Member} (named : (ms.map (·.name)).Nodup) (t : SourceType) :
    ms.foldl (fun t m => t.withAccessor m) t =
      { t with members := t.members ++ ms.filter fun m => (t.member? m.name).isNone } := by
  induction ms generalizing t with
  | nil => simp
  | cons m rest ih =>
    obtain ⟨new, named⟩ := List.nodup_cons.1 named
    have later (m' : Member) (inside : m' ∈ rest) :
        ((t.withAccessor m).member? m'.name).isNone = (t.member? m'.name).isNone := by
      have other : (m.name == m'.name) = false := by
        rw [beq_eq_false_iff_ne]
        exact fun same => new (List.mem_map.2 ⟨m', inside, same.symm⟩)
      rw [← Option.not_isSome, ← Option.not_isSome, withAccessor_has, other, Bool.false_or]
    rw [List.foldl_cons, ih named, List.filter_congr later, withAccessor]
    cases has : t.member? m.name with
    | none => simp [addMember, has]
    | some _ => simp [has]

theorem foldl_withSetter (ss : List Setter) (t : SourceType) :
    ss.foldl (fun t s => t.withSetter s) t = { t with members := giveAll ss t.members } := by
  induction ss generalizing t with
  | nil => rfl
  | cons s rest ih => exact ih _

/-- The record with these accessors and setters, the accessors first. -/
def completed (ms : List Member) (ss : List Setter) (t : SourceType) : SourceType :=
  ss.foldl (fun t s => t.withSetter s) (ms.foldl (fun t m => t.withAccessor m) t)

theorem completed_eq {ms : List Member} (named : (ms.map (·.name)).Nodup) (ss : List Setter)
    (t : SourceType) :
    t.completed ms ss = { t with
      members := giveAll ss t.members ++ (ms.filter fun m => (t.member? m.name).isNone).map
        fun m => ss.foldl (fun m s => s.giveOne m) m } := by
  have front : ∀ m ∈ ms.filter fun m => (t.member? m.name).isNone,
      m.name ∉ t.members.map (·.name) := by
    intro m hm has
    have none := (List.mem_filter.1 hm).2
    rw [← Option.not_isSome, member?_isSome] at none
    simp_all
  rw [completed, foldl_withAccessor named, foldl_withSetter,
    giveAll_append (named.sublist (List.filter_sublist.map _)) front]

/-- The same record, where the members that accessors read stand behind the fields in another
order. -/
structure Reordered (t t' : SourceType) : Prop where
  name : t'.name = t.name
  generic : t'.generic = t.generic
  comment : t'.comment = t.comment
  members : ∃ fields accessors accessors', t.members = fields ++ accessors ∧
    t'.members = fields ++ accessors' ∧ accessors.Perm accessors' ∧
    (∀ m ∈ fields, m.kind = .field) ∧ ∀ m ∈ accessors, m.kind = .accessor

/-- It does not matter in which order accessors and setters of different members are found. -/
theorem completed_reordered {ms ms' : List Member} {ss ss' : List Setter} {t : SourceType}
    (fields : ∀ m ∈ t.members, m.kind = .field) (accessors : ∀ m ∈ ms, m.kind = .accessor)
    (named : (ms.map (·.name)).Nodup) (apart : (ss.map (·.member)).Nodup) (perm : ms.Perm ms')
    (perm' : ss.Perm ss') : (t.completed ms ss).Reordered (t.completed ms' ss') := by
  rw [completed_eq named, completed_eq ((perm.map _).nodup_iff.1 named)]
  refine ⟨rfl, rfl, rfl, _, _, _, rfl, ?_, ((perm.filter _).map _), ?_, ?_⟩
  · have same (m : Member) : ss.foldl (fun m s => s.giveOne m) m =
        ss'.foldl (fun m s => s.giveOne m) m :=
      foldl_setters_perm (fun s t ne m => Setter.giveOne_comm ne m) perm' apart m
    rw [giveAll, giveAll,
      foldl_setters_perm (fun s t ne ms => Setter.giveTo_comm ne ms) perm' apart]
    simp only [same]
  · intro m hm
    have kind : m.kind ∈ (giveAll ss t.members).map (·.kind) := List.mem_map_of_mem hm
    rw [giveAll_kinds] at kind
    obtain ⟨m', hm', same⟩ := List.mem_map.1 kind
    exact same ▸ fields m' hm'
  · intro m hm
    obtain ⟨m', hm', rfl⟩ := List.mem_map.1 hm
    rw [giveOnes_kind]
    exact accessors m' (List.mem_filter.1 hm').1

end SourceType

namespace Finding

variable {findings : List Finding}

def accessorsOf (n : TypeName) (findings : List Finding) : List Member :=
  findings.filterMap fun
    | .accessor owner m => if owner = n then some m else none
    | _ => none

def settersOf (n : TypeName) (findings : List Finding) : List Setter :=
  findings.filterMap fun
    | .setter s => if s.owner = n then some s else none
    | _ => none

theorem mem_accessorsOf {n : TypeName} {m : Member} :
    m ∈ accessorsOf n findings ↔ .accessor n m ∈ findings := by
  rw [accessorsOf, List.mem_filterMap]
  constructor
  · rintro ⟨finding, inside, given⟩
    cases finding with
    | accessor owner m' =>
      obtain ⟨rfl, rfl⟩ : owner = n ∧ m' = m := by simpa using given
      exact inside
    | _ => cases given
  · exact fun inside => ⟨_, inside, if_pos rfl⟩

theorem mem_settersOf {n : TypeName} {s : Setter} :
    s ∈ settersOf n findings ↔ .setter s ∈ findings ∧ s.owner = n := by
  rw [settersOf, List.mem_filterMap]
  constructor
  · rintro ⟨finding, inside, given⟩
    cases finding with
    | setter s' =>
      obtain ⟨own, rfl⟩ : s'.owner = n ∧ s' = s := by simpa using given
      exact ⟨inside, own⟩
    | _ => cases given
  · exact fun ⟨inside, own⟩ => ⟨_, inside, if_pos own⟩

/-- Of records with different names at most one is hit by a test that asks for a name. -/
theorem modifyFirst_named {types : List SourceType} (distinct : (types.map (·.name)).Nodup)
    {owner : TypeName} {p : SourceType → Bool} (named : ∀ t, p t = true → t.name = owner)
    (f : SourceType → SourceType) :
    modifyFirst p f types = types.map fun t => if p t then f t else t := by
  refine modifyFirst_eq_map ((List.pairwise_map.1 distinct).imp fun {t u} ne hit => ?_)
  rw [Bool.eq_false_iff]
  exact fun hit' => ne ((named t hit).trans (named u hit').symm)

theorem attachAccessor_eq_map {types : List SourceType} (distinct : (types.map (·.name)).Nodup)
    (owner : TypeName) (m : Member) :
    attachAccessor types owner m =
      types.map fun t => if owner = t.name then t.withAccessor m else t := by
  refine (modifyFirst_named distinct (fun t hit => eq_of_beq hit) _).trans
    (List.map_congr_left fun t _ => ?_)
  by_cases own : owner = t.name
  · rw [if_pos own, if_pos (beq_iff_eq.2 own.symm)]
    rfl
  · rw [if_neg own, if_neg fun hit => own (eq_of_beq hit).symm]

theorem attachSetter_eq_map {types : List SourceType} (distinct : (types.map (·.name)).Nodup)
    (s : Setter) :
    attachSetter types s = types.map fun t => if s.owner = t.name then t.withSetter s else t := by
  have named (t : SourceType) (hit : (t.name == s.owner && t.members.any s.fits) = true) :
      t.name = s.owner :=
    eq_of_beq (Bool.and_eq_true_iff.1 hit).1
  refine (modifyFirst_named distinct named _).trans (List.map_congr_left fun t _ => ?_)
  by_cases own : s.owner = t.name
  · rw [if_pos own]
    cases fits : t.members.any s.fits
    · have none : ∀ m ∈ t.members, s.fits m = false := by simpa using fits
      rw [if_neg (by simp), SourceType.withSetter, Setter.giveTo, modifyFirst_of_none none]
    · rw [if_pos (by simp [own])]
      rfl
  · rw [if_neg own, if_neg]
    rw [Bool.and_eq_true_iff]
    exact fun hit => own (eq_of_beq hit.1).symm

/-- Steps that change each record by itself, and no name, change each record by themselves all
together. -/
theorem foldl_each {step : List SourceType → Finding → List SourceType}
    {each : SourceType → Finding → SourceType} (kept : ∀ t finding, (each t finding).name = t.name)
    (h : ∀ types finding, (types.map (·.name)).Nodup →
      step types finding = types.map fun t => each t finding)
    (findings : List Finding) {types : List SourceType} (distinct : (types.map (·.name)).Nodup) :
    findings.foldl step types = types.map fun t => findings.foldl each t := by
  induction findings generalizing types with
  | nil => exact (List.map_id' types).symm
  | cons finding rest ih =>
    have names : (types.map fun t => each t finding).map (·.name) = types.map (·.name) := by
      rw [List.map_map]
      exact List.map_congr_left fun t _ => kept t finding
    rw [List.foldl_cons, h types finding distinct, ih (names ▸ distinct), List.map_map]
    rfl

def ownAccessor (t : SourceType) : Finding → SourceType
  | .accessor owner m => if owner = t.name then t.withAccessor m else t
  | _ => t

def ownSetter (t : SourceType) : Finding → SourceType
  | .setter s => if s.owner = t.name then t.withSetter s else t
  | _ => t

theorem ownAccessor_name (t : SourceType) (finding : Finding) :
    (ownAccessor t finding).name = t.name := by
  cases finding with
  | accessor owner m =>
    rw [ownAccessor]
    split
    · exact t.withAccessor_name m
    · rfl
  | _ => rfl

theorem ownSetter_name (t : SourceType) (finding : Finding) :
    (ownSetter t finding).name = t.name := by
  cases finding with
  | setter s =>
    rw [ownSetter]
    split <;> rfl
  | _ => rfl

theorem foldl_ownAccessor (findings : List Finding) (t : SourceType) :
    findings.foldl ownAccessor t =
      (accessorsOf t.name findings).foldl (fun t m => t.withAccessor m) t := by
  induction findings generalizing t with
  | nil => rfl
  | cons finding rest ih =>
    rw [List.foldl_cons, ih]
    cases finding with
    | accessor owner m =>
      by_cases own : owner = t.name
      · simp [ownAccessor, accessorsOf, own, t.withAccessor_name m]
      · simp [ownAccessor, accessorsOf, own]
    | _ => rfl

theorem foldl_ownSetter (findings : List Finding) (t : SourceType) :
    findings.foldl ownSetter t =
      (settersOf t.name findings).foldl (fun t s => t.withSetter s) t := by
  induction findings generalizing t with
  | nil => rfl
  | cons finding rest ih =>
    rw [List.foldl_cons, ih]
    cases finding with
    | setter s =>
      by_cases own : s.owner = t.name
      · have name : (t.withSetter s).name = t.name := rfl
        simp [ownSetter, settersOf, own, name]
      · simp [ownSetter, settersOf, own]
    | _ => rfl

theorem foldl_ownAccessor_name (findings : List Finding) (t : SourceType) :
    (findings.foldl ownAccessor t).name = t.name := by
  induction findings generalizing t with
  | nil => rfl
  | cons finding rest ih => exact (ih _).trans (ownAccessor_name t finding)

/-- If no two records share a name, each is completed by its own accessors and setters. -/
theorem types_eq_map (distinct : ((declared findings).map (·.name)).Nodup) :
    types findings = (declared findings).map fun t =>
      t.completed (accessorsOf t.name findings) (settersOf t.name findings) := by
  have accessed : findings.foldl addAccessor (declared findings) =
      (declared findings).map fun t => findings.foldl ownAccessor t := by
    refine foldl_each ownAccessor_name (fun types finding distinct => ?_) findings distinct
    cases finding with
    | accessor owner m => exact attachAccessor_eq_map distinct owner m
    | _ => exact (List.map_id' types).symm
  have names : ((declared findings).map fun t => findings.foldl ownAccessor t).map (·.name) =
      (declared findings).map (·.name) := by
    rw [List.map_map]
    exact List.map_congr_left fun t _ => foldl_ownAccessor_name findings t
  rw [types_eq, accessed, foldl_each ownSetter_name (fun types finding distinct => ?_) findings
    (names ▸ distinct), List.map_map]
  · refine List.map_congr_left fun t _ => ?_
    rw [Function.comp_apply, foldl_ownSetter, foldl_ownAccessor_name, foldl_ownAccessor]
    rfl
  · cases finding with
    | setter s => exact attachSetter_eq_map distinct s
    | _ => exact (List.map_id' types).symm

end Finding

end RecordViews
