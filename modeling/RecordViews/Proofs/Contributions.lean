import Mathlib.Data.List.Nodup
import RecordViews.Proofs.Collected

/-! What the bearers of a unit are made of. Each contribution changes the bearer of its name and no
other, so every bearer is its name with the contributions to it, one after the other. -/

namespace RecordViews

open Grammar (Item)

namespace TypeName

variable {α : Type} {key : α → TypeName} {n m : TypeName} {l : List α} {a : α} {f : α → α}

theorem findIn?_congr (h : m.text = n.text) : findIn? key m l = findIn? key n l := by
  rw [findIn?, findIn?, h]

/-- A change is made to the element of its name alone. -/
theorem findIn?_modifyIn (named : ∀ b, key (f b) = key b) :
    findIn? key n (modifyIn key m f l) =
      if m.text = n.text then (findIn? key n l).map f else findIn? key n l := by
  induction l with
  | nil => simp [modifyIn, findIn?]
  | cons b rest ih =>
    rw [modifyIn, List.map_cons, ← modifyIn, findIn?_cons, findIn?_cons, ih]
    by_cases same : m.text = n.text
    · by_cases here : (key b).text = n.text <;> simp [same, here, named]
    · by_cases here : (key b).text = n.text
      · have : (key b).text ≠ m.text := fun e => same (e.symm.trans here)
        simp [same, here, Ne.symm same]
      · by_cases there : (key b).text = m.text <;> simp [same, here, there, named]

/-- Putting an element of a new name in its place keeps the names distinct. -/
theorem insertIn_distinct (h : (l.map fun b => (key b).text).Nodup)
    (new : findIn? key (key a) l = none) :
    ((insertIn key a l).map fun b => (key b).text).Nodup := by
  have apart : ∀ b ∈ l, (key b).text ≠ (key a).text := by
    simpa [findIn?] using new
  rw [((insertIn_perm key a l apart).map _).nodup_iff, List.map_cons, List.nodup_cons]
  exact ⟨by simpa using apart, h⟩

end TypeName

/-- A contribution changes what is found under the text of its name, and nothing else. -/
theorem findIn?_contribute (bearers : List Bearer) (m n : TypeName) (c : Contribution) :
    TypeName.findIn? Bearer.name n (contribute bearers m c) =
      if m.text = n.text then
        some (c.addTo ((TypeName.findIn? Bearer.name n bearers).getD { name := m }))
      else TypeName.findIn? Bearer.name n bearers := by
  unfold contribute
  split
  · rename_i b found
    rw [TypeName.findIn?_modifyIn c.addTo_name]
    refine if_ctx_congr Iff.rfl (fun same => ?_) fun _ => rfl
    rw [← TypeName.findIn?_congr same, found]
    rfl
  · rename_i none
    rw [TypeName.findIn?_insertIn_eq, c.addTo_name]
    refine if_ctx_congr Iff.rfl (fun same => ?_) fun _ => rfl
    rw [← TypeName.findIn?_congr same, none]
    rfl

theorem contribute_distinct {bearers : List Bearer} (h : (bearers.map (·.name.text)).Nodup)
    (n : TypeName) (c : Contribution) : ((contribute bearers n c).map (·.name.text)).Nodup := by
  unfold contribute
  split
  · have same : (TypeName.modifyIn Bearer.name n c.addTo bearers).map (·.name.text) =
        bearers.map (·.name.text) := by
      rw [TypeName.modifyIn, List.map_map]
      refine List.map_congr_left fun b _ => ?_
      rw [Function.comp_apply]
      split
      · rw [c.addTo_name]
      · rfl
    rw [same]
    exact h
  · rename_i new
    refine TypeName.insertIn_distinct h ?_
    rw [c.addTo_name]
    exact new

def Bearer.ofContributions (n : TypeName) (cs : List Contribution) : Bearer :=
  cs.foldl (fun b c => c.addTo b) { name := n }

theorem Bearer.ofContributions_concat (n : TypeName) (cs : List Contribution) (c : Contribution) :
    ofContributions n (cs ++ [c]) = c.addTo (ofContributions n cs) := by
  simp [ofContributions]

theorem Contribution.carriedBy_foldl {c : Contribution} {b : Bearer} (h : c.CarriedBy b)
    (cs : List Contribution) : c.CarriedBy (cs.foldl (fun b c => c.addTo b) b) := by
  induction cs generalizing b with
  | nil => exact h
  | cons d rest ih => exact ih (h.addTo d)

theorem Contribution.carriedBy_ofContributions {c : Contribution} {cs : List Contribution}
    (h : c ∈ cs) (n : TypeName) : c.CarriedBy (Bearer.ofContributions n cs) := by
  obtain ⟨before, after, rfl⟩ := List.append_of_mem h
  rw [Bearer.ofContributions, List.foldl_append, List.foldl_cons]
  exact carriedBy_foldl (c.carriedBy_addTo _) after

/-- The bearer of the text of this name is made of these contributions, and is missing if there are
none. -/
def HoldsFor (bearers : List Bearer) (n : TypeName) : List Contribution → Prop
  | [] => TypeName.findIn? Bearer.name n bearers = none
  | c :: cs => ∃ b, TypeName.findIn? Bearer.name n bearers = some b ∧
      b = Bearer.ofContributions b.name (c :: cs)

namespace HoldsFor

variable {bearers : List Bearer} {n m : TypeName} {c : Contribution} {cs : List Contribution}

theorem concat (h : HoldsFor bearers n cs) (c : Contribution) (same : m.text = n.text) :
    HoldsFor (contribute bearers m c) n (cs ++ [c]) := by
  have put := (findIn?_contribute bearers m n c).trans (if_pos same)
  cases cs with
  | nil =>
    rw [HoldsFor] at h
    rw [h] at put
    exact ⟨c.addTo { name := m }, put, by rw [c.addTo_name]; rfl⟩
  | cons d rest =>
    obtain ⟨b, found, made⟩ := h
    rw [found] at put
    refine ⟨c.addTo b, put, ?_⟩
    have more := Bearer.ofContributions_concat b.name (d :: rest) c
    rw [c.addTo_name]
    exact (more.trans (congrArg c.addTo made.symm)).symm

/-- What goes to another bearer changes nothing. -/
theorem other (h : HoldsFor bearers n cs) (c : Contribution) (other : m.text ≠ n.text) :
    HoldsFor (contribute bearers m c) n cs := by
  have kept := (findIn?_contribute bearers m n c).trans (if_neg other)
  cases cs with
  | nil => exact kept.trans h
  | cons d rest =>
    obtain ⟨b, found, made⟩ := h
    exact ⟨b, kept.trans found, made⟩

end HoldsFor

namespace Finding

def contributions (n : TypeName) (findings : List Finding) : List Contribution :=
  findings.filterMap fun
    | .contribution m _ c => if m.text = n.text then some c else none
    | _ => none

theorem mem_contributions {findings : List Finding} {n : TypeName} {place : Nat} {c : Contribution}
    (h : .contribution n place c ∈ findings) : c ∈ contributions n findings :=
  List.mem_filterMap.2 ⟨_, h, if_pos rfl⟩

theorem of_mem_contributions {findings : List Finding} {n : TypeName} {c : Contribution}
    (h : c ∈ contributions n findings) :
    ∃ m place, .contribution m place c ∈ findings ∧ m.text = n.text := by
  obtain ⟨finding, inside, given⟩ := List.mem_filterMap.1 h
  cases finding with
  | contribution m place c' =>
    obtain ⟨text, rfl⟩ : m.text = n.text ∧ c' = c := by simpa using given
    exact ⟨m, place, inside, text⟩
  | _ => cases given

theorem foldl_bearers (n : TypeName) (findings : List Finding) {bearers : List Bearer}
    {cs : List Contribution} (h : HoldsFor bearers n cs)
    (distinct : (bearers.map (·.name.text)).Nodup) :
    let after := findings.foldl (fun bearers finding => match finding with
      | .contribution name _ c => contribute bearers name c
      | _ => bearers) bearers
    HoldsFor after n (cs ++ contributions n findings) ∧ (after.map (·.name.text)).Nodup := by
  induction findings generalizing bearers cs with
  | nil => simpa [contributions] using ⟨h, distinct⟩
  | cons finding rest ih =>
    cases finding with
    | contribution m place c =>
      by_cases same : m.text = n.text
      · have := ih (h.concat c same) (contribute_distinct distinct m c)
        simpa [contributions, same] using this
      · have := ih (h.other c same) (contribute_distinct distinct m c)
        simpa [contributions, same] using this
    | type t => exact ih h distinct
    | accessor owner m => exact ih h distinct
    | setter s => exact ih h distinct
    | fault f => exact ih h distinct

/-- Every bearer is made of what is contributed under its name. -/
theorem bearers_holdFor (n : TypeName) (findings : List Finding) :
    HoldsFor (bearers findings) n (contributions n findings) := by
  have none : HoldsFor [] n [] := rfl
  exact (foldl_bearers n findings none List.nodup_nil).1

theorem bearers_distinct (findings : List Finding) :
    ((bearers findings).map (·.name.text)).Nodup := by
  have none : HoldsFor [] default [] := rfl
  exact (foldl_bearers default findings none List.nodup_nil).2

end Finding

end RecordViews
