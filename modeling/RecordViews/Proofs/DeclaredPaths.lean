import RecordViews.Proofs.Collected
import RecordViews.Proofs.Paths
import RecordViews.Proofs.ReadNames

/-! Records under the names that they are declared by. A record is registered under its name and
those of its modules without the marks of raw identifiers, and a path is read with them. So the path
of a declaration stands for the record that it declares exactly if none of its words has a mark. -/

namespace RecordViews

open Grammar (Path Item RecordItem Declares itemsOfText)

variable {scope : Scope} {items : List Item} {path : List String} {r : RecordItem}

theorem Grammar.Declares.module (h : Declares items path r) :
    ∃ inner, (scope ++ path.map unraw, inner) ∈ (scope, items) :: Item.listModules scope items ∧
      .record r ∈ inner := by
  induction h generalizing scope with
  | here h => exact ⟨_, by simp, h⟩
  | @inside items _ head path _ h _ ih =>
    -- the modules inside are listed under the name of this one, without its mark
    obtain ⟨inner, found, member⟩ := @ih (scope ++ [unraw head.name])
    refine ⟨inner, List.mem_cons_of_mem _ (Finding.listModules_of_mem h ?_), member⟩
    unfold Item.modules
    simpa using found

theorem Grammar.Declares.found (h : Declares items path r) :
    .type (SourceType.ofItem (scope ++ path.map unraw) r) ∈
      Finding.ofModules ((scope, items) :: Item.listModules scope items) := by
  obtain ⟨inner, found, member⟩ := h.module
  exact List.mem_append_left _ (List.mem_flatMap.2 ⟨_, found, List.mem_flatMap.2
    ⟨_, member, List.mem_cons_self⟩⟩)

theorem TypeName.resolve?_declared {name : String} (own : ∀ w ∈ path ++ [name], w ∉ pathRoots) :
    resolve? scope (.ofNames (path ++ [name])) = some ⟨scope ++ path, name⟩ := by
  rw [resolve?_eq_some_iff, Path.words_ofNames, follow?_local (by simp) own]
  simp [asScope]

/-- Every record that a file declares is in the model under its name without marks, and the path of
its declaration stands for that name exactly if no word of the path has a mark. -/
theorem SourceUnit.declared_resolves_iff {text : String} {u : SourceUnit}
    (read : ofText scope false text = .ok u) :
    ∃ items, itemsOfText text = .ok items ∧ ∀ path r, Declares items path r →
      (u.model.find? (SourceType.nameOf (scope ++ path.map unraw) r)).isSome = true ∧
      (TypeName.resolve? scope (.ofNames (path ++ [r.name])) =
          some (SourceType.nameOf (scope ++ path.map unraw) r) ↔
        ∀ w ∈ path ++ [r.name], unraw w = w) := by
  obtain ⟨items, parsed, collected⟩ := bind_ok_iff.1 read
  replace parsed := mapError_ok_iff.1 parsed
  replace collected : ofFile _ scope items = .ok u := mapError_ok_iff.1 collected
  refine ⟨items, parsed, fun path r declared => ?_⟩
  have known := find?_of_found collected declared.found
  refine ⟨known, ?_⟩
  -- both names lie under the words of the file, so their words behind these are compared
  have unmarked : path.map unraw = path ↔ ∀ w ∈ path, unraw w = w := by
    simpa using List.map_inj_left (f := unraw) (g := id) (l := path)
  rw [TypeName.resolve?_declared (declared.own parsed), SourceType.nameOf, Option.some.injEq,
    TypeName.mk.injEq, List.append_cancel_left_eq, eq_comm, unmarked]
  simp only [List.forall_mem_append, List.mem_singleton, forall_eq, eq_comm]

def nestedText (module : String) : String :=
  "mod " ++ module ++ " { struct Row; }"

def isNested (module : String) : List Item → Bool
  | [.module head [.record r]] => head.name == module && r.name == "Row"
  | _ => false

theorem declares_of_isNested {module : String} (h : isNested module items = true) :
    ∃ r, Declares items [module] r ∧ r.name = "Row" := by
  unfold isNested at h
  split at h
  · rename_i head r
    obtain ⟨rfl, name⟩ : head.name = module ∧ r.name = "Row" := by simpa using h
    exact ⟨r, .inside List.mem_cons_self (.here List.mem_cons_self), name⟩
  · cases h

theorem nestedText_read : ∀ module ∈ ["data", "r#type"],
    (SourceUnit.ofText ["crate"] false (nestedText module)).toOption.map
        (·.model.types.map (·.name)) = some [⟨["crate", unraw module], "Row"⟩] ∧
      (itemsOfText (nestedText module)).toOption.any (isNested module) = true := by
  decide +kernel

theorem nestedText_declares {module : String} (h : module ∈ ["data", "r#type"]) :
    ∃ u items r, SourceUnit.ofText ["crate"] false (nestedText module) = .ok u ∧
      u.model.types.map (·.name) = [⟨["crate", unraw module], "Row"⟩] ∧
      itemsOfText (nestedText module) = .ok items ∧ Declares items [module] r ∧ r.name = "Row" := by
  obtain ⟨unit, nested⟩ := nestedText_read module h
  obtain ⟨u, read, names⟩ := Option.map_eq_some_iff.1 unit
  obtain ⟨items, parsed, shape⟩ := (Option.any_eq_true _ _).1 nested
  obtain ⟨r, declared, name⟩ := declares_of_isNested shape
  exact ⟨u, items, r, toOption_eq_some_iff.1 read, names, toOption_eq_some_iff.1 parsed, declared,
    name⟩

/-- A record by the words that it is declared by. -/
theorem nested_record_resolves :
    ∃ u, SourceUnit.ofText ["crate"] false (nestedText "data") = .ok u ∧
      (u.model.find? ⟨["crate", "data"], "Row"⟩).isSome = true ∧
      TypeName.resolve? ["crate"] (.ofNames ["data", "Row"]) = some ⟨["crate", "data"], "Row"⟩ := by
  obtain ⟨u, items, r, read, -, parsed, declared, name⟩ :=
    nestedText_declares (List.mem_cons_self : "data" ∈ _)
  obtain ⟨items', parsed', all⟩ := SourceUnit.declared_resolves_iff read
  obtain rfl := Except.ok.inj (parsed.symm.trans parsed')
  obtain ⟨known, named⟩ := all ["data"] r declared
  have unmarked : unraw "data" = "data" ∧ unraw "Row" = "Row" := by decide
  simp only [SourceType.nameOf, name, List.map_cons, List.map_nil, unmarked] at known named
  exact ⟨u, read, known, named.2 (by simp [unmarked])⟩

/-- A record in a module that goes by a keyword: its path stands for a name that the model does not
have. -/
theorem marked_module_unresolved :
    ∃ u items r, SourceUnit.ofText ["crate"] false (nestedText "r#type") = .ok u ∧
      u.model.types.map (·.name) = [⟨["crate", "type"], "Row"⟩] ∧
      itemsOfText (nestedText "r#type") = .ok items ∧ Declares items ["r#type"] r ∧
      r.name = "Row" ∧
      TypeName.resolve? ["crate"] (.ofNames ["r#type", "Row"]) =
        some ⟨["crate", "r#type"], "Row"⟩ := by
  obtain ⟨u, items, r, read, names, parsed, declared, name⟩ :=
    nestedText_declares (by decide : "r#type" ∈ _)
  exact ⟨u, items, r, read, names, parsed, declared, name, by decide⟩

end RecordViews
