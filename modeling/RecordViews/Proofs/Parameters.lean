import RecordViews.Proofs.Backing
import RecordViews.Proofs.Collected
import RecordViews.Proofs.Paths

/-! The parameter of a function that a property is got from. It is collected in the module where the
block of functions is written, and checked as if it stood in the module of the record that the block
is for, where `Self` is no word of its own. So the check finds the record that the parameter names
exactly if the path keeps its meaning between these two places. -/

namespace RecordViews

open Grammar (Ty Path Item FunctionItem)

namespace Extractor

variable {s : Signature} {target : TypeName} {expected : Option Ty} {lifetime : Option String}
  {p : Path}

/-- Where nothing else is wrong, a single shared reference passes the check if its path, read where
the function's container is, stands for the record that is viewed. -/
theorem checkFunction_reference (static : s.receiver = false) (owned : s.result.isStorable = true)
    (shown : ∀ ty ∈ expected, ty = s.result)
    (one : s.params = [.reference lifetime false (.path p)]) :
    checkFunction s target expected = .ok () ↔
      TypeName.resolve? s.container.module p = some target := by
  have fits : expected.filter (· != s.result) = none := by
    rw [Option.filter_eq_none_iff]
    intro ty some
    simp [shown ty some]
  unfold checkFunction
  simp only [static, owned, fits, one, Ty.isSharedRefTo]
  simp

end Extractor

namespace Finding

/-- The function is written in a block of `owner` in one of the modules, and plays the part that
its first helper attribute gives it. -/
structure Plays (modules : List (Scope × List Item)) (module : Scope) (owner : TypeName)
    (f : FunctionItem) (role : FunctionRole) : Prop where
  written : ∃ items b, (module, items) ∈ modules ∧ .block b ∈ items ∧
    owner? module b = some owner ∧ .function f ∈ b.members
  given : ∃ a, f.attributes.find? (·.helper? == some .viewProperty) = some a ∧
    FunctionRole.ofAttribute a = .ok role

variable {modules : List (Scope × List Item)} {module : Scope} {owner : TypeName}
  {f : FunctionItem} {role : FunctionRole}

theorem Plays.found (h : Plays modules module owner f role) :
    .contribution owner f.place (ofRole (Signature.ofItem owner f) role) ∈ ofModules modules := by
  obtain ⟨⟨items, b, inside, block, named, member⟩, a, first, read⟩ := h
  refine List.mem_append_right _ (List.mem_flatMap.2 ⟨_, inside, List.mem_flatMap.2
    ⟨_, block, ?_⟩⟩)
  rw [ofBlockItem, ofBlock, named]
  refine List.mem_flatMap.2 ⟨_, member, ?_⟩
  rw [ofMember, ofFunction, first]
  simp [read, ofContribution, Functor.map, Except.map]

end Finding

namespace SourceUnit

variable {locate : Nat → Location} {u : SourceUnit} {scope module : Scope} {items : List Item}
  {owner : TypeName} {f : FunctionItem} {role : FunctionRole}

/-- A function that a file gives a part to is carried by the bearer of its container, with its
header as it is written. Of every record that its parameter names, or that the check takes it for,
the check is right exactly if the path keeps its meaning on the way from the module where the block
is written to that of the container. -/
theorem parameter_meant_iff {lifetime : Option String} {p : Path} {s : Signature}
    (read : ofFile locate scope items = .ok u)
    (plays : Finding.Plays ((scope, items) :: Item.listModules scope items) module owner f role)
    (header : s = Signature.ofItem owner f)
    (one : f.paramTypes = [.reference lifetime false (.path p)]) :
    Carries u.bearers owner (Finding.ofRole s role) ∧
      ∀ target expected, s.receiver = false → s.result.isStorable = true →
        (∀ ty ∈ expected, ty = s.result) →
        (p.meaning? ⟨module, owner⟩ = some target ∨
          Extractor.checkFunction s target expected = .ok ()) →
        ((Extractor.checkFunction s target expected = .ok () ↔
            p.meaning? ⟨module, owner⟩ = some target) ↔
          p.Keeps ⟨module, owner⟩ (owner.sibling "Self").site) := by
  subst header
  refine ⟨carries_of_found read plays.found, ?_⟩
  intro target expected static owned shown either
  -- the check reads the path like any place inside a record called `Self`
  have reads : Extractor.checkFunction (Signature.ofItem owner f) target expected = .ok () ↔
      p.meaning? (owner.sibling "Self").site = some target := by
    rw [Extractor.checkFunction_reference static owned shown one]
    exact Eq.to_iff (congrArg (· = some target) (Path.resolve?_eq_meaning p owner.module))
  rw [reads] at either ⊢
  exact Path.meanings_agree_iff_keeps either

/-- A function that gives the property `label`. -/
def labelFunction (source : Path) : FunctionItem := { (default : FunctionItem) with
  attributes := [{
    path := .ofNames ["view_property"]
    args := .list .paren [.ident "new", .punct '=' false, .literal "\"label\""] }]
  name := "label"
  params := [{ (default : Grammar.Param) with
    form := .typed [.ident "source"] (.reference none false (.path source)) }]
  output := some (.path (.ofNames ["String"])) }

/-- A record, and a module inside with a block of functions of it. -/
def labelFile (source : Path) : List Item := [
  .record { (default : Grammar.RecordItem) with name := "Person" },
  .module { (default : Grammar.ModuleHead) with name := "inner" } [
    .block { (default : Grammar.BlockItem) with
      selfType := .path (.ofNames ["super", "Person"])
      members := [.function (labelFunction source)] }]]

def labelOwner : TypeName := ⟨["crate"], "Person"⟩

def labelSignature (source : Path) : Signature :=
  .ofItem labelOwner (labelFunction source)

theorem labelFunction_plays (source : Path) :
    Finding.Plays ((["crate"], labelFile source) :: Item.listModules ["crate"] (labelFile source))
      ["crate", "inner"] labelOwner (labelFunction source) (.adds "label" none none) where
  written := ⟨_, _, List.mem_cons_of_mem _ List.mem_cons_self, List.mem_cons_self, rfl,
    List.mem_cons_self⟩
  given := ⟨_, rfl, rfl⟩

/-- A path from the root of the crate means the same in all modules. -/
theorem rooted_parameter_accepted :
    (Path.ofNames ["crate", "Person"]).meaning? ⟨["crate", "inner"], labelOwner⟩ =
        some labelOwner ∧
      Extractor.checkFunction (labelSignature (.ofNames ["crate", "Person"])) labelOwner none =
        .ok () := by
  have meant : (Path.ofNames ["crate", "Person"]).meaning? ⟨["crate", "inner"], labelOwner⟩ =
      some labelOwner := by decide
  obtain ⟨u, read⟩ : ∃ u, ofFile (fun _ => ⟨1, 0⟩) ["crate"]
      (labelFile (.ofNames ["crate", "Person"])) = .ok u := ⟨_, rfl⟩
  obtain ⟨-, agrees⟩ :=
    parameter_meant_iff read (labelFunction_plays (.ofNames ["crate", "Person"])) rfl rfl
  refine ⟨meant, ((agrees labelOwner none rfl rfl (by simp) (Or.inl meant)).2 ?_).2 meant⟩
  decide

/-- The record by its name from the module inside, or as `Self`, is refused; what would be another
record there is taken for it. -/
theorem parameter_read_elsewhere :
    (∀ source ∈ [Path.ofNames ["super", "Person"], .ofNames ["Self"]],
      source.meaning? ⟨["crate", "inner"], labelOwner⟩ = some labelOwner ∧
        (∃ u, ofFile (fun _ => ⟨1, 0⟩) ["crate"] (labelFile source) = .ok u ∧
          u.bearers.flatMap (·.additions.map (·.function)) = [labelSignature source]) ∧
        Extractor.checkFunction (labelSignature source) labelOwner none =
          .error (.wrongParameter "Person" (.path (.ofNames ["String"])))) ∧
    (Path.ofNames ["Person"]).meaning? ⟨["crate", "inner"], labelOwner⟩ =
        some ⟨["crate", "inner"], "Person"⟩ ∧
      Extractor.checkFunction (labelSignature (.ofNames ["Person"])) labelOwner none = .ok () := by
  refine ⟨?_, by decide, rfl⟩
  intro source named
  rcases List.mem_cons.1 named with rfl | named
  · exact ⟨by decide, ⟨_, rfl, rfl⟩, rfl⟩
  · obtain rfl := List.mem_singleton.1 named
    exact ⟨by decide, ⟨_, rfl, rfl⟩, rfl⟩

end SourceUnit
end RecordViews
