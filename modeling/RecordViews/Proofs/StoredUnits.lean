import Mathlib.Logic.Function.Basic
import RecordViews.Files.Sink
import RecordViews.Proofs.NameTexts

/-! What becomes of the files of a directory when one unit after the other is emitted into it,
whichever steps fail. A unit is written under a name that no unit is kept under, and is there as a
whole once that file gets its own name. As different names have different files, a unit that has
been kept stays as it is until a unit of the same name is kept. -/

namespace RecordViews

open Grammar Function

variable {σ : Type}

abbrev Contents := String → Option String

/-- How something that is done to files can end; `kept` is about the files if it succeeds, and
`failed` if it fails. -/
inductive Leaves (contents : σ → Contents) (kept failed : Contents → Prop) :
    Except FileFault Unit × σ → Prop
  | ok {after : σ} (h : kept (contents after)) : Leaves contents kept failed (.ok (), after)
  | error {f : FileFault} {after : σ} (h : failed (contents after)) :
    Leaves contents kept failed (.error f, after)

namespace Leaves

variable {contents : σ → Contents} {kept kept' failed failed' : Contents → Prop}
  {did : Except FileFault Unit × σ}

theorem weaken (h : Leaves contents kept failed did) (h' : ∀ c, failed c → failed' c) :
    Leaves contents kept failed' did := by
  cases h with
  | ok h => exact .ok h
  | error h => exact .error (h' _ h)

theorem andThen {next : σ → Except FileFault Unit × σ} (h : Leaves contents kept failed did)
    (h' : ∀ s, kept (contents s) → Leaves contents kept' failed (next s)) :
    Leaves contents kept' failed (andThen did next) := by
  cases h with
  | ok h => exact h' _ h
  | error h => exact .error h

end Leaves

namespace Folder

/-- A folder whose states stand for files, on which each step does what its name says or fails
without an effect. -/
structure Sound (folder : Folder σ) (contents : σ → Contents) : Prop where
  clear (s : σ) (file : String) : Leaves contents
    (· = update (contents s) file (some "")) (· = contents s) (folder.clear s file)
  write (s : σ) (file text : String) : Leaves contents
    (· = update (contents s) file (some text)) (· = contents s) (folder.write s file text)
  rename (s : σ) (source target : String) : Leaves contents
    (· = update (update (contents s) source none) target (contents s source)) (· = contents s)
    (folder.rename s source target)
  remove (s : σ) (file : String) : Leaves contents
    (· = update (contents s) file none) (· = contents s) (folder.remove s file)

/-- The replacement of a file up to the point where it succeeds or fails. -/
def attempt (folder : Folder σ) (s : σ) (file text : String) : Except FileFault Unit × σ :=
  andThen (folder.clear s (stagingName file)) fun s =>
    andThen (folder.write s (stagingName file) text) fun s =>
      folder.rename s (stagingName file) file

def cleanUp (folder : Folder σ) (s : σ) (file text : String) : Except FileFault Unit × σ :=
  match folder.attempt s file text with
  | (.ok (), after) => (.ok (), after)
  | (.error _, after) => folder.remove after (stagingName file)

theorem replace_eq (folder : Folder σ) (s : σ) (file text : String) :
    folder.replace s file text =
      ((folder.attempt s file text).1, (folder.cleanUp s file text).2) := by
  rw [cleanUp]
  change (match folder.attempt s file text with
    | (.ok (), after) => ((.ok (), after) : Except FileFault Unit × σ)
    | (.error f, after) => (.error f, (folder.remove after (stagingName file)).2)) = _
  generalize folder.attempt s file text = did
  rcases did with ⟨f | ⟨⟩, after⟩ <;> rfl

theorem stagingName_ne_fileName (file : String) (name : TypeName) :
    stagingName file ≠ Sink.fileName name := by
  intro same
  have ends := congrArg (fun s : String => s.toList.getLast?) same
  simp [stagingName, Sink.fileName, List.getLast?_cons] at ends

variable {folder : Folder σ} {contents : σ → Contents}

/-- A file is replaced at once; until then nothing but the file under the other name changes. -/
theorem Sound.attempt (sound : folder.Sound contents) (s : σ) (file text : String) :
    Leaves contents
      (· = update (update (contents s) (stagingName file) none) file (some text))
      (fun c => ∀ other ≠ stagingName file, c other = contents s other)
      (folder.attempt s file text) := by
  refine (sound.clear s _ |>.weaken fun c same other _ => congrFun same other).andThen
    fun empty cleared => ?_
  refine (sound.write empty _ text |>.weaken fun c same other apart => ?_).andThen
    fun full written => ?_
  · rw [same, cleared, update_of_ne apart]
  rw [cleared, update_idem] at written
  have renamed := sound.rename full (stagingName file) file
  rw [written, update_idem, update_self] at renamed
  exact renamed.weaken fun c same other apart => by rw [same, update_of_ne apart]

theorem Sound.replace (sound : folder.Sound contents) (s : σ) (file text : String) :
    Leaves contents
      (· = update (update (contents s) (stagingName file) none) file (some text))
      (fun c => ∀ other ≠ stagingName file, c other = contents s other)
      (folder.replace s file text) := by
  have attempted := sound.attempt s file text
  rw [replace_eq, cleanUp]
  generalize folder.attempt s file text = did at attempted ⊢
  cases attempted with
  | ok replaced => exact .ok replaced
  | @error _ after others =>
    -- the clean-up concerns that one file, too
    have removed := sound.remove after (stagingName file)
    dsimp only
    generalize folder.remove after (stagingName file) = did at removed ⊢
    refine .error fun other apart => ?_
    cases removed with
    | ok gone => rw [gone, update_of_ne apart, others other apart]
    | error same => rw [same, others other apart]

theorem Sound.tidy (sound : folder.Sound contents) {s : σ} {file text : String}
    (apart : stagingName file ≠ file) (cleaned : (folder.cleanUp s file text).1 = .ok ()) :
    contents (folder.replace s file text).2 (stagingName file) = none := by
  have attempted := sound.attempt s file text
  rw [replace_eq]
  unfold cleanUp at cleaned ⊢
  generalize folder.attempt s file text = did at attempted cleaned ⊢
  cases attempted with
  | ok replaced =>
    dsimp only
    rw [replaced, update_of_ne apart, update_self]
  | @error _ after _ =>
    have removed := sound.remove after (stagingName file)
    dsimp only at cleaned ⊢
    generalize folder.remove after (stagingName file) = did at removed cleaned ⊢
    cases removed with
    | ok gone => rw [gone, update_self]
    | error _ => cases cleaned

end Folder

def unitText (layout : SourceFile → String) (tokens : Tokens) : Except Fault String :=
  (readAll readFile (Stream.ofTokens tokens)).map (generatedHeader ++ layout ·)

/-- The emission of a unit: the states before and after it, and how it went. -/
structure Emission (σ : Type) where
  unit : Emitted
  before : σ
  result : Except EmitFault Unit
  after : σ

namespace Emission

/-- The text that the emission has kept, if it has. -/
def text? (layout : SourceFile → String) (e : Emission σ) : Option String :=
  match e.result with
  | .ok () => (unitText layout e.unit.tokens).toOption
  | .error _ => none

def lastText? (layout : SourceFile → String) (name : TypeName) (es : List (Emission σ)) :
    Option String :=
  es.reverse.findSome? fun e => if e.unit.name = name then e.text? layout else none

theorem lastText?_cons (layout : SourceFile → String) (name : TypeName) (e : Emission σ)
    (es : List (Emission σ)) :
    lastText? layout name (e :: es) =
      (lastText? layout name es).or (if e.unit.name = name then e.text? layout else none) := by
  simp [lastText?, List.findSome?_append]

variable (folder : Folder σ) (contents : σ → Contents) (root : String)
  (layout : SourceFile → String)

def staging (e : Emission σ) : String :=
  Folder.stagingName (Sink.fileName e.unit.name)

def path (e : Emission σ) : String :=
  joinPath root (Sink.fileName e.unit.name)

/-- The path of the file that was written, if one was. -/
def path? (e : Emission σ) : Option String :=
  match e.result with
  | .ok () => some (e.path root)
  | .error _ => none

/-- What an emission does to a store of files. -/
structure Stores (e : Emission (FileStore σ)) : Prop where
  /-- It succeeds if the unit consists of items and no step fails. -/
  succeeds : ∀ text, unitText layout e.unit.tokens = .ok text →
    (folder.attempt e.before.folder (Sink.fileName e.unit.name) text).1 = .ok () →
    e.result = .ok ()
  /-- A unit that is kept is in its file as a whole, and no other file changes. -/
  kept : e.result = .ok () → ∃ text, unitText layout e.unit.tokens = .ok text ∧
    contents e.after.folder = update (update (contents e.before.folder) e.staging none)
      (Sink.fileName e.unit.name) (some text) ∧
    e.after.written = e.before.written ++ [e.path root]
  /-- Of a unit that is not kept nothing can be seen. -/
  failed : e.result ≠ .ok () → e.after.written = e.before.written ∧
    ∀ other ≠ e.staging, contents e.after.folder other = contents e.before.folder other
  /-- Nothing is opened for a unit that does not consist of items. -/
  unopened : ∀ f, unitText layout e.unit.tokens = .error f → e.after = e.before
  tidy : ∀ text, unitText layout e.unit.tokens = .ok text →
    (folder.cleanUp e.before.folder (Sink.fileName e.unit.name) text).1 = .ok () →
    contents e.after.folder e.staging = none

namespace Stores

variable {folder contents root layout} {e : Emission (FileStore σ)}

theorem result_cases (layout : SourceFile → String) (root : String)
    (e : Emission (FileStore σ)) :
    e.result = .ok () ∨ e.result ≠ .ok () ∧ e.text? layout = none ∧ e.path? root = none := by
  unfold text? path?
  rcases e.result with f | ⟨⟩
  · exact Or.inr ⟨by simp, rfl, rfl⟩
  · exact Or.inl rfl

theorem written_eq (h : e.Stores folder contents root layout) :
    e.after.written = e.before.written ++ (e.path? root).toList := by
  rcases result_cases layout root e with went | ⟨failed, -, none⟩
  · obtain ⟨_, -, -, path⟩ := h.kept went
    rw [path, path?, went]
    rfl
  · rw [(h.failed failed).1, none]
    simp

theorem contents_other (h : e.Stores folder contents root layout) {file : String}
    (other : file ≠ Sink.fileName e.unit.name) (apart : file ≠ e.staging) :
    contents e.after.folder file = contents e.before.folder file := by
  by_cases went : e.result = .ok ()
  · obtain ⟨_, -, kept, -⟩ := h.kept went
    rw [kept, update_of_ne other, update_of_ne apart]
  · exact (h.failed went).2 file apart

/-- The file of a name changes only when a unit of this name is kept. -/
theorem contents_fileName (h : e.Stores folder contents root layout) (own : e.unit.name.Spelled)
    {name : TypeName} (spelled : name.Spelled) :
    contents e.after.folder (Sink.fileName name) =
      (if e.unit.name = name then e.text? layout else none).or
        (contents e.before.folder (Sink.fileName name)) := by
  have apart : Sink.fileName name ≠ e.staging := (Folder.stagingName_ne_fileName _ _).symm
  by_cases same : e.unit.name = name
  · subst same
    rw [if_pos rfl]
    rcases result_cases layout root e with went | ⟨failed, none, -⟩
    · obtain ⟨text, read, kept, -⟩ := h.kept went
      rw [kept, update_self, text?, went]
      dsimp only
      rw [read]
      rfl
    · rw [none, (h.failed failed).2 _ apart]
      rfl
  · rw [if_neg same, Option.none_or]
    exact h.contents_other (fun e => same (Sink.fileName_inj spelled own e).symm) apart

end Stores

end Emission

namespace Sink

def history (sink : Sink σ) : σ → List Emitted → List (Emission σ)
  | _, [] => []
  | s, u :: rest =>
    let (result, after) := sink.emit s u.name u.tokens
    ⟨u, s, result, after⟩ :: sink.history after rest

def emitAll (sink : Sink σ) (s : σ) (units : List Emitted) : σ :=
  units.foldl (fun s u => (sink.emit s u.name u.tokens).2) s

variable {folder : Folder σ} {contents : σ → Contents} {root : String}
  {layout : SourceFile → String}

theorem files_emit (store : FileStore σ) (u : Emitted) :
    (Sink.files folder root layout).emit store u.name u.tokens =
      match unitText layout u.tokens with
      | .error f => (.error (.shape f), store)
      | .ok text =>
        match folder.replace store.folder (fileName u.name) text with
        | (.ok (), s) => (.ok (), ⟨s, store.written ++ [joinPath root (fileName u.name)]⟩)
        | (.error f, s) =>
          (.error (.file (joinPath root (fileName u.name)) f), { store with folder := s }) := by
  dsimp only [Sink.files]
  rw [unitText]
  cases readAll readFile (Stream.ofTokens u.tokens) <;> rfl

/-- One emission, whatever comes of its steps. -/
theorem files_stores (sound : folder.Sound contents) (store : FileStore σ) (u : Emitted) :
    let did := (Sink.files folder root layout).emit store u.name u.tokens
    Emission.Stores folder contents root layout ⟨u, store, did.1, did.2⟩ := by
  intro did
  have emitted : did = _ := files_emit store u
  cases read : unitText layout u.tokens with
  | error f =>
    rw [read] at emitted
    rw [emitted]
    exact {
      succeeds := fun text other => by rw [read] at other; cases other
      kept := nofun
      failed := fun _ => ⟨rfl, fun _ _ => rfl⟩
      unopened := fun _ _ => rfl
      tidy := fun text other => by rw [read] at other; cases other }
  | ok text =>
    have replaced := sound.replace store.folder (fileName u.name) text
    have succeeds : ∀ text', unitText layout u.tokens = .ok text' →
        (folder.attempt store.folder (fileName u.name) text').1 = .ok () →
        (folder.replace store.folder (fileName u.name) text).1 = .ok () := by
      intro text' same went
      cases read.symm.trans same
      rwa [Folder.replace_eq]
    have tidy : ∀ text', unitText layout u.tokens = .ok text' →
        (folder.cleanUp store.folder (fileName u.name) text').1 = .ok () →
        contents (folder.replace store.folder (fileName u.name) text).2
          (Folder.stagingName (fileName u.name)) = none := by
      intro text' same cleaned
      cases read.symm.trans same
      exact sound.tidy (Folder.stagingName_ne_fileName _ _) cleaned
    rw [read] at emitted
    dsimp only at emitted
    generalize folder.replace store.folder (fileName u.name) text = done at *
    cases replaced with
    | ok kept =>
      rw [emitted]
      exact {
        succeeds := fun _ _ _ => rfl
        kept := fun _ => ⟨text, read, kept, rfl⟩
        failed := fun failed => absurd rfl failed
        unopened := fun _ other => nomatch read.symm.trans other
        tidy := tidy }
    | error others =>
      rw [emitted]
      exact {
        succeeds := fun text' same went => nomatch succeeds text' same went
        kept := nofun
        failed := fun _ => ⟨rfl, others⟩
        unopened := fun _ other => nomatch read.symm.trans other
        tidy := tidy }

/-- After the units have been emitted, the file of a name holds what was kept under it last. -/
theorem contents_emitAll (sound : folder.Sound contents) {units : List Emitted}
    (spelled : ∀ u ∈ units, u.name.Spelled) (store : FileStore σ) {name : TypeName}
    (h : name.Spelled) :
    let sink := Sink.files folder root layout
    contents (sink.emitAll store units).folder (fileName name) =
      (Emission.lastText? layout name (sink.history store units)).or
        (contents store.folder (fileName name)) := by
  intro sink
  induction units generalizing store with
  | nil => rfl
  | cons u rest ih =>
    obtain ⟨own, others⟩ := List.forall_mem_cons.1 spelled
    have stores : Emission.Stores folder contents root layout _ := files_stores sound store u
    rw [history, Emission.lastText?_cons, Option.or_assoc, ← stores.contents_fileName own h]
    exact ih others _

theorem contents_emitAll_other (sound : folder.Sound contents) {units : List Emitted}
    {file : String} (other : ∀ u ∈ units, file ≠ fileName u.name ∧
      file ≠ Folder.stagingName (fileName u.name)) (store : FileStore σ) :
    contents ((Sink.files folder root layout).emitAll store units).folder file =
      contents store.folder file := by
  induction units generalizing store with
  | nil => rfl
  | cons u rest ih =>
    obtain ⟨⟨apart, apart'⟩, others⟩ := List.forall_mem_cons.1 other
    have stores : Emission.Stores folder contents root layout _ := files_stores sound store u
    exact (ih others _).trans (stores.contents_other apart apart')

theorem written_emitAll (sound : folder.Sound contents) (units : List Emitted)
    (store : FileStore σ) :
    let sink := Sink.files folder root layout
    (sink.emitAll store units).written =
      store.written ++ (sink.history store units).filterMap (·.path? root) := by
  intro sink
  induction units generalizing store with
  | nil => exact (List.append_nil _).symm
  | cons u rest ih =>
    have stores : Emission.Stores folder contents root layout _ := files_stores sound store u
    refine (ih _).trans ?_
    rw [stores.written_eq, history, List.append_assoc, List.filterMap_cons]
    cases Emission.path? root _ <;> rfl

theorem history_stores (sound : folder.Sound contents) (units : List Emitted)
    (store : FileStore σ) :
    ∀ e ∈ (Sink.files folder root layout).history store units,
      e.Stores folder contents root layout := by
  induction units generalizing store with
  | nil => simp [history]
  | cons u rest ih => exact List.forall_mem_cons.2 ⟨files_stores sound store u, ih _⟩

/-- Units are emitted one after the other into a directory, and any step may fail. A success puts
the text of the unit into its file and notes the path; a failure leaves every file but the one
under the other name as it was, and notes nothing; and that one is gone unless it cannot be removed.
In the end the file of each name holds what was kept under this name last, and files that belong to
no unit are as they were. No unit is written first under the name that one is kept under, and
different names have different files. -/
theorem files_kept (folder : Folder σ) (contents : σ → Contents) (sound : folder.Sound contents)
    (root : String) (layout : SourceFile → String) (store : FileStore σ) (units : List Emitted)
    (spelled : ∀ u ∈ units, u.name.Spelled) :
    let sink := Sink.files folder root layout
    let emissions := sink.history store units
    let final := sink.emitAll store units
    (∀ e ∈ emissions, e.Stores folder contents root layout) ∧
      final.written = store.written ++ emissions.filterMap (·.path? root) ∧
      (∀ name : TypeName, name.Spelled → contents final.folder (fileName name) =
        (Emission.lastText? layout name emissions).or (contents store.folder (fileName name))) ∧
      (∀ file, (∀ u ∈ units, file ≠ fileName u.name ∧
          file ≠ Folder.stagingName (fileName u.name)) →
        contents final.folder file = contents store.folder file) ∧
      (∀ m n : TypeName, Folder.stagingName (fileName m) ≠ fileName n) ∧
      ∀ m n : TypeName, m.Spelled → n.Spelled → fileName m = fileName n → m = n :=
  ⟨history_stores sound units store, written_emitAll sound units store,
    fun _ h => contents_emitAll sound spelled store h,
    fun _ other => contents_emitAll_other sound other store,
    fun _ _ => Folder.stagingName_ne_fileName _ _, fun _ _ => fileName_inj⟩

end Sink

/-- Files of a directory, and the faults of the coming steps; a step without one goes well. -/
structure PlannedFiles where
  files : Contents
  plan : List (Option FileFault) := []

namespace PlannedFiles

/-- A step that goes wrong as planned, or else changes the files if it can. -/
def step (s : PlannedFiles) (changed : Except FileFault Contents) :
    Except FileFault Unit × PlannedFiles :=
  match s.plan.head?.join, changed with
  | some f, _ | none, .error f => (.error f, { s with plan := s.plan.tail })
  | none, .ok files => (.ok (), ⟨files, s.plan.tail⟩)

def folder : Folder PlannedFiles where
  clear s file := s.step (.ok (update s.files file (some "")))
  write s file text := s.step (.ok (update s.files file (some text)))
  rename s source target := s.step <|
    match s.files source with
    | some text => .ok (update (update s.files source none) target (some text))
    | none => .error .notFound
  remove s file := s.step <|
    match s.files file with
    | some _ => .ok (update s.files file none)
    | none => .error .notFound

theorem step_leaves (s : PlannedFiles) {changed : Except FileFault Contents} {kept : Contents}
    (h : ∀ c, changed = .ok c → c = kept) :
    Leaves files (· = kept) (· = s.files) (s.step changed) := by
  unfold step
  split
  · exact .error rfl
  · exact .error rfl
  · rename_i c _
    exact .ok (h c rfl)

/-- Whatever is planned, the steps do what they should or nothing. -/
theorem folder_sound : folder.Sound files where
  clear s file := s.step_leaves fun c same => (Except.ok.inj same).symm
  write s file text := s.step_leaves fun c same => (Except.ok.inj same).symm
  rename s source target := s.step_leaves fun c same => by
    split at same <;> cases same
    rename_i found
    rw [found]
  remove s file := s.step_leaves fun c same => by
    split at same <;> cases same
    rfl

end PlannedFiles

namespace Sink

def personUnit : Emitted := ⟨⟨["crate"], "PersonView"⟩, words "pub struct PersonView ;"⟩

def homeUnit : Emitted := ⟨⟨["crate"], "HomeView"⟩, words "pub struct HomeView ;"⟩

def unitStructs (file : SourceFile) : String :=
  String.join <| file.items.map fun
    | .record r => "pub struct " ++ r.name ++ ";\n"
    | _ => ""

/-- A directory in which the second replacement of a file will fail at its last step. -/
def staleHome : PlannedFiles where
  files file := if file = "crate.HomeView.rs" then some "stale" else none
  plan := [none, none, none, none, none, some .isADirectory]

theorem personUnit_kept :
    let sink := Sink.files PlannedFiles.folder "out" unitStructs
    let units := [personUnit, homeUnit]
    let final := sink.emitAll ⟨staleHome, []⟩ units
    PlannedFiles.folder.Sound PlannedFiles.files ∧ (∀ u ∈ units, u.name.Spelled) ∧
      (sink.history ⟨staleHome, []⟩ units).map (·.result) =
        [.ok (), .error (.file "out/crate.HomeView.rs" .isADirectory)] ∧
      final.written = ["out/crate.PersonView.rs"] ∧
      final.folder.files "crate.PersonView.rs" =
        some (generatedHeader ++ "pub struct PersonView;\n") ∧
      final.folder.files "crate.HomeView.rs" = some "stale" ∧
      final.folder.files ".crate.HomeView.rs.tmp" = none := by
  intro sink units final
  have spelled : ∀ u ∈ units, u.name.Spelled := by decide +kernel
  obtain ⟨each, written, kept, -⟩ := files_kept PlannedFiles.folder PlannedFiles.files
    PlannedFiles.folder_sound "out" unitStructs ⟨staleHome, []⟩ units spelled
  have person := kept personUnit.name (spelled _ (by simp [units]))
  have home := kept homeUnit.name (spelled _ (by simp [units]))
  have second := each _ (List.mem_cons_of_mem _ List.mem_cons_self)
  refine ⟨PlannedFiles.folder_sound, spelled, by decide +kernel, ?_, ?_, ?_, ?_⟩
  · exact written.trans (by decide +kernel)
  · exact person.trans (by decide +kernel)
  · exact home.trans (by decide +kernel)
  · exact second.tidy (generatedHeader ++ "pub struct HomeView;\n") (by decide +kernel)
      (by decide +kernel)

end Sink

end RecordViews
