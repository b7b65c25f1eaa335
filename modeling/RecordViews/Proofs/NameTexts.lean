import Mathlib.Data.List.Basic
import RecordViews.Proofs.Words
import RecordViews.Sink

/-! The texts of names, and the files that units are kept in. Both put a mark between the segments
of a name. When the mark starts with a character that is in no segment, the segments can be read
back, so two names share a text or a file only if they are the same. -/

namespace RecordViews

/-- At the first occurrence of a character there is only one way to cut. -/
theorem cut_inj {c : Char} {w w' x x' : List Char} (free : c ∉ w) (free' : c ∉ w')
    (h : w ++ c :: x = w' ++ c :: x') : w = w' ∧ x = x' := by
  induction w generalizing w' with
  | nil =>
    cases w' with
    | nil => exact ⟨rfl, (List.cons.inj h).2⟩
    | cons a w' => exact absurd ((List.cons.inj h).1 ▸ List.mem_cons_self) free'
  | cons a w ih =>
    cases w' with
    | nil => exact absurd ((List.cons.inj h).1 ▸ List.mem_cons_self) free
    | cons b w' =>
      obtain ⟨rfl, more⟩ := List.cons.inj h
      obtain ⟨rfl, rfl⟩ := ih (mt (List.mem_cons_of_mem _) free)
        (mt (List.mem_cons_of_mem _) free') more
      exact ⟨rfl, rfl⟩

namespace TypeName

/-- The characters of the segments, a mark behind each but the last. -/
def joined (mark : List Char) (n : TypeName) : List Char :=
  n.module.flatMap (·.toList ++ mark) ++ n.simple.toList

@[simp] theorem joined_cons (mark : List Char) (w : String) (module : Scope) (simple : String) :
    joined mark ⟨w :: module, simple⟩ = w.toList ++ (mark ++ joined mark ⟨module, simple⟩) := by
  simp [joined]

theorem toList_text (n : TypeName) : n.text.toList = n.joined "::".toList := by
  simp [text, joined, String.toList_join, List.flatMap_map]

/-- No segment has the character in it. -/
def Lacks (n : TypeName) (c : Char) : Prop :=
  ∀ s ∈ n.asScope, c ∉ s.toList

/-- Every segment of the name is a word. -/
def Worded (n : TypeName) : Prop :=
  WordyScope n.asScope

theorem Worded.lacks {n : TypeName} (h : n.Worded) {c : Char} (mark : isWordCharacter c = false) :
    n.Lacks c := fun s hs =>
  (h s hs).not_mem mark

theorem lacks_cons {w : String} {module : Scope} {simple : String} {c : Char} :
    Lacks ⟨w :: module, simple⟩ c ↔ c ∉ w.toList ∧ Lacks ⟨module, simple⟩ c :=
  List.forall_mem_cons

theorem joined_inj {c : Char} {mark : List Char} {m n : TypeName} (hm : m.Lacks c) (hn : n.Lacks c)
    (h : m.joined (c :: mark) = n.joined (c :: mark)) : m = n := by
  obtain ⟨path, simple⟩ := m
  obtain ⟨path', simple'⟩ := n
  induction path generalizing path' with
  | nil =>
    cases path' with
    | nil => exact congrArg (TypeName.mk []) (String.toList_inj.1 h)
    | cons w rest =>
      refine absurd ?_ (hm simple (by simp [asScope]))
      rw [show simple.toList = _ from h, joined_cons]
      simp
  | cons w rest ih =>
    cases path' with
    | nil =>
      refine absurd ?_ (hn simple' (by simp [asScope]))
      rw [show simple'.toList = _ from h.symm, joined_cons]
      simp
    | cons w' rest' =>
      obtain ⟨own, others⟩ := lacks_cons.1 hm
      obtain ⟨own', others'⟩ := lacks_cons.1 hn
      rw [joined_cons, joined_cons] at h
      obtain ⟨first, more⟩ := cut_inj own own' h
      obtain ⟨rfl, rfl⟩ := TypeName.mk.inj (ih others rest' others' (List.append_cancel_left more))
      rw [String.toList_inj.1 first]

theorem text_inj {m n : TypeName} (hm : m.Lacks ':') (hn : n.Lacks ':') (h : m.text = n.text) :
    m = n := by
  have joined : m.joined [':', ':'] = n.joined [':', ':'] :=
    (toList_text m).symm.trans ((congrArg String.toList h).trans (toList_text n))
  exact joined_inj hm hn joined

/-- Of two names with one text that are in different modules of words, one has a colon in its simple
name. -/
theorem colon_of_text {m n : TypeName} (hm : WordyScope m.module) (hn : WordyScope n.module)
    (text : m.text = n.text) (apart : m.module ≠ n.module) :
    ':' ∈ n.simple.toList ∨ ':' ∈ m.simple.toList := by
  by_contra none
  rw [not_or] at none
  have lacks {n : TypeName} (hn : WordyScope n.module) (own : ':' ∉ n.simple.toList) :
      n.Lacks ':' := by
    intro s hs
    rcases List.mem_append.1 hs with word | simple
    · exact (hn s word).not_mem (by decide)
    · exact List.mem_singleton.1 simple ▸ own
  exact apart (congrArg TypeName.module (text_inj (lacks hm none.2) (lacks hn none.1) text))

end TypeName

namespace Text

theorem replaceFrom_skip (pattern replacement start s : List Char) :
    replaceFrom pattern replacement start.length (start ++ s) =
      replaceFrom pattern replacement 0 s := by
  induction start with
  | nil => rfl
  | cons c start ih => exact ih

theorem replaceFrom_pattern (c : Char) (pattern replacement s : List Char) :
    replaceFrom (c :: pattern) replacement 0 (c :: pattern ++ s) =
      replacement ++ replaceFrom (c :: pattern) replacement 0 s := by
  have here : (c :: pattern).isPrefixOf (c :: (pattern ++ s)) = true := by simp
  rw [List.cons_append, replaceFrom, if_pos here]
  congr 1
  exact replaceFrom_skip _ _ _ _

theorem replaceFrom_free {c : Char} {pattern replacement w s : List Char} (free : c ∉ w) :
    replaceFrom (c :: pattern) replacement 0 (w ++ s) =
      w ++ replaceFrom (c :: pattern) replacement 0 s := by
  induction w with
  | nil => rfl
  | cons a w ih =>
    have other : ¬ (c :: pattern).isPrefixOf (a :: (w ++ s)) = true := by
      rintro here
      have same : c = a := by simp_all
      exact free (same ▸ List.mem_cons_self)
    rw [List.cons_append, replaceFrom, if_neg other, ih (mt (List.mem_cons_of_mem _) free)]
    rfl

end Text

namespace TypeName

theorem replaceFrom_joined {c : Char} {mark replacement : List Char} {n : TypeName}
    (h : n.Lacks c) :
    Text.replaceFrom (c :: mark) replacement 0 (n.joined (c :: mark)) = n.joined replacement := by
  obtain ⟨path, simple⟩ := n
  induction path with
  | nil =>
    have free : c ∉ simple.toList := h simple (by simp [asScope])
    have kept : Text.replaceFrom (c :: mark) replacement 0 (simple.toList ++ []) = _ :=
      Text.replaceFrom_free free
    simpa [joined, Text.replaceFrom] using kept
  | cons w rest ih =>
    obtain ⟨own, others⟩ := lacks_cons.1 h
    rw [joined_cons, Text.replaceFrom_free own, Text.replaceFrom_pattern, ih others, joined_cons]

/-- Every segment of the name is an identifier; it may be a keyword. -/
def Spelled (n : TypeName) : Prop :=
  ∀ s ∈ n.asScope, soleWord? s = some s

instance (n : TypeName) : Decidable n.Spelled :=
  inferInstanceAs (Decidable (∀ s ∈ n.asScope, soleWord? s = some s))

theorem Spelled.worded {n : TypeName} (h : n.Spelled) : n.Worded := fun s hs =>
  soleWord?_wordy (h s hs)

end TypeName

namespace Sink

theorem toList_fileName {n : TypeName} (h : n.Lacks ':') :
    (fileName n).toList = n.joined ".".toList ++ ".rs".toList := by
  rw [fileName, Text.replaceAll, String.toList_append, String.toList_ofList, TypeName.toList_text]
  exact congrArg (· ++ _) (TypeName.replaceFrom_joined h)

/-- Different names are kept in different files. -/
theorem fileName_inj {m n : TypeName} (hm : m.Spelled) (hn : n.Spelled)
    (h : fileName m = fileName n) : m = n := by
  have colon : isWordCharacter ':' = false := by decide
  have point : isWordCharacter '.' = false := by decide
  rw [← String.toList_inj, toList_fileName (hm.worded.lacks colon),
    toList_fileName (hn.worded.lacks colon)] at h
  have joined : m.joined ['.'] = n.joined ['.'] := List.append_cancel_right h
  exact TypeName.joined_inj (hm.worded.lacks point) (hn.worded.lacks point) joined

end Sink

end RecordViews
