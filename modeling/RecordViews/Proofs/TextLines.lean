import RecordViews.Proofs.NameTexts
import RecordViews.Text.Replace

/-! The lines of a text, and what joining them gives back. A line feed at the end of the text opens
no further line, and a carriage return in front of a line feed belongs to no line. Texts without
either, and only those, are their lines with a line feed between neighbours; the empty text has no
line to join. -/

namespace RecordViews.Text

variable {line s : List Char}

theorem linesOf_line (free : '\n' ∉ line) (some : line ≠ []) : linesOf line = [line] := by
  induction line with
  | nil => exact absurd rfl some
  | cons c rest ih =>
    obtain ⟨other, free⟩ := List.ne_and_not_mem_of_not_mem_cons free
    have first : c ≠ '\n' := other.symm
    cases rest with
    | nil => rw [linesOf, linesOf] <;> simp_all
    | cons d more =>
      have second : d ≠ '\n' := fun same => free (same ▸ List.mem_cons_self)
      rw [linesOf, ih free (List.cons_ne_nil d more)] <;> simp_all

theorem linesOf_append (free : '\n' ∉ line) (s : List Char) :
    linesOf (line ++ '\n' :: s) = line :: linesOf s := by
  induction line with
  | nil => rfl
  | cons c rest ih =>
    obtain ⟨other, free⟩ := List.ne_and_not_mem_of_not_mem_cons free
    have first : c ≠ '\n' := other.symm
    cases rest with
    | nil => rw [List.cons_append, List.nil_append, linesOf]; exact first
    | cons d more =>
      have second : d ≠ '\n' := fun same => free (same ▸ List.mem_cons_self)
      rw [List.cons_append, linesOf, ih free] <;> simp_all

theorem linesOf_ne_nil (some : s ≠ []) : linesOf s ≠ [] := by
  cases s with
  | nil => exact absurd rfl some
  | cons c rest =>
    unfold linesOf
    split
    · contradiction
    · exact List.cons_ne_nil _ _
    · exact List.cons_ne_nil _ _
    · split <;> exact List.cons_ne_nil _ _

theorem lines_line (free : '\n' ∉ line) (some : line ≠ []) :
    lines (String.ofList line) = [String.ofList line] := by
  have last : line.getLast? ≠ Option.some '\n' := fun ends => free (List.mem_of_getLast? ends)
  simp [lines, linesOf_line free some, last]

/-- The text up to the first line feed is a line of its own. -/
theorem lines_append (free : '\n' ∉ line) (s : List Char) :
    lines (String.ofList (line ++ '\n' :: s)) =
      String.ofList (dropReturn line) :: lines (String.ofList s) := by
  unfold lines
  simp only [String.toList_ofList, linesOf_append free, List.mapIdx_cons]
  cases s with
  | nil => simp [linesOf]
  | cons d more =>
    have further : 0 < (linesOf (d :: more)).length :=
      List.length_pos_of_ne_nil (linesOf_ne_nil (List.cons_ne_nil d more))
    have last : (line ++ '\n' :: d :: more).getLast? = (d :: more).getLast? := by
      rw [List.getLast?_append_of_ne_nil _ (List.cons_ne_nil _ _), List.getLast?_cons_cons]
    rw [last]
    simp [further]

/-- The text consists of lines with single line feeds between them: it is not empty, no line feed
ends it, and there is no carriage return in front of a line feed. -/
structure Lined (text : String) : Prop where
  nonempty : text ≠ ""
  last : text.toList.getLast? ≠ some '\n'
  feeds : ¬ ['\r', '\n'] <:+: text.toList

/-- A carriage return in front of a line feed is at the end of the first line or behind it. -/
theorem crlf_infix_append_iff (free : '\n' ∉ line) (s : List Char) :
    ['\r', '\n'] <:+: line ++ '\n' :: s ↔
      line.getLast? = some '\r' ∨ ['\r', '\n'] <:+: s := by
  rw [List.infix_append_iff, List.infix_cons_iff]
  constructor
  · rintro (inside | (start | later) | ⟨front, back, split, ends, starts⟩)
    · exact absurd (inside.subset (by simp)) free
    · simp [List.cons_prefix_cons] at start
    · exact Or.inr later
    · match front, back, split with
      | [], _, rfl => simp [List.cons_prefix_cons] at starts
      | ['\r'], _, rfl =>
        obtain ⟨before, rfl⟩ := ends
        exact Or.inl List.getLast?_concat
      | [_, _], _, rfl => exact absurd (ends.subset (by simp)) free
  · rintro (ends | later)
    · obtain ⟨front, rfl⟩ := List.getLast?_eq_some_iff.1 ends
      exact Or.inr (Or.inr ⟨['\r'], ['\n'], rfl, List.suffix_append _ _, by simp⟩)
    · exact Or.inr (Or.inl (Or.inr later))

theorem dropReturn_eq_self_iff : dropReturn line = line ↔ line.getLast? ≠ some '\r' := by
  unfold dropReturn
  split
  · rename_i ends
    refine iff_of_false (fun same => ?_) (fun other => other (by simpa using ends))
    have shorter := congrArg List.length same
    rw [List.length_dropLast] at shorter
    have some : line ≠ [] := by
      rintro rfl
      cases ends
    have := List.length_pos_of_ne_nil some
    omega
  · rename_i other
    exact iff_of_true rfl (by simpa using other)

theorem not_mem_dropReturn (free : '\n' ∉ line) : '\n' ∉ dropReturn line := by
  unfold dropReturn
  split
  · exact fun inside => free (List.dropLast_subset line inside)
  · exact free

def joinedLines (s : List Char) : List Char :=
  ['\n'].intercalate ((lines (String.ofList s)).map String.toList)

theorem joinedLines_line (free : '\n' ∉ line) : joinedLines line = line := by
  by_cases none : line = []
  · rw [none]
    rfl
  · rw [joinedLines, lines_line free none, List.map_singleton, List.intercalate_singleton,
      String.toList_ofList]

theorem joinedLines_last (free : '\n' ∉ line) : joinedLines (line ++ ['\n']) = dropReturn line := by
  rw [joinedLines, lines_append free, show lines (String.ofList []) = [] from rfl,
    List.map_singleton, List.intercalate_singleton, String.toList_ofList]

theorem lines_ne_nil (some : s ≠ []) : lines (String.ofList s) ≠ [] := by
  simp [lines, linesOf_ne_nil some]

theorem joinedLines_append (free : '\n' ∉ line) (some : s ≠ []) :
    joinedLines (line ++ '\n' :: s) = dropReturn line ++ '\n' :: joinedLines s := by
  rw [joinedLines, joinedLines, lines_append free, List.map_cons]
  cases later : lines (String.ofList s) with
  | nil => exact absurd later (lines_ne_nil some)
  | cons first more =>
    rw [List.map_cons, List.intercalate_cons_cons, String.toList_ofList, List.append_assoc]
    rfl

/-- A text has no line feed, or is a line in front of another text. -/
theorem line_induction {P : List Char → Prop} (last : ∀ line, '\n' ∉ line → P line)
    (more : ∀ line s, '\n' ∉ line → P s → P (line ++ '\n' :: s)) (s : List Char) : P s := by
  induction h : s.length using Nat.strongRecOn generalizing s with
  | _ n ih =>
    by_cases feed : '\n' ∈ s
    · obtain ⟨line, rest, rfl, free⟩ := List.eq_append_cons_of_mem feed
      rw [List.length_append, List.length_cons] at h
      exact more line rest free (ih rest.length (by omega) rest rfl)
    · exact last s feed

/-- Joining the lines of a text gives the text back exactly if it ends in no line feed and has no
carriage return in front of one. -/
theorem joinedLines_eq_self_iff (s : List Char) :
    joinedLines s = s ↔ s.getLast? ≠ some '\n' ∧ ¬ ['\r', '\n'] <:+: s := by
  induction s using line_induction with
  | last line free =>
    rw [joinedLines_line free]
    exact iff_of_true rfl ⟨fun ends => free (List.mem_of_getLast? ends),
      fun inside => free (inside.subset (by simp))⟩
  | more line s free ih =>
    have dropped := not_mem_dropReturn free
    by_cases none : s = []
    · subst none
      refine iff_of_false (fun same => dropped ?_) fun ⟨last, _⟩ => last List.getLast?_concat
      rw [← joinedLines_last free, same]
      simp
    · rw [joinedLines_append free none, crlf_infix_append_iff free, not_or,
        List.getLast?_append_of_ne_nil _ (List.cons_ne_nil _ _),
        List.getLast?_cons_of_ne_nil none, and_left_comm, ← ih, ← ne_eq, ← dropReturn_eq_self_iff]
      constructor
      · exact cut_inj dropped free
      · rintro ⟨first, later⟩
        rw [first, later]

theorem intercalate_lines_iff (text : String) :
    lines text ≠ [] ∧ "\n".intercalate (lines text) = text ↔ Lined text := by
  have joined : ("\n".intercalate (lines text)).toList = joinedLines text.toList := by
    rw [String.toList_intercalate, joinedLines, String.ofList_toList]
    rfl
  rw [← String.toList_inj, joined, joinedLines_eq_self_iff]
  constructor
  · rintro ⟨some, last, feeds⟩
    refine ⟨?_, last, feeds⟩
    rintro rfl
    exact some rfl
  · rintro ⟨nonempty, last, feeds⟩
    refine ⟨?_, last, feeds⟩
    have := lines_ne_nil (s := text.toList) (by simpa using nonempty)
    rwa [String.ofList_toList] at this

end RecordViews.Text
