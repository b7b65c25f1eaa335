import Mathlib.Data.List.DropRight
import Mathlib.Data.List.Infix
import RecordViews.Proofs.NameTexts
import RecordViews.Proofs.Paths

/-! Names read from texts. A text is cut at every `::` from the left; this is the only way to cut it
into pieces of which none has a `::` in it and none but the last ends in a colon
(`splitColons_eq_iff`). Reading drops the blanks around each piece. A colon that only such blanks
keep apart from the `::` behind it then meets the `::` that is written behind its segment, and the
text of the name is cut in front of this colon. Where there is no such colon the name is read back
from its text. -/

namespace RecordViews

namespace Text

theorem trim_eq (s : List Char) : trim s = (s.dropWhile isBlank).rdropWhile isBlank :=
  rfl

/-- Only blanks are dropped, at both ends. -/
theorem exists_trim (s : List Char) :
    ∃ front back, s = front ++ trim s ++ back ∧ (∀ c ∈ front, isBlank c = true) ∧
      ∀ c ∈ back, isBlank c = true := by
  refine ⟨s.takeWhile isBlank, (s.dropWhile isBlank).rtakeWhile isBlank, ?_,
    List.all_eq_true.1 List.all_takeWhile, fun c hc => List.mem_rtakeWhile_imp hc⟩
  rw [trim_eq, List.append_assoc, List.rdropWhile_append_rtakeWhile,
    List.takeWhile_append_dropWhile]

theorem trim_infix (s : List Char) : trim s <:+: s := by
  obtain ⟨front, back, split, -, -⟩ := exists_trim s
  exact ⟨front, back, split.symm⟩

theorem trim_blank {s : List Char} (blank : ∀ c ∈ s, isBlank c = true) : trim s = [] := by
  rw [trim_eq, List.dropWhile_eq_nil_iff.2 blank, List.rdropWhile_nil]

theorem trim_trim (s : List Char) : trim (trim s) = trim s := by
  have start : (trim s).dropWhile isBlank = trim s := by
    rw [List.dropWhile_eq_self_iff]
    intro some
    -- what is left starts as the text without the blanks in front does
    have front : trim s <+: s.dropWhile isBlank := List.rdropWhile_prefix isBlank _
    rw [front.getElem some]
    exact List.dropWhile_eq_self_iff.1 (List.dropWhile_idempotent isBlank s) _
  rw [trim_eq, start, trim_eq]
  exact List.rdropWhile_idempotent isBlank _

/-- What is left ends in the last character that is no blank. -/
theorem getLast?_trim {front blanks : List Char} {c : Char} (own : isBlank c = false)
    (blank : ∀ b ∈ blanks, isBlank b = true) :
    (trim (front ++ c :: blanks)).getLast? = some c := by
  obtain ⟨start, left⟩ :
      ∃ start, (front ++ c :: blanks).dropWhile isBlank = start ++ c :: blanks := by
    rw [List.dropWhile_append, List.dropWhile_cons_of_neg (by simp [own])]
    split
    · exact ⟨[], rfl⟩
    · exact ⟨_, rfl⟩
  have gone : blanks.reverse.dropWhile isBlank = [] :=
    List.dropWhile_eq_nil_iff.2 fun b hb => blank b (List.mem_reverse.1 hb)
  rw [trim, left, List.reverse_append, List.reverse_cons, List.append_assoc, List.dropWhile_append]
  simp [gone, own]

/-- So does what is left of the end of such a text, unless nothing is. -/
theorem getLast?_trim_suffix {front blanks s : List Char} {c : Char} (own : isBlank c = false)
    (blank : ∀ b ∈ blanks, isBlank b = true) (back : s <:+ front ++ c :: blanks)
    (full : trim s ≠ []) : (trim s).getLast? = some c := by
  rcases List.suffix_or_suffix_of_suffix back (List.suffix_append front (c :: blanks)) with
    short | ⟨start, rfl⟩
  · rcases List.suffix_cons_iff.1 short with rfl | behind
    · rw [← List.nil_append (c :: blanks)]
      exact getLast?_trim own blank
    · exact absurd (trim_blank fun b hb => blank b (behind.subset hb)) full
  · exact getLast?_trim own blank

end Text

namespace TypeName

variable {p w : List Char} {ps qs : List (List Char)} {c : Char}

/-- The pieces can be told apart when `::` stands between them. -/
structure Apart (ps : List (List Char)) : Prop where
  ne_nil : ps ≠ []
  uncut : ∀ p ∈ ps, ¬ [':', ':'] <:+: p
  ends : ∀ p ∈ ps.dropLast, p.getLast? ≠ some ':'

theorem apart_singleton : Apart [p] ↔ ¬ [':', ':'] <:+: p :=
  ⟨fun h => h.uncut p List.mem_cons_self, fun h => ⟨by simp, by simpa using h, by simp⟩⟩

theorem apart_cons (more : ps ≠ []) :
    Apart (p :: ps) ↔ (¬ [':', ':'] <:+: p ∧ p.getLast? ≠ some ':') ∧ Apart ps := by
  constructor
  · rintro ⟨-, uncut, ends⟩
    rw [List.dropLast_cons_of_ne_nil more] at ends
    obtain ⟨own, others⟩ := List.forall_mem_cons.1 uncut
    obtain ⟨own', others'⟩ := List.forall_mem_cons.1 ends
    exact ⟨⟨own, own'⟩, more, others, others'⟩
  · rintro ⟨⟨own, own'⟩, -, uncut, ends⟩
    refine ⟨by simp, List.forall_mem_cons.2 ⟨own, uncut⟩, ?_⟩
    rw [List.dropLast_cons_of_ne_nil more]
    exact List.forall_mem_cons.2 ⟨own', ends⟩

theorem Apart.append (h : Apart ps) (h' : Apart qs) (last : ∀ p ∈ ps, p.getLast? ≠ some ':') :
    Apart (ps ++ qs) := by
  refine ⟨by simp [h.ne_nil], List.forall_mem_append.2 ⟨h.uncut, h'.uncut⟩, ?_⟩
  rw [List.dropLast_append_of_ne_nil h'.ne_nil]
  exact List.forall_mem_append.2 ⟨last, h'.ends⟩

theorem splitColons_ne_nil (s : List Char) : splitColons s ≠ [] := by
  fun_cases splitColons s <;> simp

/-- A character with no mark behind it is added to the first piece. -/
theorem splitColons_cons {s : List Char} (uncut : ¬ [':', ':'] <+: c :: s) :
    splitColons (c :: s) = (splitColons s).modifyHead (c :: ·) := by
  rw [splitColons.eq_3]
  · split
    · rename_i none
      exact absurd none (splitColons_ne_nil s)
    · rename_i cut
      rw [cut]
      rfl
  · rintro rest rfl rfl
    exact uncut (List.prefix_append _ rest)

/-- A text without the mark is one piece. -/
theorem splitColons_uncut (uncut : ¬ [':', ':'] <:+: w) : splitColons w = [w] := by
  induction w with
  | nil => rfl
  | cons c rest ih =>
    rw [List.infix_cons_iff, not_or] at uncut
    rw [splitColons_cons uncut.1, ih uncut.2]
    rfl

theorem splitColons_behind {s : List Char} (uncut : ¬ [':', ':'] <:+: w)
    (last : w.getLast? ≠ some ':') :
    splitColons (w ++ ':' :: ':' :: s) = w :: splitColons s := by
  induction w with
  | nil => rfl
  | cons c rest ih =>
    rw [List.infix_cons_iff, not_or] at uncut
    have later : rest.getLast? ≠ some ':' := fun colon => last (by simp [List.getLast?_cons, colon])
    have here : ¬ [':', ':'] <+: c :: (rest ++ ':' :: ':' :: s) := by
      -- the mark would start at `c` and end in the piece or right behind it
      cases rest with
      | nil => simpa [eq_comm] using last
      | cons d rest => simpa using uncut.1
    rw [List.cons_append, splitColons_cons here, ih uncut.2 later]
    rfl

theorem splitColons_intercalate (h : Apart ps) : splitColons ([':', ':'].intercalate ps) = ps := by
  induction ps with
  | nil => exact absurd rfl h.ne_nil
  | cons p rest ih =>
    by_cases more : rest = []
    · subst more
      rw [List.intercalate_singleton]
      exact splitColons_uncut (apart_singleton.1 h)
    · obtain ⟨⟨uncut, last⟩, later⟩ := (apart_cons more).1 h
      rw [List.intercalate_cons_of_ne_nil more, List.append_assoc]
      exact (splitColons_behind uncut last).trans (congrArg (p :: ·) (ih later))

theorem intercalate_splitColons (s : List Char) : [':', ':'].intercalate (splitColons s) = s := by
  fun_induction splitColons s with
  | case1 => rfl
  | case2 rest ih => rw [List.intercalate_cons_of_ne_nil (splitColons_ne_nil rest), ih]; rfl
  | case3 c rest uncut none ih => exact absurd none (splitColons_ne_nil rest)
  | case4 c rest uncut w ws cut ih =>
    rw [cut] at ih
    rw [← ih]
    cases ws <;> simp

theorem Apart.cons_char (h : Apart (w :: ps))
    (uncut : ¬ [':', ':'] <+: c :: [':', ':'].intercalate (w :: ps)) : Apart ((c :: w) :: ps) := by
  by_cases more : ps = []
  · subst more
    rw [List.intercalate_singleton] at uncut
    rw [apart_singleton, List.infix_cons_iff, not_or]
    exact ⟨uncut, apart_singleton.1 h⟩
  · obtain ⟨⟨own, last⟩, later⟩ := (apart_cons more).1 h
    rw [List.intercalate_cons_of_ne_nil more, List.append_assoc] at uncut
    rw [apart_cons more, List.infix_cons_iff, not_or]
    refine ⟨⟨⟨fun mark => uncut ?_, own⟩, ?_⟩, later⟩
    · exact mark.trans (List.prefix_append (c :: w) _)
    · cases w with
      | nil =>
        rintro ⟨⟩
        exact uncut (List.prefix_append _ _)
      | cons d w => simpa using last

theorem apart_splitColons (s : List Char) : Apart (splitColons s) := by
  fun_induction splitColons s with
  | case1 => exact apart_singleton.2 (by decide)
  | case2 rest ih => exact (apart_cons (splitColons_ne_nil rest)).2 ⟨⟨by decide, by decide⟩, ih⟩
  | case3 c rest uncut none ih => exact absurd none (splitColons_ne_nil rest)
  | case4 c rest uncut w ws cut ih =>
    rw [cut] at ih
    refine ih.cons_char ?_
    rw [← cut, intercalate_splitColons]
    rintro ⟨more, mark⟩
    obtain ⟨colon, later⟩ := List.cons.inj mark
    exact uncut more colon.symm later.symm

/-- There is one way to cut a text into pieces that can be told apart. -/
theorem splitColons_eq_iff {s : List Char} :
    splitColons s = ps ↔ Apart ps ∧ [':', ':'].intercalate ps = s := by
  constructor
  · rintro rfl
    exact ⟨apart_splitColons s, intercalate_splitColons s⟩
  · rintro ⟨apart, rfl⟩
    exact splitColons_intercalate apart

theorem intercalate_append (some : ps ≠ []) (more : qs ≠ []) :
    [':', ':'].intercalate (ps ++ qs) =
      [':', ':'].intercalate ps ++ ':' :: ':' :: [':', ':'].intercalate qs := by
  induction ps with
  | nil => exact absurd rfl some
  | cons p rest ih =>
    by_cases last : rest = []
    · subst last
      simp [List.intercalate_cons_of_ne_nil more]
    · rw [List.cons_append, List.intercalate_cons_of_ne_nil (by simp [last]),
        List.intercalate_cons_of_ne_nil last, ih last, List.append_assoc _ _ (':' :: _)]

/-- The last piece is the end of the text. -/
theorem exists_last (s : List Char) : ∃ ps p, splitColons s = ps ++ [p] ∧ p <:+ s := by
  obtain ⟨ps, p, cut⟩ :=
    (List.eq_nil_or_concat' (splitColons s)).resolve_left (splitColons_ne_nil s)
  refine ⟨ps, p, cut, ?_⟩
  rw [← intercalate_splitColons s, cut]
  by_cases first : ps = []
  · subst first
    simp
  · rw [intercalate_append first (by simp), List.intercalate_singleton]
    exact ⟨[':', ':'].intercalate ps ++ [':', ':'], by simp⟩

/-- A piece with pieces behind it is in the text with the mark behind it. -/
theorem marked_infix (ps : List (List Char)) (p : List Char) (more : qs ≠ []) :
    p ++ [':', ':'] <:+: [':', ':'].intercalate (ps ++ p :: qs) := by
  have own : p ++ [':', ':'] <:+: [':', ':'].intercalate (p :: qs) := by
    rw [List.intercalate_cons_of_ne_nil more]
    exact (List.prefix_append _ _).isInfix
  by_cases first : ps = []
  · subst first
    exact own
  · rw [intercalate_append first (by simp)]
    refine own.trans (List.IsSuffix.isInfix ⟨[':', ':'].intercalate ps ++ [':', ':'], ?_⟩)
    simp

/-- Behind a text that does not end in a colon a `::` is a cut. -/
theorem splitColons_append {s s' : List Char} (last : s.getLast? ≠ some ':') :
    splitColons (s ++ ':' :: ':' :: s') = splitColons s ++ splitColons s' := by
  rw [splitColons_eq_iff, intercalate_append (splitColons_ne_nil s) (splitColons_ne_nil s'),
    intercalate_splitColons, intercalate_splitColons]
  refine ⟨(apart_splitColons s).append (apart_splitColons s') ?_, rfl⟩
  obtain ⟨ps, p, cut, front, split⟩ := exists_last s
  have ends := (apart_splitColons s).ends
  rw [cut, List.dropLast_concat] at ends
  rw [cut]
  refine List.forall_mem_append.2 ⟨ends, List.forall_mem_singleton.2 fun colon => last ?_⟩
  rw [← split, List.getLast?_append, colon]
  rfl

variable {t : String} {n : TypeName}

def pieces (n : TypeName) : List (List Char) :=
  n.asScope.map String.toList

theorem pieces_ne_nil (n : TypeName) : n.pieces ≠ [] := by
  simp [pieces, asScope]

theorem toList_text_pieces (n : TypeName) : n.text.toList = [':', ':'].intercalate n.pieces := by
  rw [toList_text]
  obtain ⟨path, simple⟩ := n
  induction path with
  | nil => simp [joined, pieces, asScope]
  | cons w rest ih =>
    rw [joined_cons, ih, ← List.append_assoc]
    exact (List.intercalate_cons_of_ne_nil (pieces_ne_nil ⟨rest, simple⟩)).symm

/-- A name is read from the pieces of a text without the blanks around them, and none of them may be
empty. -/
theorem ofText?_eq_some_iff :
    ofText? t = some n ↔
      (splitColons t.toList).map Text.trim = n.pieces ∧ ∀ w ∈ n.pieces, w ≠ [] := by
  have segments : (splitColons t.toList).map (fun s => String.ofList (Text.trim s)) = n.asScope ↔
      (splitColons t.toList).map Text.trim = n.pieces := by
    rw [pieces, ← (List.map_injective_iff.2 @String.toList_injective).eq_iff, List.map_map]
    simp [Function.comp_def]
  have empty : (n.asScope.any (·.isEmpty)) = false ↔ ∀ w ∈ n.pieces, w ≠ [] := by
    simp [pieces]
  unfold ofText?
  dsimp only
  rw [← segments, ← empty]
  split
  · rename_i gap
    constructor
    · rintro ⟨⟩
    · rintro ⟨same, full⟩
      rw [same, full] at gap
      cases gap
  · rename_i full
    rw [ofSegments?_eq_some_iff]
    constructor
    · intro same
      rw [same] at full
      exact ⟨same, Bool.eq_false_iff.2 full⟩
    · exact And.left

/-- Blanks keep a colon apart from a `::` behind it. -/
def StrayColon (s : List Char) : Prop :=
  ∃ front blanks back, s = front ++ ':' :: (blanks ++ ':' :: ':' :: back) ∧ blanks ≠ [] ∧
    ∀ b ∈ blanks, Text.isBlank b = true

/-- A colon is stray exactly if dropping blanks leaves it at the end of a piece that is not the
last. -/
theorem strayColon_iff {s : List Char} (full : ∀ p ∈ splitColons s, Text.trim p ≠ []) :
    StrayColon s ↔ ∃ p ∈ (splitColons s).dropLast, (Text.trim p).getLast? = some ':' := by
  constructor
  · rintro ⟨front, blanks, back, rfl, some, blank⟩
    have last : (front ++ ':' :: blanks).getLast? ≠ .some ':' := by
      intro colon
      obtain ⟨b, hb⟩ := Option.ne_none_iff_exists'.1 (mt List.getLast?_eq_none_iff.1 some)
      obtain rfl : b = ':' := by simpa [List.getLast?_cons, hb] using colon
      exact absurd (blank _ (List.mem_of_getLast? hb)) (by decide)
    obtain ⟨ps, p, cut, ends⟩ := exists_last (front ++ ':' :: blanks)
    rw [← List.cons_append, ← List.append_assoc, splitColons_append last, cut] at full ⊢
    rw [List.dropLast_append_of_ne_nil (splitColons_ne_nil back)]
    have here : p ∈ ps ++ [p] := by simp
    exact ⟨p, List.mem_append_left _ here, Text.getLast?_trim_suffix (by decide) blank ends
      (full p (List.mem_append_left _ here))⟩
  · rintro ⟨p, hp, colon⟩
    have ends : p.getLast? ≠ some ':' := (apart_splitColons s).ends p hp
    obtain ⟨front, blanks, split, -, blank⟩ := Text.exists_trim p
    obtain ⟨start, trimmed⟩ := List.getLast?_eq_some_iff.1 colon
    have some : blanks ≠ [] := by
      rintro rfl
      rw [split, List.append_nil, List.getLast?_append, colon] at ends
      exact ends rfl
    obtain ⟨ps, q, cut, -⟩ := exists_last s
    rw [cut, List.dropLast_concat] at hp
    obtain ⟨before, after, rfl⟩ := List.append_of_mem hp
    have more : after ++ [q] ≠ [] := by simp
    have inside := marked_infix before p more
    rw [← List.cons_append, ← List.append_assoc, ← cut, intercalate_splitColons] at inside
    obtain ⟨x, y, here⟩ := inside
    refine ⟨x ++ front ++ start, blanks, y, ?_, some, blank⟩
    rw [← here, split, trimmed]
    simp

theorem length_intercalate_trim (ps : List (List Char)) :
    ([':', ':'].intercalate (ps.map Text.trim)).length ≤ ([':', ':'].intercalate ps).length := by
  induction ps with
  | nil => exact Nat.le_refl 0
  | cons p rest ih =>
    have first := (Text.trim_infix p).length_le
    by_cases last : rest = []
    · subst last
      simpa using first
    · rw [List.map_cons, List.intercalate_cons_of_ne_nil (by simpa using last),
        List.intercalate_cons_of_ne_nil last]
      simp only [List.length_append]
      omega

/-- Pieces that together lose no blank lose none. -/
theorem map_trim_eq_self
    (kept : [':', ':'].intercalate (ps.map Text.trim) = [':', ':'].intercalate ps) :
    ps.map Text.trim = ps := by
  replace kept := congrArg List.length kept
  induction ps with
  | nil => rfl
  | cons p rest ih =>
    have own := Text.trim_infix p
    have first := own.length_le
    have later := length_intercalate_trim rest
    by_cases last : rest = []
    · subst last
      exact congrArg (fun p => [p]) (own.eq_of_length (by simpa using kept))
    · rw [List.map_cons, List.intercalate_cons_of_ne_nil (by simpa using last),
        List.intercalate_cons_of_ne_nil last] at kept
      simp only [List.length_append] at kept
      rw [List.map_cons, own.eq_of_length (by omega), ih (by omega)]

/-- A name that was read is read from its own text exactly if its segments can be told apart. -/
theorem ofText?_text (read : ofText? t = some n) : ofText? n.text = some n ↔ Apart n.pieces := by
  obtain ⟨trimmed, full⟩ := ofText?_eq_some_iff.1 read
  have again : n.pieces.map Text.trim = n.pieces := by
    rw [← trimmed, List.map_map]
    exact List.map_congr_left fun p _ => Text.trim_trim p
  rw [ofText?_eq_some_iff, toList_text_pieces]
  constructor
  · rintro ⟨same, -⟩
    have whole := intercalate_splitColons ([':', ':'].intercalate n.pieces)
    -- with the blanks dropped the pieces make up the same text, so there were no blanks
    have kept := map_trim_eq_self ((congrArg _ same).trans whole.symm)
    rw [← same, kept]
    exact apart_splitColons _
  · intro apart
    rw [splitColons_intercalate apart]
    exact ⟨again, full⟩

theorem apart_pieces_iff (read : ofText? t = some n) :
    Apart n.pieces ↔ ¬ StrayColon t.toList := by
  obtain ⟨trimmed, full⟩ := ofText?_eq_some_iff.1 read
  rw [← trimmed] at full ⊢
  rw [strayColon_iff fun p hp => full _ (List.mem_map_of_mem hp)]
  constructor
  · rintro apart ⟨p, hp, colon⟩
    refine apart.ends (Text.trim p) ?_ colon
    rw [← List.map_dropLast]
    exact List.mem_map_of_mem hp
  · intro closed
    have cut := apart_splitColons t.toList
    refine ⟨by simpa using cut.ne_nil, ?_, ?_⟩
    · intro w hw mark
      obtain ⟨p, hp, rfl⟩ := List.mem_map.1 hw
      exact cut.uncut p hp (mark.trans (Text.trim_infix p))
    · rw [← List.map_dropLast]
      intro w hw colon
      obtain ⟨p, hp, rfl⟩ := List.mem_map.1 hw
      exact closed ⟨p, hp, colon⟩

/-- A name read from a text is read back from its own text exactly if no colon in the text is kept
apart from a `::` by blanks alone; and two names read from such texts are told by their texts. -/
theorem ofText?_text_iff {t : String} {n : TypeName} (read : ofText? t = some n) :
    (ofText? n.text = some n ↔ ¬ StrayColon t.toList) ∧
    ∀ t' n', ofText? t' = some n' → ¬ StrayColon t.toList → ¬ StrayColon t'.toList →
      n.text = n'.text → n = n' := by
  have back {t : String} {n : TypeName} (read : ofText? t = some n) :
      ofText? n.text = some n ↔ ¬ StrayColon t.toList :=
    (ofText?_text read).trans (apart_pieces_iff read)
  refine ⟨back read, fun t' n' read' closed closed' same => ?_⟩
  have own := (back read).2 closed
  rw [same, (back read').2 closed'] at own
  exact (Option.some.inj own).symm

/-- Blanks, and single colons elsewhere, do no harm. -/
theorem spaced_name_read_back :
    ofText? " crate ::model: x:: :Person: " = some ⟨["crate", "model: x"], ":Person:"⟩ ∧
    text ⟨["crate", "model: x"], ":Person:"⟩ = "crate::model: x:::Person:" ∧
    (ofText? "crate::model: x:::Person:" = some ⟨["crate", "model: x"], ":Person:"⟩ ↔
      ¬ StrayColon " crate ::model: x:: :Person: ".toList) ∧
    ¬ StrayColon " crate ::model: x:: :Person: ".toList := by
  have read :
      ofText? " crate ::model: x:: :Person: " = some ⟨["crate", "model: x"], ":Person:"⟩ := by
    decide
  have back := (ofText?_text_iff read).1
  exact ⟨read, by decide, back, back.1 (by decide)⟩

/-- The colon behind `model` is taken for a part of the mark when the name is read from its text,
and the two names share this text. -/
theorem stray_colon_moves :
    ofText? "crate::model: ::Person" = some ⟨["crate", "model:"], "Person"⟩ ∧
    text ⟨["crate", "model:"], "Person"⟩ = "crate::model:::Person" ∧
    ofText? "crate::model:::Person" = some ⟨["crate", "model"], ":Person"⟩ ∧
    text ⟨["crate", "model"], ":Person"⟩ = "crate::model:::Person" ∧
    (⟨["crate", "model"], ":Person"⟩ : TypeName) ≠ ⟨["crate", "model:"], "Person"⟩ := by
  decide

end TypeName

end RecordViews
