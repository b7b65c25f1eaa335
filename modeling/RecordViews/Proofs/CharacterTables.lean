import RecordViews.Proofs.CodePointSets
import RecordViews.Text.ConstantCase

/-! What the tables of characters hold. A table is a text, and a text is read by folds that the
kernel cannot run on thousands of characters. So each reader is put beside a recursion over the
characters that gives the numbers one by one; by these the tables are looked through. -/

namespace RecordViews.Text

def withDigit (pending : Option Nat) (c : Char) : Nat :=
  pending.getD 0 * 10 + (c.toNat - 48)

/-- The numbers in the characters; `pending` is the one that has been read in part. -/
def readNumbers : Option Nat → List Char → List Nat
  | pending, [] => pending.toList
  | pending, c :: rest =>
    if c.isDigit then readNumbers (some (withDigit pending c)) rest
    else pending.toList ++ readNumbers none rest

def numberStep (acc : List Nat × Option Nat) (c : Char) : List Nat × Option Nat :=
  if c.isDigit then (acc.1, some (withDigit acc.2 c))
  else (acc.2.elim acc.1 (· :: acc.1), none)

theorem foldl_numberStep (l : List Char) (done : List Nat) (pending : Option Nat) :
    let acc := l.foldl numberStep (done, pending)
    (acc.2.elim acc.1 (· :: acc.1)).reverse = done.reverse ++ readNumbers pending l := by
  induction l generalizing done pending with
  | nil => cases pending <;> simp [readNumbers]
  | cons c rest ih =>
    rw [List.foldl_cons, readNumbers, numberStep]
    split
    · exact ih done _
    · refine (ih _ none).trans ?_
      cases pending <;> simp

theorem numbers_eq (text : String) : numbers text = readNumbers none text.toList :=
  foldl_numberStep text.toList [] none

def numeralStep (c : Char) (s : Option Bool × Bool) : Id (ForInStep (Option Bool × Bool)) :=
  if c = '_' then
    if (!s.2) = true then pure (.done (some false, s.2)) else pure (.yield (none, false))
  else if c.isDigit = true then pure (.yield (none, true)) else pure (.done (some false, s.2))

theorem digit_ne {c : Char} (digit : c.isDigit = true) : c ≠ '_' := by
  rintro rfl
  cases digit

theorem forIn_numeralStep {ds : List Char} (digits : ∀ c ∈ ds, c.isDigit = true) (flag : Bool) :
    forIn ds (none, flag) numeralStep = (pure (none, flag || !ds.isEmpty) : Id _) := by
  induction ds generalizing flag with
  | nil => simp
  | cons c rest ih =>
    obtain ⟨digit, digits⟩ := List.forall_mem_cons.1 digits
    rw [List.forIn_cons, numeralStep, if_neg (digit_ne digit), if_pos digit]
    refine (ih digits true).trans ?_
    simp

theorem isNat_digits {ds : List Char} (digits : ∀ c ∈ ds, c.isDigit = true) :
    (String.ofList ds).isNat = !ds.isEmpty := by
  unfold String.isNat String.Slice.isNat
  simp only [String.Slice.forIn_eq_forIn_toList, String.copy_toSlice, String.toList_ofList]
  have scan := forIn_numeralStep digits false
  unfold numeralStep at scan
  rw [scan]
  rfl

theorem toNat?_digits {ds : List Char} (digits : ∀ c ∈ ds, c.isDigit = true) :
    (String.ofList ds).toNat? = ds.foldl (fun pending c => some (withDigit pending c)) none := by
  have value (more : List Char) (digits : ∀ c ∈ more, c.isDigit = true) (n : Nat) :
      more.foldl (fun pending c => some (withDigit pending c)) (some n) =
        some (more.foldl (fun n c => if c = '_' then n else n * 10 + (c.toNat - '0'.toNat)) n) := by
    induction more generalizing n with
    | nil => rfl
    | cons c rest ih =>
      obtain ⟨digit, digits⟩ := List.forall_mem_cons.1 digits
      rw [List.foldl_cons, List.foldl_cons, if_neg (digit_ne digit)]
      exact ih digits _
  have whole : (String.ofList ds).toNat? = if (String.ofList ds).isNat then
      some (ds.foldl (fun n c => if c = '_' then n else n * 10 + (c.toNat - '0'.toNat)) 0)
      else none := by
    rw [String.toNat?, String.Slice.toNat?, String.Slice.foldl_eq_foldl_toList,
      String.copy_toSlice, String.toList_ofList]
    rfl
  rw [whole, isNat_digits digits]
  cases ds with
  | nil => rfl
  | cons c rest =>
    exact (if_pos rfl).trans (value (c :: rest) digits 0).symm

/-- The runs in the characters behind a letter; `pending` is how much of the size has been read. -/
def readSizes : Nat → Char → Option Nat → List Char → List (Char × Nat × Nat)
  | start, letter, pending, [] => [(letter, start, start + pending.getD 1 - 1)]
  | start, letter, pending, c :: rest =>
    if c.isDigit then readSizes start letter (some (withDigit pending c)) rest
    else (letter, start, start + pending.getD 1 - 1) ::
      readSizes (start + pending.getD 1) c none rest

theorem readSizes_digits {ds rest : List Char} (digits : ∀ c ∈ ds, c.isDigit = true) (start : Nat)
    (letter : Char) (pending : Option Nat) :
    readSizes start letter pending (ds ++ rest) =
      readSizes start letter (ds.foldl (fun pending c => some (withDigit pending c)) pending)
        rest := by
  induction ds generalizing pending with
  | nil => rfl
  | cons c more ih =>
    obtain ⟨digit, digits⟩ := List.forall_mem_cons.1 digits
    rw [List.cons_append, readSizes, if_pos digit, ih digits]
    rfl

theorem readRuns_go_eq {fuel start : Nat} {letter : Char} {rest : List Char}
    (enough : rest.length < fuel) :
    readRuns.go fuel start (letter :: rest) = readSizes start letter none rest := by
  induction fuel generalizing start letter rest with
  | zero => omega
  | succ fuel ih =>
    have digits : ∀ c ∈ rest.takeWhile Char.isDigit, c.isDigit = true :=
      List.all_eq_true.1 List.all_takeWhile
    have size : readSizes start letter none rest =
        readSizes start letter none (rest.takeWhile Char.isDigit ++ rest.dropWhile Char.isDigit) :=
      by rw [List.takeWhile_append_dropWhile]
    rw [readRuns.go, toNat?_digits digits, size, readSizes_digits digits]
    cases behind : rest.dropWhile Char.isDigit with
    | nil => cases fuel <;> rfl
    | cons c more =>
      have letter_ : ¬ c.isDigit = true := by
        have := List.head?_dropWhile_not Char.isDigit rest
        simpa [behind] using this
      have shorter : (c :: more).length ≤ rest.length :=
        behind ▸ (List.dropWhile_suffix Char.isDigit).length_le
      rw [readSizes, if_neg letter_, ← ih (by simp at shorter; omega)]

def runsIn : List Char → List (Char × Nat × Nat)
  | [] => []
  | letter :: rest => readSizes 0 letter none rest

theorem readRuns_eq (text : String) : readRuns text = runsIn text.toList := by
  unfold readRuns
  rw [← String.length_toList]
  cases text.toList with
  | nil => rfl
  | cons letter rest => exact readRuns_go_eq (by simp)

/-- By this the characters of a table are taken out of its lines one after the other. -/
theorem toList_join_cons (s : String) (rest : List String) :
    (String.join (s :: rest)).toList = s.toList ++ (String.join rest).toList := by
  rw [String.toList_join, String.toList_join, List.flatMap_cons]

namespace CodePoints

variable {n : Nat}

theorem contains_points {ks : List Category} (h : (Category.points ks).contains n = true) :
    ∃ r ∈ Category.runs, r.1 ∈ ks ∧ r.2.1 ≤ n ∧ n ≤ r.2.2 := by
  rw [contains_iff, Category.points] at h
  generalize Category.runs = runs at h ⊢
  obtain ⟨_, made, held⟩ := within_join h
  obtain ⟨r, kept, rfl⟩ := List.mem_map.1 made
  obtain ⟨run, kind⟩ := List.mem_filter.1 kept
  exact ⟨r, run, by simpa using kind, held⟩

end CodePoints

/-- Blanks, and the marks that stand in front of the first word of a text, in front of a comment and
in a raw identifier; the last ones first. -/
def separators : List (Nat × Nat) :=
  [(65279, 65279), (12288, 12288), (8287, 8287), (8239, 8239), (8232, 8233), (8206, 8207),
   (8192, 8202), (5760, 5760), (160, 160), (133, 133), (47, 47), (35, 35), (32, 32), (9, 13)]

/-- None of the ranges, the last ones first, meets the one from `low` to `high`. -/
def apartFrom : List (Nat × Nat) → Nat → Nat → Bool
  | [], _, _ => true
  | r :: rest, low, high => Nat.blt r.2 low || (Nat.blt high r.1 && apartFrom rest low high)

def apart (low high : Nat) : Bool :=
  apartFrom separators low high

def Solid (c : Char) : Prop :=
  ¬ CodePoints.Within separators c.toNat

instance (c : Char) : Decidable (Solid c) :=
  inferInstanceAs (Decidable (¬ CodePoints.Within separators c.toNat))

section Apart

open CodePoints (Within)

variable {low high n : Nat}

theorem not_within_of_apartFrom {rs : List (Nat × Nat)} (falling : rs.Pairwise (·.2 ≥ ·.2))
    (h : apartFrom rs low high = true) (start : low ≤ n) (stop : n ≤ high) : ¬ Within rs n := by
  induction rs with
  | nil => simp [Within]
  | cons r rest ih =>
    obtain ⟨first, falling⟩ := List.pairwise_cons.1 falling
    simp only [apartFrom, Bool.or_eq_true, Bool.and_eq_true, Nat.blt_eq] at h
    rw [CodePoints.within_cons]
    rcases h with above | ⟨below, h⟩
    · -- so it is above all of them
      rintro (held | ⟨q, inside, held⟩)
      · omega
      · have := first q inside
        omega
    · rintro (held | inside)
      · omega
      · exact ih falling h inside

theorem not_within_of_apart (h : apart low high = true) (start : low ≤ n) (stop : n ≤ high) :
    ¬ Within separators n :=
  not_within_of_apartFrom (by decide) h start stop

theorem solid_ofNat (h : ¬ Within separators n) : Solid (Char.ofNat n) := by
  rw [Solid]
  by_cases valid : n.isValidChar
  · have same : (Char.ofNat n).toNat = n := by
      rw [Char.ofNat, dif_pos valid]
      rfl
    rwa [same]
  · rw [Char.ofNat, dif_neg valid]
    exact not_within_of_apart (by decide : apart 0 0 = true) (Nat.le_refl 0) (Nat.le_refl 0)

end Apart

def Category.isWordy : Category → Bool
  | .upperLetter | .lowerLetter | .titleLetter | .modifierLetter | .otherLetter | .decimalDigit
  | .letterNumber | .otherNumber => true
  | _ => false

set_option maxRecDepth 4000 in
theorem runs_apart :
    Category.runs.all (fun r => apart r.2.1 r.2.2 || !r.1.isWordy) = true := by
  unfold Category.runs Category.runText
  rw [readRuns_eq]
  repeat rewrite [toList_join_cons, String.toList_ofList]
  decide +kernel

theorem otherAlphabetic_apart : otherAlphabetic.ranges.all (fun r => apart r.1 r.2) = true := by
  unfold otherAlphabetic CodePoints.ofGaps
  rw [numbers_eq]
  repeat rewrite [toList_join_cons, String.toList_ofList]
  decide +kernel

theorem upperRuns_apart :
    upperRuns.all (fun r => apart r.image (r.image + (r.count - 1) * r.stride)) = true := by
  unfold upperRuns
  rw [numbers_eq]
  repeat rewrite [toList_join_cons, String.toList_ofList]
  decide +kernel

theorem longUpper_apart : longUpper.all (fun e => e.2.all fun n => apart n n) = true := by
  unfold longUpper
  rw [numbers_eq]
  repeat rewrite [toList_join_cons, String.toList_ofList]
  decide +kernel

theorem blanks_within : blanks.ranges.all (fun r =>
    separators.any fun q => q.1 ≤ r.1 && r.2 ≤ q.2) = true := by
  unfold blanks CodePoints.ofGaps
  rw [numbers_eq, String.toList_ofList]
  decide +kernel

section Solid

open CodePoints (Within)

variable {c : Char} {n : Nat}

theorem points_apart {ks : List Category} (wordy : ∀ k ∈ ks, k.isWordy = true)
    (h : (Category.points ks).contains n = true) : ¬ Within separators n := by
  obtain ⟨r, run, kind, low, high⟩ := CodePoints.contains_points h
  have checked := List.all_eq_true.1 runs_apart r run
  rw [wordy r.1 kind] at checked
  exact not_within_of_apart (by simpa using checked) low high

theorem otherAlphabetic_not_within (h : otherAlphabetic.contains n = true) :
    ¬ Within separators n := by
  obtain ⟨r, inside, low, high⟩ := CodePoints.contains_iff.1 h
  exact not_within_of_apart (List.all_eq_true.1 otherAlphabetic_apart r inside) low high

theorem Solid.ne {d : Char} (solid : Solid c) (mark : ¬ Solid d) : c ≠ d := by
  rintro rfl
  exact mark solid

theorem blanks_not_solid (h : blanks.contains n = true) : Within separators n :=
  CodePoints.within_of_covered blanks_within (CodePoints.contains_iff.1 h)

theorem Solid.not_spacing (solid : Solid c) : isSpacing c = false := by
  rw [← Bool.not_eq_true]
  refine fun spacing => solid ?_
  simp only [isSpacing, isBlank, Bool.or_eq_true, beq_iff_eq] at spacing
  rcases spacing with (blank | mark) | mark
  · split at blank
    · simp only [Bool.or_eq_true, Bool.and_eq_true, beq_iff_eq, decide_eq_true_eq] at blank
      rcases blank with rfl | ⟨low, high⟩
      · decide
      · exact ⟨(9, 13), by decide, low, high⟩
    · exact blanks_not_solid blank
  · rw [mark]
    decide
  · rw [mark]
    decide

/-- What is checked number by number holds of every ASCII character. -/
theorem of_ascii {P : Char → Prop} (checked : ∀ n < 128, P (Char.ofNat n))
    (narrow : c.toNat < 128) : P c := by
  have held := checked c.toNat narrow
  rwa [Char.ofNat_toNat] at held

theorem solid_of_ascii (narrow : c.toNat < 128) :
    c.isAlphanum = true → Solid c ∧ Solid c.toUpper :=
  of_ascii (P := fun c => c.isAlphanum = true → Solid c ∧ Solid c.toUpper) (by decide) narrow

/-- Letters and digits are no separators. -/
theorem solid_of_alphanumeric (h : isAlphanumeric c = true) : Solid c := by
  unfold isAlphanumeric at h
  split at h
  · rename_i narrow
    exact (solid_of_ascii narrow h).1
  · rw [Bool.or_eq_true] at h
    rcases h with h | h
    · rcases CodePoints.contains_union_iff.1 h with h | h
      · rcases CodePoints.contains_union_iff.1 h with h | h
        · exact points_apart (by decide) h
        · exact points_apart (by decide) h
      · exact otherAlphabetic_not_within h
    · exact points_apart (by decide) h

theorem CaseRun.image?_bounds {r : CaseRun} {k : Nat} (h : r.image? n = some k) :
    r.image ≤ k ∧ k ≤ r.image + (r.count - 1) * r.stride := by
  unfold CaseRun.image? at h
  split at h
  · rename_i held
    simp only [Bool.and_eq_true, decide_eq_true_eq] at held
    obtain rfl := Option.some.inj h
    omega
  · cases h

/-- And so are their forms in upper case. -/
theorem solid_upper (h : isAlphanumeric c = true) : ∀ d ∈ upper c, Solid d := by
  unfold upper
  split
  · rename_i narrow
    rw [isAlphanumeric, if_pos narrow] at h
    exact List.forall_mem_singleton.2 (solid_of_ascii narrow h).2
  · split
    · rename_i images found
      intro d hd
      obtain ⟨n, inside, rfl⟩ := List.mem_map.1 hd
      obtain ⟨before, after, entry, -⟩ := List.lookup_eq_some_iff.1 found
      have checked := List.all_eq_true.1 longUpper_apart (c.toNat, images) (by simp [entry])
      exact solid_ofNat (not_within_of_apart (List.all_eq_true.1 checked n inside)
        (Nat.le_refl _) (Nat.le_refl _))
    · refine List.forall_mem_singleton.2 (solid_ofNat ?_)
      cases found : upperRuns.findSome? (·.image? c.toNat) with
      | none => exact solid_of_alphanumeric h
      | some k =>
        obtain ⟨r, inside, image⟩ := List.exists_of_findSome?_eq_some found
        obtain ⟨low, high⟩ := CaseRun.image?_bounds image
        exact not_within_of_apart (List.all_eq_true.1 upperRuns_apart r inside) low high

end Solid

section Identifiers

open CodePoints (Ordered last)

/-- The exceptions from what an identifier may go on with are exceptions from what it may start
with. -/
theorem exceptions_within :
    let starts := CodePoints.ofGaps
      "890 1 2744 1 127 1 8679 2 52161 6 406 2 116 1 1 1 1 1 1 1 1 1 1 1 1 1 1 1 287 2"
    let continues := CodePoints.ofGaps
      "890 1 11552 2 52161 6 406 2 116 1 1 1 1 1 1 1 1 1 1 1 1 1 1 1"
    starts.Ordered ∧ continues.Ordered ∧
      continues.ranges.all (fun r => starts.ranges.any fun q => q.1 ≤ r.1 && r.2 ≤ q.2) = true := by
  unfold CodePoints.ofGaps
  rw [numbers_eq, numbers_eq, String.toList_ofList, String.toList_ofList]
  decide +kernel

theorem toNat_le_last (c : Char) : c.toNat ≤ last := by
  have := c.valid
  simp only [UInt32.isValidChar, Nat.isValidChar] at this
  unfold last Char.toNat
  omega

/-- What an identifier may start with it may go on with, in any script. -/
theorem continue_of_start {c : Char} (h : isIdentifierStart c = true) :
    isIdentifierContinue c = true := by
  unfold isIdentifierStart at h
  unfold isIdentifierContinue
  by_cases narrow : c.toNat < 128
  · rw [if_pos narrow] at h ⊢
    simp only [Bool.or_eq_true, Char.isAlphanum] at h ⊢
    grind
  · rw [if_neg narrow] at h ⊢
    obtain ⟨starts, continues, covered⟩ := exceptions_within
    have valid := toNat_le_last c
    have ordered : nameStart.Ordered := CodePoints.ordered_diff
    have ordered' : nameContinue.Ordered := CodePoints.ordered_union
    rw [CodePoints.containsChar, identifierStart,
      CodePoints.contains_diff_iff ordered starts valid] at h
    rw [CodePoints.containsChar, identifierContinue,
      CodePoints.contains_diff_iff ordered' continues valid]
    refine ⟨?_, fun exception => h.2 ?_⟩
    · rw [nameContinue, CodePoints.contains_union_iff, CodePoints.contains_union_iff]
      exact Or.inl (Or.inl h.1)
    · rw [CodePoints.contains_iff] at exception ⊢
      exact CodePoints.within_of_covered covered exception

end Identifiers

end RecordViews.Text
