import RecordViews.Grammar.Items
import RecordViews.Proofs.Customising
import RecordViews.Proofs.QuotedTexts
import RecordViews.Proofs.TextLines
import RecordViews.Source.Declared
import RecordViews.View.Record

/-! Documentation on its way from a member to the getter of its property. The attributes of the
member are joined to one text, and an attribute is written for each line of this text. Reading the
attributes in front of the getter as those in front of a member shows what comes through: every
blank in front of a line does, but not a line feed at the end, nor a comment of one empty line, nor
a carriage return in front of a line feed. -/

namespace RecordViews

open Grammar

def docAttribute (text : String) : Attribute where
  path := .ofNames ["doc"]
  args := .value (some text) [stringToken text]

def docStream (texts : List String) : Stream :=
  Stream.ofTokens (texts.flatMap fun text => docLine (stringToken text))

namespace Grammar

variable {g : Nested} {rest : Stream} {unread : Option Delimiter}

theorem Stream.ofTokens_append (ts us : Tokens) :
    ofTokens (ts ++ us) = ofTokens ts ++ ofTokens us :=
  List.map_append

/-- What is in the brackets does not depend on what can be read one level down. -/
theorem group_docLine (g : Nested) (literal : String) (rest : Stream) (unread : Option Delimiter) :
    group .bracket (attributeBody g false) ⟨⟨.opening .bracket, 0⟩ :: ⟨.ident "doc", 0⟩ ::
        ⟨.punct '=' false, 0⟩ :: ⟨.literal literal, 0⟩ :: ⟨.closing .bracket, 0⟩ :: rest, unread⟩ =
      .ok (⟨false, .ofNames ["doc"], .value (Text.stringValue? literal) [.literal literal]⟩,
        ⟨rest, unread⟩) := by
  rfl

def outerTurn (g : Nested) (done : List Attribute) : Reader (List Attribute × Bool) := do
  if !(← sees (Stream.isMark "#")) then return (done, false)
  let _ ← mark "#"
  return ((← group .bracket (attributeBody g false)) :: done, true)

theorem outerTurn_mark (done : List Attribute) (s : Stream) :
    outerTurn g done ⟨⟨.punct '#' false, 0⟩ :: s, unread⟩ =
      (group .bracket (attributeBody g false) ⟨s, unread⟩ >>= fun both =>
        .ok ((both.1 :: done, true), both.2)) := by
  rfl

theorem outerTurn_doc (text : String) (texts : List String) (done : List Attribute) :
    outerTurn g done ⟨docStream (text :: texts) ++ rest, unread⟩ =
      .ok ((docAttribute text :: done, true), ⟨docStream texts ++ rest, unread⟩) := by
  have start : docStream (text :: texts) ++ rest = ⟨.punct '#' false, 0⟩ ::
      ⟨.opening .bracket, 0⟩ :: ⟨.ident "doc", 0⟩ :: ⟨.punct '=' false, 0⟩ ::
      ⟨.literal (Text.quote text), 0⟩ :: ⟨.closing .bracket, 0⟩ :: (docStream texts ++ rest) := by
    rw [docStream, List.flatMap_cons, Stream.ofTokens_append, ← docStream, List.append_assoc]
    rfl
  have read := group_docLine g (Text.quote text) (docStream texts ++ rest) unread
  rw [Text.stringValue?_quote] at read
  rw [start, outerTurn_mark, read]
  rfl

theorem outerTurns_docs (last : rest.isMark "#" = false) (texts : List String) {n : Nat}
    (enough : texts.length < n) (done : List Attribute) :
    repeatWith (outerTurn g) n done ⟨docStream texts ++ rest, unread⟩ =
      .ok ((texts.map docAttribute).reverse ++ done, ⟨rest, unread⟩) := by
  induction texts generalizing n done with
  | nil =>
    obtain ⟨m, rfl⟩ := Nat.exists_eq_succ_of_ne_zero (Nat.ne_of_gt enough)
    have stops : outerTurn g done ⟨rest, unread⟩ = .ok ((done, false), ⟨rest, unread⟩) := by
      change (if (!rest.isMark "#") = true then (pure (done, false) : Reader _) else _)
        (⟨rest, unread⟩ : Input) = _
      rw [if_pos (by rw [last]; rfl)]
      rfl
    change (outerTurn g done ⟨rest, unread⟩ >>= fun both => _) = _
    rw [stops]
    rfl
  | cons text texts ih =>
    obtain ⟨m, rfl⟩ := Nat.exists_eq_succ_of_ne_zero (Nat.ne_of_gt (Nat.zero_lt_of_lt enough))
    change (outerTurn g done ⟨docStream (text :: texts) ++ rest, unread⟩ >>= fun both => _) = _
    rw [outerTurn_doc]
    change repeatWith (outerTurn g) m (docAttribute text :: done)
      ⟨docStream texts ++ rest, unread⟩ = _
    rw [ih (Nat.lt_of_succ_lt_succ enough), List.map_cons, List.reverse_cons, List.append_assoc]
    rfl

theorem docStream_length (texts : List String) : texts.length ≤ (docStream texts).length := by
  induction texts with
  | nil => exact Nat.le_refl 0
  | cons text texts ih =>
    rw [docStream, List.flatMap_cons, Stream.ofTokens_append, ← docStream, List.length_append,
      List.length_cons]
    have line : 1 ≤ (Stream.ofTokens (docLine (stringToken text))).length := by
      change 1 ≤ 6
      decide
    omega

/-- The attributes that documentation is written as are read again, and nothing else is. -/
theorem outerAttributes_docs (last : rest.isMark "#" = false) (texts : List String) :
    nested outerAttributes ⟨docStream texts ++ rest, unread⟩ =
      .ok (texts.map docAttribute, ⟨rest, unread⟩) := by
  let g := Nested.level (4 * (docStream texts ++ rest).length + 16)
  have enough : texts.length < (docStream texts ++ rest).length + 2 := by
    have := docStream_length texts
    rw [List.length_append]
    omega
  change (repeatWith (outerTurn g) _ [] ⟨docStream texts ++ rest, unread⟩ >>= fun both => _) = _
  rw [outerTurns_docs last texts enough []]
  change Except.ok (((texts.map docAttribute).reverse ++ []).reverse, _) = _
  rw [List.append_nil, List.reverse_reverse]

end Grammar

/-- The blank in front of a line is taken off again, and only that one. -/
theorem docLine?_docAttribute (line : String) :
    docLine? (docAttribute (if line.isEmpty then "" else " " ++ line)) = some line := by
  by_cases none : line.isEmpty = true
  · rw [if_pos none, String.isEmpty_iff.1 none]
    rfl
  · have blank : (" " ++ line).toList = ' ' :: line.toList := by
      rw [String.toList_append]
      rfl
    rw [if_neg none]
    simp [docLine?, docAttribute, Path.single?, Path.ofNames, blank]

theorem docComment?_docText (text : String) :
    docComment? ((docText text).map docAttribute) =
      if Text.lines text = [] then none else some ("\n".intercalate (Text.lines text)) := by
  have read : ((docText text).map docAttribute).filterMap docLine? = Text.lines text := by
    rw [docText, List.map_map, List.filterMap_map]
    exact (List.filterMap_congr fun line _ => docLine?_docAttribute line).trans
      (List.filterMap_some)
  simp only [docComment?, read, List.isEmpty_iff]

/-- Documentation is read as it was written exactly if it consists of lines with single line feeds
between them. -/
theorem docComment?_read_iff (comment : Option String) :
    docComment? ((comment.elim [] docText).map docAttribute) = comment ↔
      ∀ text, comment = some text → Text.Lined text := by
  cases comment with
  | none => exact iff_of_true rfl nofun
  | some text =>
    simp only [Option.elim_some, Option.some.injEq, forall_eq']
    rw [docComment?_docText, ← Text.intercalate_lines_iff]
    split
    · rename_i none
      exact iff_of_false nofun fun some => some.1 none
    · rename_i some
      simp [some]

namespace GeneratedRecord

/-- A getter is written behind the documentation of its property. -/
theorem getterFunction_tokens {v : View} {s : Slot} {f : GeneratedFunction}
    (made : getterFunction v s = .ok [f]) :
    ∃ code, f.tokens = docTokens s.property.comment ++ code ∧
      (Stream.ofTokens code).isMark "#" = false := by
  unfold getterFunction at made
  split at made
  · cases made
  · obtain ⟨body, read, made⟩ := bind_ok_iff.1 made
    obtain rfl := List.singleton_injective (Except.ok.inj made)
    have head (f : GeneratedFunction) (params result code : Tokens) :
        (Stream.ofTokens (f.header params result ++ code)).isMark "#" = false := by
      cases h : f.access <;> simp [GeneratedFunction.header, h, Access.tokens] <;> rfl
    unfold getterBody at read
    split at read
    · obtain rfl := Except.ok.inj read
      refine ⟨_, List.append_assoc .., head ..⟩
    · obtain ⟨value, -, rfl⟩ := map_ok_iff.1 read
      refine ⟨_, List.append_assoc .., head ..⟩

/-- The attributes in front of the getter of a property that takes its documentation over can be
read, and document what the member's attributes do exactly if this is lines with single line feeds
between them. -/
theorem getter_documented_iff {v : View} {s : Slot} {f : GeneratedFunction} {as : List Attribute}
    (made : getterFunction v s = .ok [f]) (inherited : s.property.comment = docComment? as) :
    ∃ ds code, nested outerAttributes ⟨Stream.ofTokens f.tokens, none⟩ = .ok (ds, ⟨code, none⟩) ∧
      (docComment? ds = docComment? as ↔
        ∀ text, docComment? as = some text → Text.Lined text) := by
  obtain ⟨code, tokens, last⟩ := getterFunction_tokens made
  refine ⟨_, Stream.ofTokens code, ?_, docComment?_read_iff (docComment? as)⟩
  rw [tokens, Stream.ofTokens_append, inherited]
  exact outerAttributes_docs last _

end GeneratedRecord

def documentedName (texts : List String) : Slot where
  property := .ofMember
    (.ofField ⟨texts.map docAttribute, .everywhere, "name", .path (.ofNames ["String"])⟩)
    .everywhere .none
  names := ⟨"name", "name", "set_name"⟩

/-- Empty lines in between and further blanks in front are kept. -/
theorem inner_lines_kept :
    docComment? ([" Full name.", "", "  As on the card."].map docAttribute) =
        some "Full name.\n\n As on the card." ∧
      ∃ f, GeneratedRecord.getterFunction default
          (documentedName [" Full name.", "", "  As on the card."]) = .ok [f] ∧
        ∃ ds code, nested outerAttributes ⟨Stream.ofTokens f.tokens, none⟩ =
            .ok (ds, ⟨code, none⟩) ∧
          docComment? ds = some "Full name.\n\n As on the card." := by
  have read : docComment? ([" Full name.", "", "  As on the card."].map docAttribute) =
      some "Full name.\n\n As on the card." := by decide
  obtain ⟨f, made⟩ : ∃ f, GeneratedRecord.getterFunction default
      (documentedName [" Full name.", "", "  As on the card."]) = .ok [f] := ⟨_, rfl⟩
  have inherited : (documentedName [" Full name.", "", "  As on the card."]).property.comment =
      docComment? ([" Full name.", "", "  As on the card."].map docAttribute) := rfl
  obtain ⟨ds, code, attributes, same⟩ := GeneratedRecord.getter_documented_iff made inherited
  refine ⟨read, f, made, ds, code, attributes, ?_⟩
  rw [read] at same
  refine same.2 fun text h => ?_
  obtain rfl := Option.some.inj h
  have unreturned : '\r' ∉ "Full name.\n\n As on the card.".toList := by decide
  exact ⟨by decide, by decide, fun inside => unreturned (inside.subset List.mem_cons_self)⟩

/-- An empty line at the end is not. -/
theorem last_line_lost :
    docComment? ([" Full name.", ""].map docAttribute) = some "Full name.\n" ∧
      ∃ f, GeneratedRecord.getterFunction default (documentedName [" Full name.", ""]) =
          .ok [f] ∧
        ∃ ds code, nested outerAttributes ⟨Stream.ofTokens f.tokens, none⟩ =
            .ok (ds, ⟨code, none⟩) ∧
          docComment? ds = some "Full name." := by
  obtain ⟨f, made⟩ : ∃ f, GeneratedRecord.getterFunction default
      (documentedName [" Full name.", ""]) = .ok [f] := ⟨_, rfl⟩
  obtain ⟨code, tokens, last⟩ := GeneratedRecord.getterFunction_tokens made
  have comment : (documentedName [" Full name.", ""]).property.comment = some "Full name.\n" := by
    decide
  have written : docText "Full name.\n" = [" Full name."] := by decide
  refine ⟨by decide, f, made, [" Full name."].map docAttribute, Stream.ofTokens code, ?_, by decide⟩
  rw [tokens, comment, Stream.ofTokens_append, docTokens, Option.elim_some, written]
  exact outerAttributes_docs last [" Full name."]

end RecordViews
