import RecordViews.Selection.Properties

/-! The rules of several requests together. They can be read exactly if every pattern of every
request can, and then a member is chosen exactly if some request includes it and none excludes it:
the order of the requests does not matter. -/

namespace RecordViews

open Pattern (Node)

namespace Selection

/-- The pattern of a text, none if it is missing or cannot be read. -/
def patternsOf (text : Option String) : List Node :=
  (readPattern text).toOption.getD []

/-- Both patterns of a request can be read, as far as it has them. -/
def Readable (r : ViewRequest) : Prop :=
  readPattern r.includePattern = .ok (patternsOf r.includePattern) ∧
    readPattern r.excludePattern = .ok (patternsOf r.excludePattern)

theorem readPattern_cases (text : Option String) :
    readPattern text = .ok (patternsOf text) ∨ ∃ f, readPattern text = .error f := by
  unfold patternsOf
  cases readPattern text with
  | ok ns => exact Or.inl rfl
  | error f => exact Or.inr ⟨f, rfl⟩

/-- The name is given, or the pattern matches it. -/
def Mentions (names : List String) (text : Option String) (name : String) : Prop :=
  name ∈ names ∨ ∃ n ∈ patternsOf text, n.isMatch name = true

def Includes (r : ViewRequest) (name : String) : Prop :=
  Mentions r.includes r.includePattern name

def Excludes (r : ViewRequest) (name : String) : Prop :=
  Mentions r.excludes r.excludePattern name

def together (s : Selection) (rs : List ViewRequest) : Selection where
  includes := s.includes ++ rs.flatMap (·.includes)
  excludes := s.excludes ++ rs.flatMap (·.excludes)
  includePatterns := s.includePatterns ++ rs.flatMap (patternsOf ·.includePattern)
  excludePatterns := s.excludePatterns ++ rs.flatMap (patternsOf ·.excludePattern)

theorem add_of_readable (s : Selection) {r : ViewRequest} (h : Readable r) :
    s.add r = .ok (s.together [r]) := by
  simp [add, h.1, h.2, together, bind, Except.bind, pure, Except.pure]

theorem add_of_not_readable (s : Selection) {r : ViewRequest} (h : ¬ Readable r) :
    ∃ f, s.add r = .error f := by
  unfold add
  rcases readPattern_cases r.includePattern with hi | ⟨f, hi⟩
  · rcases readPattern_cases r.excludePattern with he | ⟨f, he⟩
    · exact absurd ⟨hi, he⟩ h
    · exact ⟨f, by simp [hi, he, bind, Except.bind]⟩
  · exact ⟨f, by simp [hi, bind, Except.bind]⟩

theorem together_cons (s : Selection) (r : ViewRequest) (rs : List ViewRequest) :
    (s.together [r]).together rs = s.together (r :: rs) := by
  simp [together]

theorem foldlM_add_of_readable (rs : List ViewRequest) (s : Selection)
    (h : ∀ r ∈ rs, Readable r) : rs.foldlM add s = .ok (s.together rs) := by
  induction rs generalizing s with
  | nil => simp [together, pure, Except.pure]
  | cons r rest ih =>
    rw [List.foldlM_cons, add_of_readable s (h r List.mem_cons_self)]
    have := ih (s.together [r]) fun r' hr' => h r' (List.mem_cons_of_mem _ hr')
    rw [together_cons] at this
    exact this

theorem foldlM_add_of_not_readable (rs : List ViewRequest) (s : Selection) {r : ViewRequest}
    (hr : r ∈ rs) (h : ¬ Readable r) : ∃ f, rs.foldlM add s = .error f := by
  induction rs generalizing s with
  | nil => simp at hr
  | cons first rest ih =>
    rw [List.foldlM_cons]
    by_cases hfirst : Readable first
    · rw [add_of_readable s hfirst]
      rcases List.mem_cons.1 hr with rfl | hr
      · exact absurd hfirst h
      · exact ih _ hr
    · obtain ⟨f, hf⟩ := add_of_not_readable s hfirst
      exact ⟨f, by rw [hf]; rfl⟩

theorem ofRequests_of_readable {rs : List ViewRequest} (h : ∀ r ∈ rs, Readable r) :
    ofRequests rs = .ok (together {} rs) :=
  foldlM_add_of_readable rs {} h

theorem ofRequests_of_not_readable {rs : List ViewRequest} {r : ViewRequest} (hr : r ∈ rs)
    (h : ¬ Readable r) : ∃ f, ofRequests rs = .error f :=
  foldlM_add_of_not_readable rs {} hr h

/-- What the requests mention together is what some request mentions. -/
theorem mentions_together_iff (rs : List ViewRequest) (names : ViewRequest → List String)
    (text : ViewRequest → Option String) (name : String) :
    ((rs.flatMap names).contains name ||
        (rs.flatMap fun r => patternsOf (text r)).any (·.isMatch name)) = true ↔
      ∃ r ∈ rs, Mentions (names r) (text r) name := by
  rw [Bool.or_eq_true, List.contains_iff_mem, List.any_eq_true]
  constructor
  · rintro (h | ⟨n, hn, h⟩)
    · obtain ⟨r, hr, h⟩ := List.mem_flatMap.1 h
      exact ⟨r, hr, Or.inl h⟩
    · obtain ⟨r, hr, hn⟩ := List.mem_flatMap.1 hn
      exact ⟨r, hr, Or.inr ⟨n, hn, h⟩⟩
  · rintro ⟨r, hr, h | ⟨n, hn, h⟩⟩
    · exact Or.inl (List.mem_flatMap.2 ⟨r, hr, h⟩)
    · exact Or.inr ⟨n, List.mem_flatMap.2 ⟨r, hr, hn⟩, h⟩

theorem accepts_together_iff (rs : List ViewRequest) (name : String) :
    (together {} rs).accepts name = true ↔
      (∃ r ∈ rs, Includes r name) ∧ ¬ ∃ r ∈ rs, Excludes r name := by
  have includes_iff : (together {} rs).includesName name = true ↔ ∃ r ∈ rs, Includes r name :=
    mentions_together_iff rs (·.includes) (·.includePattern) name
  have excludes_iff : (together {} rs).excludesName name = true ↔ ∃ r ∈ rs, Excludes r name :=
    mentions_together_iff rs (·.excludes) (·.excludePattern) name
  rw [accepts, Bool.and_eq_true, Bool.not_eq_true', includes_iff, ← Bool.not_eq_true, excludes_iff]

/-- The rules of the same requests, in any order and however often each of them comes, are read
alike and choose the same members. -/
theorem ofRequests_congr {rs rs' : List ViewRequest} (h : ∀ r, r ∈ rs ↔ r ∈ rs') :
    (ofRequests rs).toOption.map accepts = (ofRequests rs').toOption.map accepts := by
  by_cases readable : ∀ r ∈ rs, Readable r
  · rw [ofRequests_of_readable readable,
      ofRequests_of_readable fun r hr => readable r ((h r).2 hr)]
    have same : (together {} rs).accepts = (together {} rs').accepts := by
      funext name
      rw [Bool.eq_iff_iff, accepts_together_iff, accepts_together_iff]
      simp only [h]
    exact congrArg some same
  · obtain ⟨r, hr, bad⟩ : ∃ r ∈ rs, ¬ Readable r := by simpa using readable
    obtain ⟨f, hf⟩ := ofRequests_of_not_readable hr bad
    obtain ⟨f', hf'⟩ := ofRequests_of_not_readable ((h r).1 hr) bad
    rw [hf, hf']
    rfl

end Selection

/-- The members chosen are all that is asked of the rules. -/
theorem baseProperties_toOption (source : SourceType) (rs : List ViewRequest)
    (winner : ViewRequest) :
    (baseProperties source rs winner).toOption =
      ((Selection.ofRequests rs).toOption.map Selection.accepts).map fun accepts =>
        (source.members.filter fun m => accepts m.name).map fun m =>
          Property.ofMember m winner.getters winner.setters := by
  unfold baseProperties
  cases Selection.ofRequests rs <;> rfl

theorem baseProperties_congr {rs rs' : List ViewRequest} (h : ∀ r, r ∈ rs ↔ r ∈ rs')
    (source : SourceType) (winner : ViewRequest) :
    (baseProperties source rs winner).toOption = (baseProperties source rs' winner).toOption := by
  rw [baseProperties_toOption, baseProperties_toOption, Selection.ofRequests_congr h]

end RecordViews
