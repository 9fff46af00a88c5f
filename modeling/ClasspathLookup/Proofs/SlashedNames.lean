import ClasspathLookup.Proofs.PackagePatterns

/-!
# Names and their slashed form

The slashed form of a name can be read back unless a segment of the name holds a slash itself. Which
texts are slashed forms can be told from their slashes: none at either end and no two in a row. So
the three ways to make a name agree wherever the segments hold no slash, also where they fail.
-/

namespace ClasspathLookup

namespace Slash

/-- A segment stands behind the start or a slash, and before a slash or the end. -/
theorem eq_of_mem_split {text segment : String} (h : segment ∈ split text) :
    text = segment ∨ (∃ rest, text = segment ++ "/" ++ rest) ∨
      (∃ front, text = front ++ "/" ++ segment) ∨
      ∃ front rest, text = front ++ "/" ++ segment ++ "/" ++ rest := by
  obtain ⟨front, back, hsplit⟩ := List.append_of_mem h
  have htext : text = join (front ++ segment :: back) := by rw [← hsplit, join_split]
  cases front with
  | nil =>
    cases back with
    | nil => exact Or.inl htext
    | cons next back => exact Or.inr (Or.inl ⟨join (next :: back), htext⟩)
  | cons first front =>
    rw [join_append (List.cons_ne_nil _ _) (List.cons_ne_nil _ _)] at htext
    cases back with
    | nil => exact Or.inr (Or.inr (Or.inl ⟨join (first :: front), htext⟩))
    | cons next back =>
      refine Or.inr (Or.inr (Or.inr ⟨join (first :: front), join (next :: back), ?_⟩))
      rw [htext, join]
      simp only [String.append_assoc]

/-- An empty segment shows as a slash with nothing, or with another slash, on one side. -/
theorem empty_mem_split_iff {text : String} : "" ∈ split text ↔
    text = "" ∨ ['/'] <+: text.toList ∨ ['/'] <:+ text.toList ∨ ['/', '/'] <:+: text.toList := by
  have hempty : "" ∈ split "" := List.mem_cons_self
  constructor
  · intro h
    rcases eq_of_mem_split h with rfl | ⟨rest, rfl⟩ | ⟨front, rfl⟩ | ⟨front, rest, rfl⟩
    · exact Or.inl rfl
    · exact Or.inr (Or.inl ⟨rest.toList, by simp⟩)
    · exact Or.inr (Or.inr (Or.inl ⟨front.toList, by simp⟩))
    · exact Or.inr (Or.inr (Or.inr ⟨front.toList, rest.toList, by simp⟩))
  · rintro (rfl | ⟨rest, hrest⟩ | ⟨front, hfront⟩ | ⟨front, rest, hslashes⟩)
    · exact hempty
    · have htext : text = "" ++ "/" ++ String.ofList rest := by
        rw [← String.toList_inj, ← hrest]
        simp
      rw [htext, split_append]
      exact List.mem_append_left _ hempty
    · have htext : text = String.ofList front ++ "/" ++ "" := by
        rw [← String.toList_inj, ← hfront]
        simp
      rw [htext, split_append]
      exact List.mem_append_right _ hempty
    · have htext : text = String.ofList front ++ "/" ++ ("" ++ "/" ++ String.ofList rest) := by
        rw [← String.toList_inj, ← hslashes]
        simp
      rw [htext, split_append, split_append]
      exact List.mem_append_right _ (List.mem_append_left _ hempty)

end Slash

namespace TypeName

variable {package segments : List String} {simple text : String} {name : TypeName}

theorem ofParts?_eq_some_iff :
    ofParts? package simple = some name ↔ name.package = package ∧ name.simple = simple := by
  constructor
  · intro h
    unfold ofParts? at h
    split at h
    · rw [← Option.some.inj h]
      exact ⟨rfl, rfl⟩
    · cases h
  · rintro ⟨rfl, rfl⟩
    exact ofParts?_self name

theorem ofParts?_eq_none_iff : ofParts? package simple = none ↔ "" ∈ package ++ [simple] := by
  unfold ofParts?
  rw [dite_eq_right_iff, List.mem_append, List.mem_singleton]
  constructor
  · intro h
    by_contra hnot
    rw [not_or] at hnot
    have hvalid : (∀ segment ∈ package, segment ≠ "") ∧ simple ≠ "" :=
      ⟨fun segment hsegment hempty => hnot.1 (hempty ▸ hsegment), Ne.symm hnot.2⟩
    cases h hvalid
  · rintro (hmem | hempty) hvalid
    · exact absurd rfl (hvalid.1 "" hmem)
    · exact absurd hempty.symm hvalid.2

/-- The last segment is the simple name. -/
theorem ofSegments?_concat (package : List String) (simple : String) :
    ofSegments? (package ++ [simple]) = ofParts? package simple := by
  simp [ofSegments?]

theorem ofSegments?_eq_some_iff : ofSegments? segments = some name ↔ name.segments = segments := by
  cases segments using List.reverseRecOn with
  | nil => simp [ofSegments?, TypeName.segments]
  | append_singleton package simple =>
    rw [ofSegments?_concat, ofParts?_eq_some_iff, TypeName.segments, List.append_singleton_inj]

theorem ofSegments?_eq_none_iff : ofSegments? segments = none ↔ segments = [] ∨ "" ∈ segments := by
  cases segments using List.reverseRecOn with
  | nil => simp [ofSegments?]
  | append_singleton package simple =>
    rw [ofSegments?_concat, ofParts?_eq_none_iff, or_iff_right (by simp)]

theorem parse?_eq_none_iff : parse? text = none ↔
    text = "" ∨ ['/'] <+: text.toList ∨ ['/'] <:+ text.toList ∨ ['/', '/'] <:+: text.toList := by
  rw [parse?, ofSegments?_eq_none_iff, or_iff_right (Slash.split_ne_nil text),
    Slash.empty_mem_split_iff]

theorem path_of_parse? (h : parse? text = some name) : name.path = text := by
  rw [path, ofSegments?_eq_some_iff.1 h, Slash.join_split]

/-- Reading a path gives the segments between its slashes. -/
theorem parse?_path_eq_some_iff :
    parse? name.path = some name ↔ ∀ segment ∈ name.segments, '/' ∉ segment.toList := by
  constructor
  · intro h segment hsegment
    rw [ofSegments?_eq_some_iff.1 h] at hsegment
    exact Slash.slash_not_mem_of_mem_split hsegment
  · intro h
    rw [parse?, path, Slash.split_join (by simp [TypeName.segments]) h, ofSegments?_segments]

theorem path_eq_ite (name : TypeName) : name.path =
    if name.package = [] then name.simple else name.packagePath ++ "/" ++ name.simple := by
  rw [path_eq_below, Slash.below]
  by_cases hpackage : name.package = []
  · rw [if_pos hpackage, if_pos (by rw [packagePath, hpackage, Slash.join])]
  · rw [if_neg hpackage, if_neg (packagePath_ne_empty hpackage), if_neg name.simple_nonempty]

theorem parse?_join (h : ∀ segment ∈ package ++ [simple], '/' ∉ segment.toList) :
    parse? (Slash.join (package ++ [simple])) = ofParts? package simple := by
  rw [parse?, Slash.split_join (by simp) h, ofSegments?_concat]

/-- A text is read unless it has an empty segment, and then as a name with this slashed form. The
form of a name, its package and its simple name with a slash between, is read back as the name
exactly when no segment of it holds a slash. Without slashes in the segments all three ways to make
a name give the same one, or none. -/
theorem parse?_inverts_path :
    (∀ text, parse? text = none ↔ text = "" ∨ ['/'] <+: text.toList ∨ ['/'] <:+ text.toList ∨
      ['/', '/'] <:+: text.toList) ∧
    (∀ text name, parse? text = some name → name.path = text) ∧
    (∀ name : TypeName, parse? name.path = some name ↔
      ∀ segment ∈ name.segments, '/' ∉ segment.toList) ∧
    (∀ name : TypeName, name.path =
      if name.package = [] then name.simple else name.packagePath ++ "/" ++ name.simple) ∧
    ∀ package simple, (∀ segment ∈ package ++ [simple], '/' ∉ segment.toList) →
      ofSegments? (package ++ [simple]) = ofParts? package simple ∧
      parse? (Slash.join (package ++ [simple])) = ofParts? package simple := by
  refine ⟨fun text => parse?_eq_none_iff, fun text name => path_of_parse?,
    fun name => parse?_path_eq_some_iff, path_eq_ite, ?_⟩
  intro package simple h
  exact ⟨ofSegments?_concat package simple, parse?_join h⟩

/-- A form that is read back, and one that is not: the first segment holds a slash. -/
theorem parse?_inverts_path_list :
    (∀ segment ∈ ["java", "util"] ++ ["List"], '/' ∉ segment.toList) ∧
    (∃ name, parse? "java/util/List" = some name ∧ name.path = "java/util/List" ∧
      ofParts? ["java", "util"] "List" = some name) ∧
    ∃ name, ofParts? ["java/util"] "List" = some name ∧ name.path = "java/util/List" ∧
      parse? name.path ≠ some name := by
  have hplain : ∀ segment ∈ ["java", "util"] ++ ["List"], '/' ∉ segment.toList := by decide
  obtain ⟨hnone, hpath, hback, -, hagree⟩ := parse?_inverts_path
  obtain ⟨-, hparts⟩ := hagree ["java", "util"] "List" hplain
  refine ⟨hplain, ?_, ?_⟩
  · obtain ⟨name, hname⟩ := Option.ne_none_iff_exists'.1 (mt (hnone "java/util/List").1 (by decide))
    exact ⟨name, hname, hpath _ name hname, hparts ▸ hname⟩
  · refine ⟨⟨["java/util"], "List", by decide, by decide⟩, rfl, rfl, ?_⟩
    rw [ne_eq, hback]
    decide

end TypeName

end ClasspathLookup
