/-!
# Slash-separated text

Type names, packages, files below a root and archive entries are all texts whose segments stand
between slashes. Splitting always gives at least one segment, so the empty text has one empty
segment; the last separator of a text cuts off its last segment.
-/

namespace ClasspathLookup.Slash

/-- The runs of characters between the separators, empty runs included. -/
def splitChars (sep : Char) : List Char → List (List Char)
  | [] => [[]]
  | c :: cs =>
    if c = sep then [] :: splitChars sep cs
    else
      match splitChars sep cs with
      | [] => [[c]]
      | segment :: rest => (c :: segment) :: rest

theorem splitChars_ne_nil (sep : Char) (cs : List Char) : splitChars sep cs ≠ [] := by
  induction cs with
  | nil => simp [splitChars]
  | cons c cs ih =>
    unfold splitChars
    split
    · simp
    · split <;> simp

theorem not_mem_of_mem_splitChars {sep : Char} {cs segment : List Char}
    (h : segment ∈ splitChars sep cs) : sep ∉ segment := by
  induction cs generalizing segment with
  | nil =>
    rw [splitChars, List.mem_singleton] at h
    rw [h]
    exact List.not_mem_nil
  | cons c cs ih =>
    unfold splitChars at h
    split at h
    · rcases List.mem_cons.1 h with rfl | h
      · exact List.not_mem_nil
      · exact ih h
    · rename_i hc
      split at h
      · rename_i hs
        exact absurd hs (splitChars_ne_nil sep cs)
      · rename_i first rest hs
        have hfirst : sep ∉ first := ih (by rw [hs]; exact List.mem_cons_self)
        rcases List.mem_cons.1 h with rfl | h
        · simpa [Ne.symm hc] using hfirst
        · exact ih (by rw [hs]; exact List.mem_cons_of_mem _ h)

/-- A separator opens the next segment. -/
theorem splitChars_append {sep : Char} {segment : List Char} (h : sep ∉ segment) (cs : List Char) :
    splitChars sep (segment ++ sep :: cs) = segment :: splitChars sep cs := by
  induction segment with
  | nil => simp [splitChars]
  | cons c segment ih =>
    rw [List.mem_cons, not_or] at h
    rw [List.cons_append, splitChars, if_neg (Ne.symm h.1), ih h.2]

theorem splitChars_of_not_mem {sep : Char} {cs : List Char} (h : sep ∉ cs) :
    splitChars sep cs = [cs] := by
  induction cs with
  | nil => rfl
  | cons c cs ih =>
    rw [List.mem_cons, not_or] at h
    rw [splitChars, if_neg (Ne.symm h.1), ih h.2]

/-- What stands before and after the last separator. -/
def cutLastChars (sep : Char) : List Char → Option (List Char × List Char)
  | [] => none
  | c :: cs =>
    match cutLastChars sep cs with
    | some (before, after) => some (c :: before, after)
    | none => if c = sep then some ([], cs) else none

theorem cutLastChars_eq_none_iff {sep : Char} {cs : List Char} :
    cutLastChars sep cs = none ↔ sep ∉ cs := by
  induction cs with
  | nil => simp [cutLastChars]
  | cons c cs ih =>
    unfold cutLastChars
    cases h : cutLastChars sep cs with
    | some p => simp_all
    | none =>
      by_cases hc : c = sep
      · simp [hc]
      · simp [hc, ih.1 h, Ne.symm hc]

/-- A cut gives back the text, and the part after it holds no further separator. -/
theorem eq_append_of_cutLastChars {sep : Char} {cs before after : List Char}
    (h : cutLastChars sep cs = some (before, after)) :
    cs = before ++ sep :: after ∧ sep ∉ after := by
  induction cs generalizing before with
  | nil => simp [cutLastChars] at h
  | cons c cs ih =>
    unfold cutLastChars at h
    cases hc : cutLastChars sep cs with
    | some p =>
      obtain ⟨b, a⟩ := p
      simp only [hc, Option.some.injEq, Prod.mk.injEq] at h
      obtain ⟨rfl, rfl⟩ := h
      obtain ⟨rfl, ha⟩ := ih hc
      exact ⟨rfl, ha⟩
    | none =>
      by_cases hs : c = sep
      · simp only [hc, hs, if_true, Option.some.injEq, Prod.mk.injEq] at h
        obtain ⟨rfl, rfl⟩ := h
        exact ⟨by simp [hs], cutLastChars_eq_none_iff.1 hc⟩
      · simp [hc, hs] at h

/-- The segments of a text. -/
def split (text : String) : List String :=
  (splitChars '/' text.toList).map String.ofList

/-- The segments with a slash between any two neighbours. -/
def join : List String → String
  | [] => ""
  | [segment] => segment
  | segment :: next :: rest => segment ++ "/" ++ join (next :: rest)

/-- What stands before and after the last separator of a text. -/
def cutLast (sep : Char) (text : String) : Option (String × String) :=
  (cutLastChars sep text.toList).map fun p => (String.ofList p.1, String.ofList p.2)

/-- All but the last segment; empty for a single segment. -/
def parent (text : String) : String :=
  match cutLast '/' text with
  | some (before, _) => before
  | none => ""

/-- The last segment. -/
def last (text : String) : String :=
  match cutLast '/' text with
  | some (_, after) => after
  | none => text

/-- A text below a folder; an empty folder or an empty rest needs no slash. -/
def below (folder rest : String) : String :=
  if folder = "" then rest
  else if rest = "" then folder
  else folder ++ "/" ++ rest

/-- The dotted spelling of a package becomes its slashed one. -/
def ofDotted (text : String) : String :=
  String.ofList (text.toList.map fun c => if c = '.' then '/' else c)

theorem slash_not_mem_of_mem_split {text segment : String} (h : segment ∈ split text) :
    '/' ∉ segment.toList := by
  obtain ⟨cs, hcs, rfl⟩ := List.mem_map.1 h
  rw [String.toList_ofList]
  exact not_mem_of_mem_splitChars hcs

theorem split_of_not_mem {text : String} (h : '/' ∉ text.toList) : split text = [text] := by
  rw [split, splitChars_of_not_mem h, List.map_singleton, String.ofList_toList]

/-- Joining is undone by splitting where no segment holds a slash. -/
theorem split_join {segments : List String} (hne : segments ≠ [])
    (h : ∀ segment ∈ segments, '/' ∉ segment.toList) : split (join segments) = segments := by
  induction segments with
  | nil => exact absurd rfl hne
  | cons segment segments ih =>
    have hs : '/' ∉ segment.toList := h segment List.mem_cons_self
    cases segments with
    | nil => rw [join, split_of_not_mem hs]
    | cons next rest =>
      have hrest := ih (List.cons_ne_nil _ _) fun s hm => h s (List.mem_cons_of_mem _ hm)
      have htext : (segment ++ "/" ++ join (next :: rest)).toList =
          segment.toList ++ '/' :: (join (next :: rest)).toList := by simp
      rw [join, split, htext, splitChars_append hs, List.map_cons, String.ofList_toList]
      exact congrArg (segment :: ·) hrest

/-- Splitting loses nothing. -/
theorem join_split (text : String) : join (split text) = text := by
  suffices h : ∀ cs, join ((splitChars '/' cs).map String.ofList) = String.ofList cs by
    rw [split, h, String.ofList_toList]
  intro cs
  induction cs with
  | nil => rfl
  | cons c cs ih =>
    obtain ⟨first, rest, hs⟩ := List.exists_cons_of_ne_nil (splitChars_ne_nil '/' cs)
    rw [hs] at ih
    unfold splitChars
    rw [hs, ← String.toList_inj]
    replace ih := congrArg String.toList ih
    split
    · rename_i hc
      cases rest <;> simp_all [join]
    · cases rest <;> simp_all [join]

theorem split_ne_nil (text : String) : split text ≠ [] := by
  simp [split, splitChars_ne_nil]

theorem length_parent_lt {text : String} (h : text ≠ "") :
    (parent text).length < text.length := by
  have hpos : 0 < text.length := by
    rw [Nat.pos_iff_ne_zero]
    simpa using h
  unfold parent cutLast
  cases hc : cutLastChars '/' text.toList with
  | none => simpa using hpos
  | some p =>
    obtain ⟨b, a⟩ := p
    have hlen : text.length = (b ++ '/' :: a).length := by
      rw [← (eq_append_of_cutLastChars hc).1, String.length_toList]
    simp only [List.length_append, List.length_cons] at hlen
    simp only [Option.map_some, String.length_ofList]
    omega

theorem join_ne_empty {segment : String} (h : segment ≠ "") (rest : List String) :
    join (segment :: rest) ≠ "" := by
  cases rest <;> simp [join, h]

/-- A last segment is joined like a text below a folder. -/
theorem join_concat {segments : List String} {last : String}
    (hsegments : ∀ segment ∈ segments, segment ≠ "") (hlast : last ≠ "") :
    join (segments ++ [last]) = below (join segments) last := by
  induction segments with
  | nil => simp [join, below]
  | cons segment segments ih =>
    have hne : segment ≠ "" := hsegments segment List.mem_cons_self
    cases segments with
    | nil => simp [join, below, hne, hlast]
    | cons next rest =>
      have hrest : join (next :: rest ++ [last]) = below (join (next :: rest)) last := by
        apply ih
        intro s hs
        exact hsegments s (List.mem_cons_of_mem _ hs)
      have hnext : next ≠ "" := hsegments next (by simp)
      rw [below, if_neg (join_ne_empty hnext rest), if_neg hlast] at hrest
      rw [below, if_neg (join_ne_empty hne _), if_neg hlast]
      calc join (segment :: next :: (rest ++ [last]))
          = segment ++ "/" ++ join (next :: rest ++ [last]) := rfl
        _ = segment ++ "/" ++ join (next :: rest) ++ "/" ++ last := by
          rw [hrest]
          simp [String.append_assoc]

/-- A first segment is a folder of all the others. -/
theorem below_join {first : String} {rest : List String} (hfirst : first ≠ "")
    (hrest : ∀ segment ∈ rest, segment ≠ "") : below first (join rest) = join (first :: rest) := by
  cases rest with
  | nil => simp [below, join]
  | cons next rest =>
    have hnext : next ≠ "" := hrest next List.mem_cons_self
    rw [below, if_neg hfirst, if_neg (join_ne_empty hnext rest), join]

theorem toList_of_cutLast {sep : Char} {text before after : String}
    (h : cutLast sep text = some (before, after)) :
    text.toList = before.toList ++ sep :: after.toList ∧ sep ∉ after.toList := by
  obtain ⟨⟨b, a⟩, hcut, he⟩ := Option.map_eq_some_iff.1 h
  obtain ⟨rfl, rfl⟩ := Prod.mk.inj he
  rw [String.toList_ofList, String.toList_ofList]
  exact eq_append_of_cutLastChars hcut

theorem cutLastChars_append {sep : Char} {after : List Char} (h : sep ∉ after)
    (before : List Char) : cutLastChars sep (before ++ sep :: after) = some (before, after) := by
  induction before with
  | nil => simp [cutLastChars, cutLastChars_eq_none_iff.2 h]
  | cons c cs ih => rw [List.cons_append, cutLastChars, ih]

theorem cutLast_eq_some_iff {sep : Char} {text before after : String} :
    cutLast sep text = some (before, after) ↔
      text.toList = before.toList ++ sep :: after.toList ∧ sep ∉ after.toList := by
  refine ⟨toList_of_cutLast, ?_⟩
  rintro ⟨htext, hafter⟩
  rw [cutLast, htext, cutLastChars_append hafter]
  simp

/-- A slash before a text without one is the last one. -/
theorem cutLast_append {before after : String} (h : '/' ∉ after.toList) :
    cutLast '/' (before ++ "/" ++ after) = some (before, after) :=
  cutLast_eq_some_iff.2 ⟨by simp, h⟩

theorem cutLast_of_not_mem {text : String} (h : '/' ∉ text.toList) : cutLast '/' text = none := by
  rw [cutLast, cutLastChars_eq_none_iff.2 h, Option.map_none]

theorem parent_below {folder name : String} (hne : name ≠ "") (hname : '/' ∉ name.toList) :
    parent (below folder name) = folder := by
  by_cases hfolder : folder = ""
  · rw [below, if_pos hfolder, parent, cutLast_of_not_mem hname, hfolder]
  · rw [below, if_neg hfolder, if_neg hne, parent, cutLast_append hname]

theorem last_below {folder name : String} (hne : name ≠ "") (hname : '/' ∉ name.toList) :
    last (below folder name) = name := by
  by_cases hfolder : folder = ""
  · rw [below, if_pos hfolder, last, cutLast_of_not_mem hname]
  · rw [below, if_neg hfolder, if_neg hne, last, cutLast_append hname]

end ClasspathLookup.Slash
