import ClasspathLookup.Proofs.GlobRelation
import ClasspathLookup.Proofs.TypesInPackages

/-!
# What patterns show of a package

A source folder decides by its patterns which files and which packages are seen, and it tests the
two differently. An excluded package folder is hidden, whatever files in it are still seen.
Otherwise a package with a visible type is visible, as long as every inclusion pattern starts with
`**` or names the folders that it reaches into: such a pattern covers the package or starts with its
path.
-/

namespace ClasspathLookup

namespace Slash

theorem join_append {front back : List String} (hfront : front ≠ []) (hback : back ≠ []) :
    join (front ++ back) = join front ++ "/" ++ join back := by
  induction front with
  | nil => exact absurd rfl hfront
  | cons first front ih =>
    cases front with
    | nil =>
      obtain ⟨next, rest, rfl⟩ := List.exists_cons_of_ne_nil hback
      rfl
    | cons second front =>
      rw [List.cons_append, List.cons_append, join, ← List.cons_append, ih (by simp), join]
      simp only [String.append_assoc]

/-- A text that has the segments of a folder and then others starts with the path of the folder. -/
theorem startsWith_of_split {folder text : String}
    (h : split folder <+: (split text).dropLast) :
    (folder.toList ++ ['/']) <+: text.toList := by
  obtain ⟨more, hmore⟩ := h
  have hsplit : split text =
      split folder ++ (more ++ [(split text).getLast (split_ne_nil text)]) := by
    rw [← List.append_assoc, hmore, List.dropLast_append_getLast]
  have htext := join_split text
  rw [hsplit, join_append (split_ne_nil folder) (by simp), join_split] at htext
  rw [← htext, String.toList_append, String.toList_append]
  exact List.prefix_append _ _

end Slash

namespace Glob

/-- Nothing in the segment stands for anything but itself. -/
def IsLiteral (segment : String) : Prop :=
  star ∉ bytes segment ∧ anyByte ∉ bytes segment

/-- Only the last segment of the pattern has wildcards. -/
def NamesFolders (pattern : String) : Prop :=
  ∀ folder ∈ (Slash.split pattern).dropLast, IsLiteral folder

/-- How a pattern is known to reach into a package. -/
def PointsInto (pattern package : String) : Prop :=
  covers pattern package = true ∨ (package.toList ++ ['/']) <+: pattern.toList ∨
    ['*', '*'] <+: pattern.toList

/-- What is added after a final slash belongs to the last segment. -/
theorem dropLast_segments (pattern : String) :
    (segments pattern).dropLast = (Slash.split pattern).dropLast := by
  unfold segments
  split
  · rename_i hslash
    obtain ⟨front, hfront⟩ := List.getLast?_eq_some_iff.1 hslash
    have hpattern : pattern = String.ofList front ++ "/" ++ "" := by
      rw [← String.toList_inj, hfront]
      simp
    have hexpanded : pattern ++ "**" = String.ofList front ++ "/" ++ "**" := by
      rw [hpattern, String.append_empty]
    rw [hexpanded, Slash.split_append]
    conv_rhs => rw [hpattern, Slash.split_append]
    rw [show Slash.split "**" = ["**"] from rfl, show Slash.split "" = [""] from rfl,
      List.dropLast_concat, List.dropLast_concat]
  · rfl

theorem bytes_injective {a b : String} (h : bytes a = bytes b) : a = b := by
  unfold bytes at h
  rw [Array.toList_inj] at h
  exact String.toByteArray_inj.1 (ByteArray.ext h)

section Literals

variable {pattern text : List UInt8} {segment : String} {folders path rest : List String}

theorem matches_iff_of_literal (hstar : star ∉ pattern) (hany : anyByte ∉ pattern) :
    Matches pattern text ↔ text = pattern := by
  induction pattern generalizing text with
  | nil =>
    constructor
    · intro h
      cases h
      rfl
    · rintro rfl
      exact .nil
  | cons byte pattern ih =>
    obtain ⟨hbyte, hrest⟩ := not_or.1 (List.mem_cons.not.1 hstar)
    obtain ⟨hbyte', hrest'⟩ := not_or.1 (List.mem_cons.not.1 hany)
    rw [matches_cons_iff (Ne.symm hbyte)]
    simp only [ih hrest hrest']
    constructor
    · rintro ⟨other, back, rfl, hsame, rfl⟩
      rw [hsame.resolve_left (Ne.symm hbyte')]
    · rintro rfl
      exact ⟨byte, pattern, rfl, Or.inr rfl, rfl⟩

theorem IsLiteral.ne_deep (h : IsLiteral segment) : segment ≠ "**" := by
  rintro rfl
  exact h.1 (by decide)

theorem IsLiteral.matchBytes_self (h : IsLiteral segment) :
    matchBytes (bytes segment) (bytes segment) = true :=
  matchBytes_of_matches h.1 ((matches_iff_of_literal h.1 h.2).2 rfl)

/-- Literal segments of a pattern stand at the front of every path that it spans. -/
theorem Spans.exists_rest {tail : List String} (hfolders : ∀ folder ∈ folders, IsLiteral folder)
    (h : Spans (folders ++ tail) path) : ∃ rest, path = folders ++ rest ∧ Spans tail rest := by
  induction folders generalizing path with
  | nil => exact ⟨path, rfl, h⟩
  | cons folder folders ih =>
    obtain ⟨hfolder, hrest⟩ := List.forall_mem_cons.1 hfolders
    cases h with
    | deep front h => exact absurd rfl hfolder.ne_deep
    | segment hp hmatch h =>
      obtain ⟨rest, rfl, hspans⟩ := ih hrest h
      rw [matches_iff_of_literal hfolder.1 hfolder.2] at hmatch
      rw [bytes_injective hmatch]
      exact ⟨rest, rfl, hspans⟩

theorem matchSegments_literals (hfolders : ∀ folder ∈ folders, IsLiteral folder)
    (tail rest : List String) :
    matchSegments (folders ++ tail) (folders ++ rest) = matchSegments tail rest := by
  induction folders with
  | nil => rfl
  | cons folder folders ih =>
    obtain ⟨hfolder, hrest⟩ := List.forall_mem_cons.1 hfolders
    rw [List.cons_append, List.cons_append, matchSegments, if_neg hfolder.ne_deep,
      hfolder.matchBytes_self, Bool.true_and, ih hrest]

theorem Spans.eq_deep {last : String} (h : Spans [last] path) (hlength : 1 < path.length) :
    last = "**" := by
  cases h with
  | deep front h => rfl
  | segment hp hmatch h =>
    cases h
    exact absurd hlength (by simp)

end Literals

/-- A pattern that covers something in a package, and has its wildcards in the last segment, covers
the package or starts with its path. -/
theorem pointsInto_of_covers {pattern package rest : String} (hfolders : NamesFolders pattern)
    (h : covers pattern (package ++ "/" ++ rest) = true) : PointsInto pattern package := by
  obtain ⟨last, hsegments⟩ : ∃ last, segments pattern =
      (Slash.split pattern).dropLast ++ [last] := by
    rw [← dropLast_segments]
    exact ⟨_, (List.dropLast_append_getLast (Slash.split_ne_nil _)).symm⟩
  rw [covers, hsegments, Slash.split_append] at h
  obtain ⟨tail, hpath, htail⟩ := (spans_of_matchSegments h).exists_rest hfolders
  rcases List.prefix_or_prefix_of_prefix (List.prefix_append (Slash.split package) _)
    (hpath ▸ List.prefix_append _ tail) with hpackage | ⟨more, hmore⟩
  · exact Or.inr (Or.inl (Slash.startsWith_of_split hpackage))
  · by_cases hnil : more = []
    · rw [hnil, List.append_nil] at hmore
      exact Or.inr (Or.inl (Slash.startsWith_of_split (hmore ▸ List.prefix_refl _)))
    · -- What is left for the last segment is a part of the package and the rest.
      rw [← hmore, List.append_assoc, List.append_cancel_left_eq] at hpath
      have hlength : 1 < tail.length := by
        have hmoreLength := List.length_pos_of_ne_nil hnil
        have hrestLength := List.length_pos_of_ne_nil (Slash.split_ne_nil rest)
        rw [← hpath, List.length_append]
        omega
      rw [htail.eq_deep hlength] at hsegments
      refine Or.inl ?_
      rw [covers, hsegments, ← hmore, matchSegments_literals hfolders]
      unfold matchSegments
      rw [if_pos rfl, anyTail_eq_true_iff]
      exact ⟨more, [], (List.append_nil more).symm, rfl⟩

end Glob

namespace SourceFolder

variable {folder : SourceFolder} {package : String}

theorem admitsPackage_iff (hpackage : package ≠ "") : folder.admitsPackage package = true ↔
    (∀ pattern ∈ folder.exclusion, Glob.covers pattern package = false) ∧
      (folder.inclusion = [] ∨ ∃ pattern ∈ folder.inclusion, Glob.PointsInto pattern package) := by
  simp [admitsPackage, hpackage, Glob.PointsInto, or_assoc]

theorem exists_covers_of_admits {relative : String} (h : folder.admits relative = true)
    (hinclusion : folder.inclusion ≠ []) :
    ∃ pattern ∈ folder.inclusion, Glob.covers pattern relative = true := by
  simpa [admits, hinclusion] using (Bool.and_eq_true_iff.1 h).2

end SourceFolder

theorem TypeName.packagePath_ne_empty {name : TypeName} (h : name.package ≠ []) :
    name.packagePath ≠ "" := by
  obtain ⟨first, rest, hsplit⟩ := List.exists_cons_of_ne_nil h
  rw [packagePath, hsplit]
  cases rest with
  | nil => exact name.package_nonempty first (by simp [hsplit])
  | cons next rest => simp [Slash.join]

namespace Location

variable {folder : SourceFolder} {name : TypeName} {m : Option ModuleDescriptor}
  {extensions : List String} {view : View}

/-- What a source folder answers with is a file of the package that its patterns admit. -/
theorem exists_admitted_of_answer (hpackage : name.packagePath ≠ "")
    (h : ((Location.source folder).type? (.source name) m extensions).value view ≠ none ∨
      ((Location.source folder).secondary? name.simple name.packagePath m extensions).value view ≠
        none) :
    ∃ rest, folder.admits (name.packagePath ++ "/" ++ rest) = true := by
  rcases h with h | h
  · obtain ⟨-, extension, -, hadmits, -⟩ := type?_ne_none_iff.1 h
    refine ⟨name.simple ++ ("." ++ extension), ?_⟩
    rw [String.append_assoc, name.path_append_eq_below, Slash.below, if_neg hpackage,
      if_neg (by simp)] at hadmits
    exact hadmits
  · obtain ⟨-, inside, hmem, entry, stem, text, hdeclares⟩ := secondary?_ne_none_iff.1 h
    obtain rfl := List.mem_singleton.1 hmem
    obtain ⟨-, extension, -, rfl⟩ := Storage.eq_of_sourceStem? hdeclares.named
    have hadmits := hdeclares.admitted
    rw [Slash.below, if_neg hpackage, if_neg (by simp)] at hadmits
    exact ⟨_, hadmits⟩

/-- A source folder that answers for a type hides the package of the type when an exclusion pattern
covers the package folder. Otherwise it shows the package if it has no inclusion patterns or one
that points into the package, and so it does whenever every inclusion pattern starts with `**` or
has its wildcards in the last segment. -/
theorem isPackage_source_of_answer (hpackage : name.package ≠ [])
    (h : ((Location.source folder).type? (.source name) m extensions).value view ≠ none ∨
      ((Location.source folder).secondary? name.simple name.packagePath m extensions).value view ≠
        none) :
    let shown := ((Location.source folder).isPackage name.packagePath m).value view
    ((∃ pattern ∈ folder.exclusion, Glob.covers pattern name.packagePath = true) →
      shown = false) ∧
    ((∀ pattern ∈ folder.exclusion, Glob.covers pattern name.packagePath = false) →
      (folder.inclusion = [] ∨
        (∃ pattern ∈ folder.inclusion, Glob.PointsInto pattern name.packagePath) ∨
        ∀ pattern ∈ folder.inclusion,
          ['*', '*'] <+: pattern.toList ∨ Glob.NamesFolders pattern) →
      shown = true) := by
  intro shown
  have hne := TypeName.packagePath_ne_empty hpackage
  have hshown : shown = folder.admitsPackage name.packagePath :=
    isPackage_eq_of_answer (Storage.isIndexed_folder folder.root view) h
  constructor
  · rintro ⟨pattern, hmem, hcovers⟩
    rw [hshown, Bool.eq_false_iff, Ne, SourceFolder.admitsPackage_iff hne]
    rintro ⟨hexclusion, -⟩
    exact absurd (hexclusion pattern hmem) (by simp [hcovers])
  · intro hexclusion hinclusion
    rw [hshown, SourceFolder.admitsPackage_iff hne]
    refine ⟨hexclusion, ?_⟩
    rcases hinclusion with hnil | hpoints | hpatterns
    · exact Or.inl hnil
    · exact Or.inr hpoints
    · by_cases hnil : folder.inclusion = []
      · exact Or.inl hnil
      · obtain ⟨rest, hadmits⟩ := exists_admitted_of_answer hne h
        obtain ⟨pattern, hmem, hcovers⟩ := SourceFolder.exists_covers_of_admits hadmits hnil
        refine Or.inr ⟨pattern, hmem, ?_⟩
        rcases hpatterns pattern hmem with hdeep | hfolders
        · exact Or.inr (Or.inr hdeep)
        · exact Glob.pointsInto_of_covers hfolders hcovers

def seenDisk : Disk :=
  Disk.empty.put (.ofText "src/x/y/Seen.java") (.file (.plain "class Seen \x7b\x7d".toUTF8))

def seenName : TypeName :=
  ⟨["x", "y"], "Seen", by decide, by decide⟩

def seenView : View :=
  LocationSet.view (.build seenDisk [] []) seenDisk

/-- A pattern for everything below a folder shows the packages in it. -/
theorem isPackage_source_of_answer_seen :
    let folder : SourceFolder := { root := .ofText "src", inclusion := ["x/"] }
    seenName.package ≠ [] ∧
      ((Location.source folder).type? (.source seenName) none ["java"]).value seenView ≠ none ∧
      ((Location.source folder).isPackage "x/y" none).value seenView = true := by
  intro folder
  have hpackage : seenName.package ≠ [] := by decide
  have hanswer : ((Location.source folder).type? (.source seenName) none ["java"]).value seenView ≠
      none := by
    decide +kernel
  have hfolders : Glob.NamesFolders "x/" := by
    intro segment hmem
    obtain rfl : segment = "x" := List.mem_singleton.1 hmem
    exact ⟨by decide +kernel, by decide +kernel⟩
  refine ⟨hpackage, hanswer, ?_⟩
  apply (isPackage_source_of_answer hpackage (Or.inl hanswer)).2 (by simp [folder])
  exact Or.inr (Or.inr (by simp [folder, hfolders]))

/-- The package folder is excluded and the file in it is not. -/
theorem not_forall_isPackage_source_of_answer :
    ¬ ∀ (folder : SourceFolder) (name : TypeName) (m : Option ModuleDescriptor)
      (extensions : List String) (view : View), name.package ≠ [] →
      ((Location.source folder).type? (.source name) m extensions).value view ≠ none ∨
        ((Location.source folder).secondary? name.simple name.packagePath m extensions).value view ≠
          none →
      ((Location.source folder).isPackage name.packagePath m).value view = true := by
  intro hshows
  have hanswer : ((Location.source { root := .ofText "src", exclusion := ["x/y"] }).type?
      (.source seenName) none ["java"]).value seenView ≠ none := by
    decide +kernel
  exact absurd (hshows _ seenName none ["java"] seenView (by decide) (Or.inl hanswer))
    (by decide +kernel)

end Location

end ClasspathLookup
