import ClasspathLookup.Proofs.SecondaryChoice
import ClasspathLookup.Proofs.SlashedNames

/-!
# Names of source files

Three places read the name of a source file. A source folder puts an extension after the name of a
type; the overlay of open units and the search of other files in a package cut the file name at its
last dot instead. Cutting undoes putting when the extension holds no dot. With an extension that
holds one, a file is found under a name by which neither of the other two knows it.
-/

namespace ClasspathLookup

namespace Slash

variable {text : String}

/-- What stands before the first separator belongs to the first segment. -/
theorem splitChars_append_of_not_mem {sep : Char} {front : List Char} (h : sep ∉ front)
    (cs : List Char) : ∃ first rest, splitChars sep cs = first :: rest ∧
      splitChars sep (front ++ cs) = (front ++ first) :: rest := by
  induction front with
  | nil =>
    obtain ⟨first, rest, hs⟩ := List.exists_cons_of_ne_nil (splitChars_ne_nil sep cs)
    exact ⟨first, rest, hs, hs⟩
  | cons c front ih =>
    rw [List.mem_cons, not_or] at h
    obtain ⟨first, rest, hs, hfront⟩ := ih h.2
    refine ⟨first, rest, hs, ?_⟩
    rw [List.cons_append, splitChars, if_neg (Ne.symm h.1), hfront]
    rfl

theorem exists_split_append {front : String} (h : '/' ∉ front.toList) (text : String) :
    ∃ first rest, split text = first :: rest ∧ split (front ++ text) = (front ++ first) :: rest := by
  obtain ⟨first, rest, hs, hfront⟩ := splitChars_append_of_not_mem h text.toList
  refine ⟨String.ofList first, rest.map String.ofList, ?_, ?_⟩
  · rw [split, hs, List.map_cons]
  · rw [split, String.toList_append, hfront, List.map_cons, String.ofList_append,
      String.ofList_toList]

theorem ofDotted_append (front back : String) :
    ofDotted (front ++ back) = ofDotted front ++ ofDotted back := by
  simp [ofDotted]

theorem ofDotted_of_not_mem (h : '.' ∉ text.toList) : ofDotted text = text := by
  have hsame : text.toList.map (fun c => if c = '.' then '/' else c) = text.toList.map id := by
    apply List.map_congr_left
    intro c hc
    apply if_neg
    rintro rfl
    exact h hc
  rw [ofDotted, hsame, List.map_id, String.ofList_toList]

/-- The dotted form of a package names its slashed one where no segment holds a dot. -/
theorem ofDotted_intercalate {segments : List String}
    (h : ∀ segment ∈ segments, '.' ∉ segment.toList) :
    ofDotted (".".intercalate segments) = join segments := by
  induction segments with
  | nil => rfl
  | cons segment segments ih =>
    obtain ⟨hsegment, hrest⟩ := List.forall_mem_cons.1 h
    cases segments with
    | nil => rw [String.intercalate_singleton, join, ofDotted_of_not_mem hsegment]
    | cons next rest =>
      rw [String.intercalate_cons_cons, ofDotted_append, ofDotted_append, ih hrest,
        ofDotted_of_not_mem hsegment, join]
      rfl

end Slash

/-- The file is named after a stem, with a configured extension that is all that follows the last
dot. -/
def NamedAfter (extensions : List String) (stem file : String) : Prop :=
  ∃ extension ∈ extensions, '.' ∉ extension.toList ∧ file = stem ++ "." ++ extension

section NamedAfter

variable {extensions : List String} {stem file : String}

theorem namedAfter_iff_cutLast : NamedAfter extensions stem file ↔
    ∃ extension ∈ extensions, Slash.cutLast '.' file = some (stem, extension) := by
  simp only [NamedAfter, Slash.cutLast_dot_eq_some_iff, and_comm]

theorem WorkingCopy.mainType_eq_iff {copy : WorkingCopy} : copy.mainType extensions = stem ↔
    NamedAfter extensions stem copy.fileName ∨
      copy.fileName = stem ∧ ∀ other, ¬ NamedAfter extensions other copy.fileName := by
  simp only [namedAfter_iff_cutLast]
  unfold mainType
  cases hcut : Slash.cutLast '.' copy.fileName with
  | none => simp
  | some cut =>
    obtain ⟨before, extension⟩ := cut
    by_cases hconfigured : extension ∈ extensions
    · simp [hconfigured]
    · simp [hconfigured]

end NamedAfter

theorem Path.isStep_of_stem {stem : String} (h : stem ≠ "") (ending : String) :
    isStep (stem ++ "." ++ ending) = true := by
  have hlong : 1 < (stem ++ "." ++ ending).length := by
    have hstem : stem.length ≠ 0 := by simpa using h
    have hdot : ".".length = 1 := by decide
    rw [String.length_append, String.length_append]
    omega
  have hne : ∀ other : String, other.length ≤ 1 → stem ++ "." ++ ending ≠ other := by
    rintro other hother rfl
    omega
  rw [isStep, Bool.and_eq_true, decide_eq_true_eq, decide_eq_true_eq]
  exact ⟨hne "" (by decide), hne "." (by decide)⟩

namespace TypeName

variable {name : TypeName} {extensions : List String} {file : String}

/-- The open unit of a file in the package of a name. -/
def unit (name : TypeName) (file contents : String) : WorkingCopy :=
  ⟨".".intercalate name.package, file, contents⟩

theorem qualifiedMainType_unit (hdots : ∀ segment ∈ name.package, '.' ∉ segment.toList)
    (contents : String) : (name.unit file contents).qualifiedMainType extensions =
      if name.package = [] then (name.unit file contents).mainType extensions
      else name.packagePath ++ "/" ++ (name.unit file contents).mainType extensions := by
  have hpath : Slash.ofDotted (name.unit file contents).package = name.packagePath :=
    Slash.ofDotted_intercalate hdots
  unfold WorkingCopy.qualifiedMainType
  rw [hpath]
  by_cases hpackage : name.package = []
  · rw [if_pos hpackage, if_pos (by rw [unit, hpackage, String.intercalate_nil])]
  · have hne : (name.unit file contents).package ≠ "" := by
      intro hempty
      rw [hempty] at hpath
      exact packagePath_ne_empty hpackage hpath.symm
    rw [if_neg hpackage, if_neg hne]

/-- The overlay knows a unit by a name exactly when its main type is the simple name. -/
theorem qualifiedMainType_unit_eq_path_iff
    (hdots : ∀ segment ∈ name.package, '.' ∉ segment.toList) (contents : String) :
    (name.unit file contents).qualifiedMainType extensions = name.path ↔
      (name.unit file contents).mainType extensions = name.simple := by
  rw [qualifiedMainType_unit hdots, path_eq_ite]
  split
  · exact Iff.rfl
  · rw [String.append_right_inj]

theorem allPlain_segments
    (h : ∀ segment ∈ name.segments, '.' ∉ segment.toList ∧ '/' ∉ segment.toList) :
    AllPlain name.segments := by
  intro segment hsegment
  obtain ⟨hdot, hslash⟩ := h segment hsegment
  refine ⟨name.segments_nonempty segment hsegment, hslash, ?_, ?_⟩
  · rintro rfl
    simp at hdot
  · rintro rfl
    simp at hdot

/-- A file that a source folder reaches directly in the package of a name has the simple name and
the start of the extension, up to its first slash. -/
theorem exists_of_steps_below {root : Path} {extension : String} (hplain : AllPlain name.segments)
    (h : (root.below (name.path ++ "." ++ extension)).steps =
      root.steps ++ name.package ++ [file]) :
    ∃ first rest, Slash.split extension = first :: rest ∧ file = name.simple ++ "." ++ first := by
  obtain ⟨hpackage, hsimple⟩ := allPlain_concat_iff.1 hplain
  have hsteps : (Slash.split name.packagePath).filter Path.isStep = name.package := by
    have hbelow := congrArg Path.steps (Path.below_join ⟨[], false⟩ hpackage)
    rwa [Path.steps_below_eq] at hbelow
  have hslash : '/' ∉ (name.simple ++ ".").toList := by simp [hsimple.slashFree]
  -- What follows a slash of the extension would be further steps, so the file ends before it.
  obtain ⟨first, rest, hsplit, hfile⟩ := Slash.exists_split_append hslash extension
  refine ⟨first, rest, hsplit, ?_⟩
  have hstep : Path.isStep (name.simple ++ "." ++ first) = true :=
    Path.isStep_of_stem name.simple_nonempty first
  rw [String.append_assoc, path_append_eq_below, Path.steps_below_eq,
    Slash.filter_split_below rfl, hsteps, ← String.append_assoc, hfile,
    List.filter_cons_of_pos hstep, List.append_assoc, List.append_right_inj,
    List.append_right_inj] at h
  exact (List.cons.inj h).1.symm

end TypeName

theorem Overlay.exists_find?_of_mem {copies : List WorkingCopy} {copy : WorkingCopy}
    (h : copy ∈ copies) (extensions : List String) :
    ∃ last, (ofCopies copies extensions).find? (copy.qualifiedMainType extensions) = some last := by
  apply Keyed.exists_find?_ofList
  exact List.mem_map_of_mem h

/-- The three readers agree on the file of a name: its open unit has the name for a key, so that no
file is served for it by the primary scan, and a search for another type looks into the file. -/
structure ReadAlike (extensions : List String) (name : TypeName) (file : String) : Prop where
  key : ∀ contents, (name.unit file contents).qualifiedMainType extensions = name.path
  shadows : ∀ locations copies options contents, options.sourceExtensions = extensions →
    name.unit file contents ∈ copies → ∀ filter view a,
    (((Environment.create locations copies options).scan name filter).value view).answer? = some a →
    ∀ path stem, a.found ≠ .source (.file path stem)
  searched : ∀ type, type ≠ name.simple → Storage.sourceStem? type extensions file ≠ none

/-- The answer is a file that stands directly in the folder of a package. -/
def Answer.IsFileIn (a : Answer) (root : Path) (package : List String) (file : String) : Prop :=
  ∃ path stem, a.found = .source (.file path stem) ∧ path.steps = root.steps ++ package ++ [file]

namespace ReadAlike

variable {name : TypeName} {extensions : List String} {file : String}

theorem of_namedAfter (hdots : ∀ segment ∈ name.package, '.' ∉ segment.toList)
    (hnamed : NamedAfter extensions name.simple file) : ReadAlike extensions name file := by
  have hkey : ∀ contents, (name.unit file contents).qualifiedMainType extensions = name.path := by
    intro contents
    rw [TypeName.qualifiedMainType_unit_eq_path_iff hdots, WorkingCopy.mainType_eq_iff]
    exact Or.inl hnamed
  refine ⟨hkey, ?_, ?_⟩
  · rintro locations copies options contents rfl hmem filter view a hscan path stem hfound
    obtain ⟨location, -, hprobe⟩ := Environment.exists_probe_of_scan hscan
    obtain ⟨-, hnone⟩ := Environment.find?_eq_none_of_probe hprobe hfound
    obtain ⟨last, hlast⟩ := Overlay.exists_find?_of_mem hmem options.sourceExtensions
    rw [hkey contents] at hlast
    exact Option.some_ne_none last (hlast.symm.trans hnone)
  · intro type hne
    obtain ⟨extension, hmem, hdot, rfl⟩ := hnamed
    rw [Storage.sourceStem?_eq_some_iff.2 ⟨Ne.symm hne, extension, hmem, hdot, rfl⟩]
    exact Option.some_ne_none _

/-- A unit whose key is the name has lost a configured extension, unless the file has none. -/
theorem namedAfter (h : ReadAlike extensions name file)
    (hdots : ∀ segment ∈ name.package, '.' ∉ segment.toList) (hfile : file ≠ name.simple) :
    NamedAfter extensions name.simple file := by
  have hmain := (TypeName.qualifiedMainType_unit_eq_path_iff hdots "").1 (h.key "")
  rcases WorkingCopy.mainType_eq_iff.1 hmain with hnamed | ⟨hsame, -⟩
  · exact hnamed
  · exact absurd hsame hfile

end ReadAlike

namespace Location

variable {folder : SourceFolder} {name : TypeName} {m : Option ModuleDescriptor}
  {extensions : List String} {view : View} {a : Answer} {file : String}

/-- The file of an answer has the simple name, a dot and what a configured extension starts with. -/
theorem exists_of_isFileIn (hplain : AllPlain name.segments)
    (hanswer : ((Location.source folder).type? (.source name) m extensions).value view = some a)
    (hfile : a.IsFileIn folder.root name.package file) :
    ∃ extension ∈ extensions, ∃ first rest, Slash.split extension = first :: rest ∧
      file = name.simple ++ "." ++ first := by
  obtain ⟨extension, hmem, -, rfl⟩ := SourceFolder.eq_of_type? (eq_of_type?_source hanswer)
  obtain ⟨path, stem, hfound, hsteps⟩ := hfile
  obtain ⟨rfl, -⟩ := SourceUnit.file.inj (Found.source.inj hfound)
  exact ⟨extension, hmem, TypeName.exists_of_steps_below hplain hsteps⟩

/-- The file of an answer is read alike by all three exactly when it is the simple name with a
configured extension that holds no dot. That is always so where the configured extensions hold
neither dots nor slashes. -/
theorem readAlike_iff
    (hplain : ∀ segment ∈ name.segments, '.' ∉ segment.toList ∧ '/' ∉ segment.toList)
    (hanswer : ((Location.source folder).type? (.source name) m extensions).value view = some a)
    (hfile : a.IsFileIn folder.root name.package file) :
    (ReadAlike extensions name file ↔ NamedAfter extensions name.simple file) ∧
    ((∀ extension ∈ extensions, '.' ∉ extension.toList ∧ '/' ∉ extension.toList) →
      ReadAlike extensions name file) := by
  have hfirst := exists_of_isFileIn (TypeName.allPlain_segments hplain) hanswer hfile
  obtain ⟨extension, hmem, first, rest, hsplit, rfl⟩ := hfirst
  rw [TypeName.segments, List.forall_mem_append, List.forall_mem_singleton] at hplain
  obtain ⟨hpackage, hsimple, -⟩ := hplain
  have hdots : ∀ segment ∈ name.package, '.' ∉ segment.toList := by
    intro segment hsegment
    exact (hpackage segment hsegment).1
  constructor
  · refine ⟨fun halike => halike.namedAfter hdots ?_, ReadAlike.of_namedAfter hdots⟩
    intro hsame
    apply hsimple
    rw [← hsame]
    simp
  · intro hextensions
    obtain ⟨hdot, hslash⟩ := hextensions extension hmem
    rw [Slash.split_of_not_mem hslash] at hsplit
    obtain rfl := (List.cons.inj hsplit).1
    exact ReadAlike.of_namedAfter hdots ⟨extension, hmem, hdot, rfl⟩

/-- Two files that a type can be found in. -/
def partDisk : Disk :=
  (Disk.empty.put (.ofText "src/w/Part.java") (.file (.plain "class Part \x7b\x7d".toUTF8))).put
    (.ofText "src/w/Part.gen.java") (.file (.plain "class Part \x7b\x7d".toUTF8))

def partName : TypeName :=
  ⟨["w"], "Part", by decide, by decide⟩

def partFolder : SourceFolder :=
  { root := .ofText "src" }

def partView : View :=
  LocationSet.view (.build partDisk [] []) partDisk

def partAnswer (file : String) : Answer :=
  ⟨.source (.file ⟨["src", "w", file], false⟩ "Part"), none, none⟩

theorem isPlain_partName :
    ∀ segment ∈ partName.segments, '.' ∉ segment.toList ∧ '/' ∉ segment.toList := by
  decide

theorem isFileIn_partAnswer (file : String) :
    (partAnswer file).IsFileIn partFolder.root partName.package file :=
  ⟨⟨["src", "w", file], false⟩, "Part", rfl, rfl⟩

/-- With a plain extension the opened file takes the place of the one on the disk. -/
theorem readAlike_iff_part :
    ((Location.source partFolder).type? (.source partName) none ["java"]).value partView =
        some (partAnswer "Part.java") ∧
      ReadAlike ["java"] partName "Part.java" := by
  have hanswer : ((Location.source partFolder).type? (.source partName) none ["java"]).value
      partView = some (partAnswer "Part.java") := by
    decide +kernel
  obtain ⟨hiff, -⟩ := readAlike_iff isPlain_partName hanswer (isFileIn_partAnswer "Part.java")
  exact ⟨hanswer, hiff.2 ⟨"java", by decide, by decide, by decide⟩⟩

/-- An extension with a dot in it leads to a file that the overlay knows by another name. -/
theorem not_forall_readAlike :
    ¬ ∀ (folder : SourceFolder) (name : TypeName) (m : Option ModuleDescriptor)
      (extensions : List String) (view : View) (a : Answer) (file : String),
      (∀ segment ∈ name.segments, '.' ∉ segment.toList ∧ '/' ∉ segment.toList) →
      ((Location.source folder).type? (.source name) m extensions).value view = some a →
      a.IsFileIn folder.root name.package file → ReadAlike extensions name file := by
  intro halike
  have hanswer : ((Location.source partFolder).type? (.source partName) none ["gen.java"]).value
      partView = some (partAnswer "Part.gen.java") := by
    decide +kernel
  have hkey := (halike partFolder partName none ["gen.java"] partView _ "Part.gen.java"
    isPlain_partName hanswer (isFileIn_partAnswer "Part.gen.java")).key ""
  revert hkey
  decide +kernel

end Location

end ClasspathLookup
