import ClasspathLookup.Proofs.LocationAnswers
import ClasspathLookup.Proofs.PrimaryScan

/-!
# Open units and the disk

In the primary scan an open unit stands for its type in every source folder, so that no file is read
for a type under whose path a unit is open. The search of other source files does not know of open
units. An answer names the main type of its file, and this is what it is compared with open units
by. Where an extension has a dot in it, the file may be open under another path, since that path is
cut at the last dot; no comparison by main types notices that.
-/

namespace ClasspathLookup

theorem TypeName.path_eq_below (name : TypeName) :
    name.path = Slash.below name.packagePath name.simple :=
  Slash.join_concat name.package_nonempty name.simple_nonempty

/-- An ending of the path is an ending of the simple name. -/
theorem TypeName.path_append_eq_below (name : TypeName) (ending : String) :
    name.path ++ ending = Slash.below name.packagePath (name.simple ++ ending) := by
  have hne : name.simple ++ ending ≠ "" := by simp [name.simple_nonempty]
  rw [name.path_eq_below, Slash.below, Slash.below, if_neg name.simple_nonempty, if_neg hne]
  split
  · rfl
  · rw [String.append_assoc]

/-- A unit in a file is named after the file and read from the disk. -/
theorem Storage.read_of_unit_eq_file {storage : Storage} {view : View}
    {relative stem text main : String} {path : Path}
    (hunit : storage.unit relative stem text = .file path main)
    (hread : (storage.readText relative).value view = some text) :
    main = stem ∧ (view.disk.read? path).bind String.fromUTF8? = some text := by
  cases storage with
  | folder root =>
    obtain ⟨rfl, rfl⟩ := SourceUnit.file.inj hunit
    exact ⟨rfl, hread⟩
  | archive handle => simp [Storage.unit] at hunit

namespace Environment

variable (environment : Environment) (name : TypeName) (filter : ModuleFilter) (view : View)

/-- The answer is a file of a source folder, in the package of a name and with a given stem as its
main type. -/
def IsSourceFile (stem : String) (a : Answer) : Prop :=
  ∃ folder extension, .source folder ∈ environment.locations.locations ∧
    extension ∈ environment.options.sourceExtensions ∧
    a.found = .source (.file
      (folder.root.below (Slash.below name.packagePath (stem ++ "." ++ extension))) stem)

/-- Whether a unit is open under the path of a main type in the package of a name. -/
def IsOpen (stem : String) : Prop :=
  environment.overlay.find? (Slash.below name.packagePath stem) ≠ none

/-- No file of a source folder is served while a unit is open under the main type that the answer
names. -/
def ShadowsDisk : Prop :=
  ∀ a stem, (environment.findType name filter).value view = some a →
    environment.IsSourceFile name stem a → ¬ environment.IsOpen name stem

variable {environment name filter view}

theorem IsSourceFile.exists_path {stem : String} {a : Answer}
    (h : environment.IsSourceFile name stem a) : ∃ path, a.found = .source (.file path stem) := by
  obtain ⟨folder, extension, -, -, h⟩ := h
  exact ⟨_, h⟩

/-- Only a source folder answers the primary scan with a file. It is named after the type, which is
not open. -/
theorem find?_eq_none_of_probe {location : Location} {a : Answer} {path : Path} {stem : String}
    (h : (environment.probe name filter location).value view = some a)
    (hfile : a.found = .source (.file path stem)) :
    stem = name.simple ∧ environment.overlay.find? name.path = none := by
  rcases environment.probe_cases name location with ⟨folder, copy, rfl, hcopy⟩ | hopen
  · rw [environment.value_probe_of_open name filter view hcopy] at h
    split at h
    · rw [← Option.some.inj h] at hfile
      simp [WorkingCopy.answer] at hfile
    · simp at h
  · rw [environment.value_probe_of_not_open name filter view hopen] at h
    obtain ⟨m, -, h⟩ := List.exists_of_findSome?_eq_some h
    by_cases hkind : location.kind = .sourceFolder
    · obtain ⟨folder, rfl⟩ := Location.exists_source_of_kind hkind
      obtain ⟨extension, -, -, rfl⟩ := SourceFolder.eq_of_type? (Location.eq_of_type?_source h)
      simp only [Found.source.injEq, SourceUnit.file.injEq] at hfile
      exact ⟨hfile.2.symm, hopen rfl⟩
    · obtain ⟨type, hbinary⟩ := Location.exists_binary_of_type? hkind h
      simp [hbinary] at hfile

theorem not_isOpen_of_probe {location : Location} {a : Answer} {path : Path} {stem : String}
    (h : (environment.probe name filter location).value view = some a)
    (hfile : a.found = .source (.file path stem)) : ¬ environment.IsOpen name stem := by
  obtain ⟨rfl, hnone⟩ := find?_eq_none_of_probe h hfile
  rw [IsOpen, ← name.path_eq_below, hnone]
  simp

theorem not_isOpen_of_scan {a : Answer} {path : Path} {stem : String}
    (h : ((environment.scan name filter).value view).answer? = some a)
    (hfile : a.found = .source (.file path stem)) : ¬ environment.IsOpen name stem := by
  obtain ⟨location, -, hprobe⟩ := exists_probe_of_scan h
  exact not_isOpen_of_probe hprobe hfile

/-- The other search serves what declares the type on the disk, under another name than the
type's. -/
theorem read_of_fallback {a : Answer} {path : Path} {stem : String}
    (h : environment.fallback name filter view = some a)
    (hfile : a.found = .source (.file path stem)) :
    stem ≠ name.simple ∧ ∃ text, (view.disk.read? path).bind String.fromUTF8? = some text ∧
      name.simple ∈ Declaration.declaredTypes text := by
  obtain ⟨location, -, m, -, h⟩ := exists_secondary_of_fallback h
  obtain ⟨folder, entry, other, text, hd, hfound⟩ := Location.exists_declares_of_secondary? h
  rw [hfile, Found.source.injEq] at hfound
  obtain ⟨rfl, hread⟩ := Storage.read_of_unit_eq_file hfound.symm hd.read
  exact ⟨(Storage.eq_of_sourceStem? hd.named).1, text, hread, hd.declared⟩

/-- The primary scan never serves a file while a unit is open under the main type of the answer. A
query does so exactly when the scan finds nothing and the search of other source files comes to such
a file; its main type is never the type itself, and its text on the disk declares the type. -/
theorem shadowsDisk_iff :
    (∀ a stem, ((environment.scan name filter).value view).answer? = some a →
      environment.IsSourceFile name stem a → ¬ environment.IsOpen name stem) ∧
    (environment.ShadowsDisk name filter view ↔
      ∀ a stem, (∀ b, (environment.scan name filter).value view ≠ .found b) →
        environment.fallback name filter view = some a → environment.IsSourceFile name stem a →
        ¬ environment.IsOpen name stem) ∧
    ∀ a stem, environment.fallback name filter view = some a →
      environment.IsSourceFile name stem a → stem ≠ name.simple ∧
        ∃ path text, a.found = .source (.file path stem) ∧
          (view.disk.read? path).bind String.fromUTF8? = some text ∧
          name.simple ∈ Declaration.declaredTypes text := by
  have hscan : ∀ a stem, ((environment.scan name filter).value view).answer? = some a →
      environment.IsSourceFile name stem a → ¬ environment.IsOpen name stem := by
    intro a stem h hfile
    obtain ⟨path, hfound⟩ := hfile.exists_path
    exact not_isOpen_of_scan h hfound
  refine ⟨hscan, ⟨?_, ?_⟩, ?_⟩
  · intro hshadows a stem hnot hfallback
    exact hshadows a stem (by rw [findType_of_not_found hnot, hfallback, Option.some_or])
  · intro h a stem hfind hfile
    rcases findType_cases hfind with hfound | ⟨hnot, hfallback | hsuggested⟩
    · exact hscan a stem (by rw [hfound]; rfl) hfile
    · exact h a stem hnot hfallback hfile
    · exact hscan a stem hsuggested hfile
  · intro a stem hfallback hfile
    obtain ⟨path, hfound⟩ := hfile.exists_path
    obtain ⟨hne, text, hread, hdeclared⟩ := read_of_fallback hfallback hfound
    exact ⟨hne, path, text, hfound, hread, hdeclared⟩

/-- A source folder with one file, which declares two types. -/
def twoTypesDisk : Disk :=
  Disk.empty.put (.ofText "src/p/Container.java")
    (.file (.plain "class Container \x7b\x7d class Baz \x7b\x7d".toUTF8))

/-- The file is open and declares only the first type by now. -/
def containerOpen : Environment :=
  .create (.build twoTypesDisk [{ path := .ofText "src", role := .source }] ["jar"])
    [⟨"p", "Container.java", "class Container \x7b\x7d"⟩] {}

def bazName : TypeName :=
  ⟨["p"], "Baz", by decide, by decide⟩

/-- The second type is still found, in the text that the open unit replaces. -/
theorem not_forall_shadowsDisk :
    ¬ ∀ environment name filter view, ShadowsDisk environment name filter view := by
  intro hshadows
  have hfind : (containerOpen.findType bazName .all).value
      (containerOpen.locations.view twoTypesDisk) =
        some ⟨.source (.file ⟨["src", "p", "Container.java"], false⟩ "Container"), none, none⟩ := by
    decide +kernel
  have hfile : containerOpen.IsSourceFile bazName "Container"
      ⟨.source (.file ⟨["src", "p", "Container.java"], false⟩ "Container"), none, none⟩ := by
    refine ⟨⟨⟨["src"], false⟩, [], [], .all⟩, "java", ?_, ?_, ?_⟩ <;> decide +kernel
  have hopen : containerOpen.IsOpen bazName "Container" := by
    unfold IsOpen
    decide +kernel
  exact hshadows containerOpen bazName .all _ _ "Container" hfind hfile hopen

end Environment

end ClasspathLookup
