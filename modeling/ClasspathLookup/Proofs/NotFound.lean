import ClasspathLookup.Proofs.Eligible
import ClasspathLookup.Proofs.LocationAnswers
import Mathlib.Logic.Basic

/-!
# When nothing is found

A location answers a lookup exactly when it holds what the lookup is after: a file of the type's
name for the primary lookup, a source file that declares the type for the search of its package. The
engine loses nothing of this on the way, so a query fails exactly when no location holds anything of
the type and no open unit stands for it.
-/

namespace ClasspathLookup

namespace Storage

variable {storage : Storage} {view : View} {folder type : String} {extensions : List String}
  {admits : String → Bool}

theorem binary?_ne_none_iff {relative : String} {annotations : Option AnnotationPath} :
    (storage.binary? relative annotations).value view ≠ none ↔
      (storage.read relative).value view ≠ none := by
  simp [binary?]

/-- The search of a folder finds something when any of its files declares the type. -/
theorem secondary?_ne_none_iff :
    (storage.secondary? folder type extensions admits).value view ≠ none ↔
      ∃ name stem text, storage.Declares view folder type extensions admits name stem text := by
  constructor
  · intro h
    obtain ⟨a, ha⟩ := Option.ne_none_iff_exists'.1 h
    obtain ⟨name, stem, text, hd, -⟩ := exists_declares_of_secondary? ha
    exact ⟨name, stem, text, hd⟩
  · rintro ⟨name, stem, text, hd⟩ hnone
    simp only [secondary?, Lookup.value_bind, Lookup.value_firstSome,
      List.findSome?_eq_none_iff] at hnone
    have hfile := hnone name hd.listed
    rw [(declaring?_eq_some_iff hd.listed).2 ⟨stem, text, hd, rfl⟩] at hfile
    cases hfile

end Storage

namespace ModuleImage

variable {image : ModuleImage} {view : View} {paths : TypePaths} {m : Option ModuleDescriptor}

theorem value_modulesFor (image : ModuleImage) (m : Option ModuleDescriptor) (view : View) :
    (image.modulesFor m).value view =
      (image.modules.value view).filter fun module => m.all (·.name = module) :=
  rfl

theorem typeIn?_ne_none_iff {module : String} :
    (image.typeIn? paths module).value view ≠ none ↔
      (image.storage.read (Slash.below module paths.qualified)).value view ≠ none := by
  simp only [typeIn?, Lookup.value_bind, Lookup.value_pure, ne_eq, Option.map_eq_none_iff]
  exact Storage.binary?_ne_none_iff

/-- A descriptor selects its module from the list by another way than the search of a package, and
to the same effect. -/
theorem type?_ne_none_iff : (image.type? paths m).value view ≠ none ↔
    ∃ module ∈ (image.modulesFor m).value view,
      (image.storage.read (Slash.below module paths.qualified)).value view ≠ none := by
  simp only [type?, value_modulesFor, Lookup.value_bind, List.mem_filter, ← typeIn?_ne_none_iff]
  cases m with
  | none => simp [List.findSome?_eq_none_iff]
  | some descriptor =>
    simp only [Lookup.value_ite, Lookup.value_pure, Option.all_some, decide_eq_true_eq]
    constructor
    · intro h
      split at h
      · rename_i hmem
        exact ⟨descriptor.name, ⟨hmem, rfl⟩, h⟩
      · exact absurd rfl h
    · rintro ⟨module, ⟨hmem, rfl⟩, h⟩
      rw [if_pos hmem]
      exact h

end ModuleImage

namespace Location

variable {location : Location} {view : View} {name : TypeName} {m : Option ModuleDescriptor}
  {extensions : List String} {type package : String}

/-- The location has a readable file that is named after the type: a source file with a configured
extension that the patterns of the folder admit, or the class file, in an image below a module. -/
def HoldsType (location : Location) (name : TypeName) (m : Option ModuleDescriptor)
    (extensions : List String) (view : View) : Prop :=
  match location with
  | .source l => ∃ extension ∈ extensions, l.admits (name.path ++ "." ++ extension) = true ∧
      view.disk.isFile (l.root.below (name.path ++ "." ++ extension)) = true
  | .classes l => view.disk.isFile (l.root.below (name.path ++ classEnding)) = true
  | .archive l => ∃ content, view.archive? l.handle = some content ∧
      content.read? (name.path ++ classEnding) ≠ none
  | .image l => ∃ module ∈ (l.modulesFor m).value view,
      (l.storage.read (Slash.below module (name.path ++ classEnding))).value view ≠ none

/-- The folders of a package, one for each module in an image. -/
def packageFolders (location : Location) (package : String) (m : Option ModuleDescriptor)
    (view : View) : List String :=
  match location with
  | .source _ | .classes _ | .archive _ => [package]
  | .image l => ((l.modulesFor m).value view).map (Slash.below · package)

/-- A source file directly in the package, which the location may look into and which is not named
after the type, declares it. -/
def DeclaresType (location : Location) (type package : String) (m : Option ModuleDescriptor)
    (extensions : List String) (view : View) : Prop :=
  ∃ folder ∈ location.packageFolders package m view, ∃ name stem text,
    location.storage.Declares view folder type extensions location.admitsFile name stem text

theorem type?_ne_none_iff :
    (location.type? (location.paths name) m extensions).value view ≠ none ↔
      m.all (·.serves name.packagePath) = true ∧ location.HoldsType name m extensions view := by
  have hpackage : (location.paths name).package = name.packagePath := by
    cases location <;> rfl
  unfold type?
  rw [hpackage]
  simp only [Lookup.value_ite, Lookup.value_pure, ne_eq, ite_eq_right_iff, Classical.not_imp]
  refine and_congr_right fun _ => ?_
  cases location with
  | source l => simp [SourceFolder.type?, HoldsType, paths, TypePaths.source]
  | classes l =>
    simp [Storage.binary?, Storage.read, HoldsType, paths, TypePaths.binary, Disk.isFile,
      Disk.read?, Option.isSome_iff_ne_none]
  | archive l =>
    simp [Storage.binary?, Storage.read, HoldsType, paths, TypePaths.binary]
  | image l => exact ModuleImage.type?_ne_none_iff

theorem secondary?_ne_none_iff :
    (location.secondary? type package m extensions).value view ≠ none ↔
      m.all (·.serves package) = true ∧ location.DeclaresType type package m extensions view := by
  unfold secondary? DeclaresType
  simp only [Lookup.value_ite, Lookup.value_pure, ne_eq, ite_eq_right_iff, Classical.not_imp]
  refine and_congr_right fun _ => ?_
  cases location with
  | source l =>
    simp only [packageFolders, List.mem_singleton, exists_eq_left]
    exact Storage.secondary?_ne_none_iff
  | classes l =>
    simp only [packageFolders, List.mem_singleton, exists_eq_left, Lookup.value_bind,
      Lookup.value_pure, Option.map_eq_none_iff]
    exact Storage.secondary?_ne_none_iff
  | archive l =>
    simp only [packageFolders, List.mem_singleton, exists_eq_left, Lookup.value_bind,
      Lookup.value_pure, Option.map_eq_none_iff]
    exact Storage.secondary?_ne_none_iff
  | image l =>
    have hin : ∀ module, (l.secondaryIn? type package extensions module).value view ≠ none ↔
        ∃ name stem text, l.storage.Declares view (Slash.below module package) type extensions
          (fun _ => true) name stem text := by
      intro module
      simp only [ModuleImage.secondaryIn?, Lookup.value_bind, Lookup.value_pure, ne_eq,
        Option.map_eq_none_iff]
      exact Storage.secondary?_ne_none_iff
    simp only [Lookup.value_bind, Lookup.value_firstSome, List.findSome?_eq_none_iff,
      not_forall, exists_prop, packageFolders, List.mem_map, exists_exists_and_eq_and]
    exact exists_congr fun module => and_congr_right fun _ => hin module

end Location

namespace Environment

variable {environment : Environment} {name : TypeName} {filter : ModuleFilter} {view : View}

/-- Nothing is found when no eligible location answers and the other search fails as well. -/
theorem findType_eq_none_iff : (environment.findType name filter).value view = none ↔
    (∀ location ∈ environment.eligible filter view,
      (environment.probe name filter location).value view = none) ∧
    environment.fallback name filter view = none := by
  have hmissing : (environment.scan name filter).value view = .missing ↔
      ∀ location ∈ environment.eligible filter view,
        (environment.probe name filter location).value view = none := by
    rw [value_scan, ScanPolicy.outcome_eq_missing_iff, answers, List.filterMap_eq_nil_iff]
  rw [← hmissing, value_findType]
  cases (environment.scan name filter).value view with
  | found a => simp
  | suggested a => simp
  | missing => simp

end Environment

end ClasspathLookup
