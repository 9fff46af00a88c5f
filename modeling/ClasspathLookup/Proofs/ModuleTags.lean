import ClasspathLookup.Proofs.FileTree
import ClasspathLookup.Proofs.ModuleConfinement
import ClasspathLookup.Proofs.NotFound

/-!
# Answers from module images

An image marks every answer with the module in whose tree it stands, and no other location marks
any. What a marked answer found lies in that tree under the path that the type or its package has
there, and a filter lets through only modules that it names for the package. Paths are meant as
texts: a name whose segments lead upwards is not followed on the disk.
-/

namespace ClasspathLookup

theorem Slash.slash_not_mem_last (text : String) : '/' ∉ (Slash.last text).toList := by
  unfold Slash.last
  cases hcut : Slash.cutLast '/' text with
  | none =>
    rw [Slash.cutLast, Option.map_eq_none_iff] at hcut
    exact Slash.cutLastChars_eq_none_iff.1 hcut
  | some cut =>
    obtain ⟨before, after⟩ := cut
    exact (Slash.toList_of_cutLast hcut).2

theorem Disk.isEntryName_of_mem_fileNames {disk : Disk} {path : Path} {name : String}
    (h : name ∈ disk.fileNames path) : isEntryName name = true := by
  unfold Disk.fileNames Disk.names at h
  split at h
  · rename_i folder hfolder
    rw [Text.mem_sorted, List.mem_filterMap] at h
    obtain ⟨p, -, h⟩ := h
    simp only [Option.ite_none_right_eq_some] at h
    have hchild := Position.nameIn?_eq_some_iff.1 h.2
    exact Position.isEntryName_of_names (Position.names_of_child? hchild)
  · simp at h

namespace Storage

variable {storage : Storage} {view : View} {folder name : String}

/-- A listed file stands directly in its folder. -/
theorem slash_not_mem_of_mem_fileNames (h : name ∈ (storage.fileNames folder).value view) :
    '/' ∉ name.toList := by
  cases storage with
  | folder root =>
    exact (isPlain_of_isEntryName (Disk.isEntryName_of_mem_fileNames h)).slashFree
  | archive handle =>
    simp only [fileNames, Lookup.value_bind, Lookup.value_archive?, Lookup.value_pure] at h
    cases hcontent : view.archive? handle with
    | none => simp [hcontent] at h
    | some content =>
      simp only [hcontent, Option.map_some, Option.getD_some, Archive.fileNames, Text.mem_sorted,
        List.mem_map] at h
      obtain ⟨entry, -, rfl⟩ := h
      exact Slash.slash_not_mem_last entry

/-- What was found stands at a slashed path below the root: it is that file of a folder tree, or the
entry of that name in an archive. -/
def Places (storage : Storage) (relative : String) : Found → Prop
  | .binary type =>
    match storage with
    | .folder root => type.origin = root.below relative ∧ type.entry = none
    | .archive handle => type.origin = handle.path ∧ type.entry = some relative
  | .source unit =>
    match storage, unit with
    | .folder root, .file path _ => path = root.below relative
    | .archive handle, .archiveEntry origin entry _ => origin = handle.path ∧ entry = relative
    | _, _ => False

theorem places_unit (storage : Storage) (relative stem text : String) :
    storage.Places relative (.source (storage.unit relative stem text)) := by
  cases storage with
  | folder root => exact rfl
  | archive handle => exact ⟨rfl, rfl⟩

theorem places_of_binary? {relative : String} {annotations : Option AnnotationPath} {a : Answer}
    (h : (storage.binary? relative annotations).value view = some a) :
    storage.Places relative a.found := by
  simp only [binary?, Lookup.value_bind, Lookup.value_pure, Option.map_eq_some_iff] at h
  obtain ⟨bytes, -, rfl⟩ := h
  cases storage with
  | folder root => exact ⟨rfl, rfl⟩
  | archive handle => exact ⟨rfl, rfl⟩

/-- A storage knows of no modules; its answers are marked by the location that asks it. -/
theorem module_of_binary? {relative : String} {annotations : Option AnnotationPath} {a : Answer}
    (h : (storage.binary? relative annotations).value view = some a) : a.module = none := by
  obtain ⟨type, rfl⟩ := exists_binary_of_binary? h
  rfl

theorem module_of_secondary? {type : String} {extensions : List String} {admits : String → Bool}
    {a : Answer} (h : (storage.secondary? folder type extensions admits).value view = some a) :
    a.module = none := by
  obtain ⟨entry, stem, text, -, rfl⟩ := exists_declares_of_secondary? h
  rfl

end Storage

/-- A filter lets a module through for a package when it is open to all, or when one of its
descriptors names the module and serves the package. -/
def ModuleFilter.Permits : ModuleFilter → String → String → Prop
  | .all, _, _ => True
  | .only modules, module, package =>
    ∃ m ∈ modules, m.name = module ∧ m.serves package = true

namespace ModuleImage

variable {image : ModuleImage} {view : View} {name : TypeName} {m : Option ModuleDescriptor}
  {module : String} {a : Answer}

/-- The class file of a type in the tree of a module. -/
def IsClassIn (image : ModuleImage) (name : TypeName) (module : String) (a : Answer) : Prop :=
  (∃ type, a.found = .binary type) ∧
    image.storage.Places (Slash.below module (name.path ++ classEnding)) a.found

/-- A source file directly in the folder that the package of a type has in the tree of a module. -/
def IsUnitIn (image : ModuleImage) (view : View) (name : TypeName) (module : String) (a : Answer) :
    Prop :=
  let folder := Slash.below module name.packagePath
  ∃ unit file, a.found = .source unit ∧ '/' ∉ file.toList ∧
    file ∈ (image.storage.fileNames folder).value view ∧
    image.storage.Places (Slash.below folder file) a.found

/-- The answer is marked with a module of the image and lies in the tree of that module. -/
structure StaysIn (image : ModuleImage) (view : View) (name : TypeName) (module : String)
    (a : Answer) : Prop where
  marked : a.module = some module
  listed : module ∈ image.modules.value view
  placed : image.IsClassIn name module a ∨ image.IsUnitIn view name module a

theorem isClassIn_of_typeIn? (h : (image.typeIn? (.binary name) module).value view = some a) :
    a.module = some module ∧ image.IsClassIn name module a := by
  simp only [typeIn?, Lookup.value_bind, Lookup.value_pure, Option.map_eq_some_iff] at h
  obtain ⟨b, hb, rfl⟩ := h
  have hplaces := Storage.places_of_binary? hb
  obtain ⟨type, rfl⟩ := Storage.exists_binary_of_binary? hb
  exact ⟨rfl, ⟨type, rfl⟩, hplaces⟩

theorem isUnitIn_of_secondaryIn? {extensions : List String}
    (h : (image.secondaryIn? name.simple name.packagePath extensions module).value view = some a) :
    a.module = some module ∧ image.IsUnitIn view name module a := by
  simp only [secondaryIn?, Lookup.value_bind, Lookup.value_pure, Option.map_eq_some_iff] at h
  obtain ⟨b, hb, rfl⟩ := h
  obtain ⟨file, stem, text, hdeclares, rfl⟩ := Storage.exists_declares_of_secondary? hb
  exact ⟨rfl, _, file, rfl, Storage.slash_not_mem_of_mem_fileNames hdeclares.listed,
    hdeclares.listed, image.storage.places_unit _ stem text⟩

/-- The class file comes from the module of the descriptor, or from any module without one. -/
theorem staysIn_of_type? (h : (image.type? (.binary name) m).value view = some a) :
    ∃ module, m.all (·.name = module) = true ∧ image.StaysIn view name module a := by
  obtain ⟨module, hlisted, hname, hin⟩ := exists_typeIn?_of_type? h
  obtain ⟨hmarked, hclass⟩ := isClassIn_of_typeIn? hin
  exact ⟨module, hname, hmarked, hlisted, Or.inl hclass⟩

end ModuleImage

namespace Location

variable {location : Location} {view : View} {name : TypeName} {m : Option ModuleDescriptor}
  {extensions : List String} {a : Answer}

/-- An answer of one location: marked with a module and inside its tree if it is an image, and
otherwise without any mark. -/
def Marks (location : Location) (view : View) (name : TypeName) (m : Option ModuleDescriptor)
    (a : Answer) : Prop :=
  match location with
  | .image l => ∃ module, m.all (·.name = module) = true ∧ l.StaysIn view name module a
  | .source _ | .classes _ | .archive _ => a.module = none

theorem marks_of_type?
    (h : (location.type? (location.paths name) m extensions).value view = some a) :
    location.Marks view name m a := by
  simp only [type?, Lookup.value_ite, Lookup.value_pure] at h
  split at h
  · cases location with
    | source folder =>
      obtain ⟨extension, -, -, rfl⟩ := SourceFolder.eq_of_type? h
      rfl
    | classes folder =>
      simp only [Lookup.value_bind, Lookup.value_pure, Option.map_eq_some_iff] at h
      obtain ⟨b, hb, rfl⟩ := h
      have hnone := Storage.module_of_binary? hb
      exact hnone
    | archive archive =>
      simp only [Lookup.value_bind, Lookup.value_pure, Option.map_eq_some_iff] at h
      obtain ⟨b, hb, rfl⟩ := h
      have hnone := Storage.module_of_binary? hb
      exact hnone
    | image image => exact ModuleImage.staysIn_of_type? h
  · simp at h

theorem marks_of_secondary?
    (h : (location.secondary? name.simple name.packagePath m extensions).value view = some a) :
    location.Marks view name m a := by
  simp only [secondary?, Lookup.value_ite, Lookup.value_pure] at h
  split at h
  · cases location with
    | source folder => exact Storage.module_of_secondary? h
    | classes folder =>
      simp only [Lookup.value_bind, Lookup.value_pure, Option.map_eq_some_iff] at h
      obtain ⟨b, hb, rfl⟩ := h
      have hnone := Storage.module_of_secondary? hb
      exact hnone
    | archive archive =>
      simp only [Lookup.value_bind, Lookup.value_pure, Option.map_eq_some_iff] at h
      obtain ⟨b, hb, rfl⟩ := h
      have hnone := Storage.module_of_secondary? hb
      exact hnone
    | image image =>
      simp only [Lookup.value_bind, Lookup.value_firstSome] at h
      obtain ⟨module, hmodule, h⟩ := List.exists_of_findSome?_eq_some h
      rw [ModuleImage.value_modulesFor, List.mem_filter] at hmodule
      obtain ⟨hmarked, hunit⟩ := ModuleImage.isUnitIn_of_secondaryIn? h
      exact ⟨module, hmodule.2, hmarked, hmodule.1, Or.inr hunit⟩
  · simp at h

/-- A module is let through under every descriptor that the filter admits for it. -/
theorem permits_of_admitted {filter : ModuleFilter} {module package : String}
    (hm : m ∈ (location.admitted filter).value view) (hname : m.all (·.name = module) = true)
    (hserves : m.all (·.serves package) = true) : filter.Permits module package := by
  cases filter with
  | all => trivial
  | only modules =>
    obtain ⟨descriptor, hmem, -, rfl⟩ := mem_admitted_only.1 hm
    exact ⟨descriptor, hmem, by simpa using hname, by simpa using hserves⟩

end Location

namespace Environment

variable {environment : Environment} {name : TypeName} {filter : ModuleFilter} {view : View}
  {location : Location} {a : Answer}

/-- The answer is one that a location can give to a query, in the scan or to the search of other
source files. -/
def Gives (environment : Environment) (name : TypeName) (filter : ModuleFilter) (view : View)
    (location : Location) (a : Answer) : Prop :=
  (environment.probe name filter location).value view = some a ∨
    ∃ m ∈ (location.admitted filter).value view,
      (location.secondary? name.simple name.packagePath m
        environment.options.sourceExtensions).value view = some a

theorem exists_gives_of_findType (h : (environment.findType name filter).value view = some a) :
    ∃ location ∈ environment.eligible filter view,
      environment.Gives name filter view location a := by
  rcases scan_or_fallback_of_findType h with hscan | hfallback
  · obtain ⟨location, heligible, hprobe⟩ := exists_probe_of_scan hscan
    exact ⟨location, heligible, Or.inl hprobe⟩
  · obtain ⟨location, heligible, m, hm, hsecondary⟩ :=
      exists_eligible_secondary_of_fallback hfallback
    exact ⟨location, heligible, Or.inr ⟨m, hm, hsecondary⟩⟩

/-- Whatever a location answers, by either lookup, it answers under one descriptor of the filter
that serves the package; an open unit is never marked. -/
theorem exists_marks_of_gives (h : environment.Gives name filter view location a) :
    (location.kind = .sourceFolder ∧ a.module = none) ∨
      ∃ m ∈ (location.admitted filter).value view, m.all (·.serves name.packagePath) = true ∧
        location.Marks view name m a := by
  rcases h with hprobe | ⟨m, hm, hsecondary⟩
  · rcases environment.probe_cases name location with ⟨folder, copy, rfl, hcopy⟩ | hopen
    · rw [environment.value_probe_of_open name filter view hcopy] at hprobe
      simp only [Option.ite_none_right_eq_some, Option.some.injEq] at hprobe
      obtain ⟨-, rfl⟩ := hprobe
      exact Or.inl ⟨rfl, rfl⟩
    · rw [environment.value_probe_of_not_open name filter view hopen] at hprobe
      obtain ⟨m, hm, htype⟩ := List.exists_of_findSome?_eq_some hprobe
      refine Or.inr ⟨m, hm, ?_, Location.marks_of_type? htype⟩
      rw [← location.package_paths name]
      exact Location.serves_of_type? htype
  · exact Or.inr ⟨m, hm, Location.serves_of_secondary? hsecondary,
      Location.marks_of_secondary? hsecondary⟩

theorem staysIn_of_gives {image : ModuleImage}
    (h : environment.Gives name filter view (.image image) a) :
    ∃ module, image.StaysIn view name module a ∧ filter.Permits module name.packagePath := by
  rcases exists_marks_of_gives h with ⟨hkind, -⟩ | ⟨m, hm, hserves, module, hname, hstays⟩
  · cases hkind
  · exact ⟨module, hstays, Location.permits_of_admitted hm hname hserves⟩

theorem module_eq_none_of_gives (hkind : location.kind ≠ .moduleImage)
    (h : environment.Gives name filter view location a) : a.module = none := by
  rcases exists_marks_of_gives h with ⟨-, hnone⟩ | ⟨m, -, -, hmarks⟩
  · exact hnone
  · cases location with
    | source folder => exact hmarks
    | classes folder => exact hmarks
    | archive archive => exact hmarks
    | image image => exact absurd rfl hkind

/-- Every answer comes from an eligible location. From an image it is marked with a module that the
filter lets through for the package, and lies in the tree of that module; from any other location,
also as an open unit, it is not marked. So a mark always tells an image and a module of it that the
answer lies in. -/
theorem findType_staysIn :
    (∀ a, (environment.findType name filter).value view = some a →
      ∃ location ∈ environment.eligible filter view,
        environment.Gives name filter view location a) ∧
    (∀ image a, environment.Gives name filter view (.image image) a →
      ∃ module, image.StaysIn view name module a ∧ filter.Permits module name.packagePath) ∧
    (∀ location a, location.kind ≠ .moduleImage →
      environment.Gives name filter view location a → a.module = none) ∧
    ∀ a module, (environment.findType name filter).value view = some a →
      a.module = some module →
      ∃ image, .image image ∈ environment.eligible filter view ∧
        image.StaysIn view name module a ∧ filter.Permits module name.packagePath := by
  refine ⟨fun a => exists_gives_of_findType, fun image a => staysIn_of_gives,
    fun location a => module_eq_none_of_gives, ?_⟩
  intro a module hfind hmodule
  obtain ⟨location, heligible, hgives⟩ := exists_gives_of_findType hfind
  by_cases hkind : location.kind = .moduleImage
  · cases location with
    | source folder => cases hkind
    | classes folder => cases hkind
    | archive archive => cases hkind
    | image image =>
      obtain ⟨other, hstays, hpermits⟩ := staysIn_of_gives hgives
      obtain rfl : other = module := Option.some.inj (hstays.marked.symm.trans hmodule)
      exact ⟨image, heligible, hstays, hpermits⟩
  · rw [module_eq_none_of_gives hkind hgives] at hmodule
    simp at hmodule

end Environment

end ClasspathLookup
