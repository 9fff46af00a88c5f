import ClasspathLookup.Location.Query

/-!
# What one location can answer

A source folder answers a name with one of its files and every other location with a class file. The
search of a package answers with a listed source file that declares the type and is named after
another one, so the two lookups of a location never give the same answer.
-/

namespace ClasspathLookup

namespace Storage

variable {storage : Storage} {view : View} {folder type name stem : String}
  {extensions : List String} {admits : String → Bool} {a : Answer}

theorem eq_of_sourceStem? (h : sourceStem? type extensions name = some stem) :
    stem ≠ type ∧ ∃ extension ∈ extensions, name = stem ++ "." ++ extension := by
  unfold sourceStem? at h
  split at h
  · rename_i before extension hcut
    split at h
    · rename_i hstem
      obtain rfl := Option.some.inj h
      refine ⟨hstem.1, extension, hstem.2, ?_⟩
      rw [← String.toList_inj, (Slash.toList_of_cutLast hcut).1]
      simp
    · simp at h
  · simp at h

theorem isWorkingCopy_unit (storage : Storage) (relative stem text : String) :
    (storage.unit relative stem text).isWorkingCopy = false := by
  cases storage <;> rfl

theorem exists_binary_of_binary? {annotations : Option AnnotationPath}
    (h : (storage.binary? name annotations).value view = some a) :
    ∃ type, a = ⟨.binary type, none, none⟩ := by
  simp only [binary?, Lookup.value_bind, Lookup.value_pure, Option.map_eq_some_iff] at h
  obtain ⟨bytes, -, rfl⟩ := h
  exact ⟨_, rfl⟩

/-- Putting a restriction or a module on an answer leaves what it found. -/
theorem exists_binary_of_map {annotations : Option AnnotationPath} {mark : Answer → Answer}
    (h : ((storage.binary? name annotations).value view).map mark = some a)
    (hmark : ∀ b, (mark b).found = b.found) :
    ∃ type, a.found = .binary type := by
  obtain ⟨b, hb, rfl⟩ := Option.map_eq_some_iff.1 h
  obtain ⟨type, rfl⟩ := exists_binary_of_binary? hb
  exact ⟨type, hmark _⟩

/-- A source file of a folder whose text declares a type that the file is not named after. -/
structure Declares (storage : Storage) (view : View) (folder type : String)
    (extensions : List String) (admits : String → Bool) (name stem text : String) : Prop where
  listed : name ∈ (storage.fileNames folder).value view
  named : sourceStem? type extensions name = some stem
  admitted : admits (Slash.below folder name) = true
  read : (storage.readText (Slash.below folder name)).value view = some text
  declared : type ∈ Declaration.declaredTypes text

theorem declaring?_eq_some_iff (hlisted : name ∈ (storage.fileNames folder).value view) :
    (storage.declaring? folder type extensions admits name).value view = some a ↔
      ∃ stem text, storage.Declares view folder type extensions admits name stem text ∧
        a = ⟨.source (storage.unit (Slash.below folder name) stem text), none, none⟩ := by
  unfold declaring?
  constructor
  · intro h
    split at h
    · cases h
    · rename_i stem hstem
      simp only [Lookup.value_ite, Lookup.value_bind, Lookup.value_pure,
        Option.ite_none_right_eq_some] at h
      obtain ⟨hadmitted, h⟩ := h
      split at h
      · cases h
      · rename_i text htext
        simp only [Lookup.value_ite, Lookup.value_pure, Option.ite_none_right_eq_some,
          Option.some.injEq] at h
        exact ⟨stem, text, ⟨hlisted, hstem, hadmitted, htext, h.1⟩, h.2.symm⟩
  · rintro ⟨stem, text, h, rfl⟩
    simp [h.named, h.admitted, h.read, h.declared]

theorem exists_declares_of_secondary?
    (h : (storage.secondary? folder type extensions admits).value view = some a) :
    ∃ name stem text, storage.Declares view folder type extensions admits name stem text ∧
      a = ⟨.source (storage.unit (Slash.below folder name) stem text), none, none⟩ := by
  simp only [secondary?, Lookup.value_bind, Lookup.value_firstSome] at h
  obtain ⟨name, hlisted, h⟩ := List.exists_of_findSome?_eq_some h
  obtain ⟨stem, text, hd, ha⟩ := (declaring?_eq_some_iff hlisted).1 h
  exact ⟨name, stem, text, hd, ha⟩

theorem exists_declares_of_map {mark : Answer → Answer}
    (h : ((storage.secondary? folder type extensions admits).value view).map mark = some a)
    (hmark : ∀ b, (mark b).found = b.found) :
    ∃ name stem text, storage.Declares view folder type extensions admits name stem text ∧
      a.found = .source (storage.unit (Slash.below folder name) stem text) := by
  obtain ⟨b, hb, rfl⟩ := Option.map_eq_some_iff.1 h
  obtain ⟨name, stem, text, hd, rfl⟩ := exists_declares_of_secondary? hb
  exact ⟨name, stem, text, hd, hmark _⟩

end Storage

theorem SourceFolder.eq_of_type? {folder : SourceFolder} {paths : TypePaths}
    {extensions : List String} {disk : Disk} {a : Answer}
    (h : folder.type? paths extensions disk = some a) :
    ∃ extension ∈ extensions, folder.admits (paths.qualified ++ "." ++ extension) = true ∧
      a = ⟨.source (.file (folder.root.below (paths.qualified ++ "." ++ extension))
        paths.fileName), none, none⟩ := by
  obtain ⟨extension, hmem, h⟩ := List.exists_of_findSome?_eq_some h
  simp only [Option.ite_none_right_eq_some, Bool.and_eq_true, Option.some.injEq] at h
  exact ⟨extension, hmem, h.1.1, h.2.symm⟩

/-- With or without a descriptor the answer comes from the tree of one module. -/
theorem ModuleImage.exists_typeIn?_of_type? {image : ModuleImage} {view : View} {paths : TypePaths}
    {m : Option ModuleDescriptor} {a : Answer} (h : (image.type? paths m).value view = some a) :
    ∃ module ∈ image.modules.value view, m.all (·.name = module) = true ∧
      (image.typeIn? paths module).value view = some a := by
  simp only [type?, Lookup.value_bind] at h
  cases m with
  | none =>
    simp only [Lookup.value_firstSome] at h
    obtain ⟨module, hlisted, h⟩ := List.exists_of_findSome?_eq_some h
    exact ⟨module, hlisted, rfl, h⟩
  | some descriptor =>
    simp only [Lookup.value_ite, Lookup.value_pure] at h
    split at h
    · rename_i hlisted
      exact ⟨descriptor.name, hlisted, by simp, h⟩
    · simp at h

theorem ModuleImage.exists_binary_of_type? {image : ModuleImage} {view : View} {paths : TypePaths}
    {m : Option ModuleDescriptor} {a : Answer} (h : (image.type? paths m).value view = some a) :
    ∃ type, a.found = .binary type := by
  obtain ⟨module, -, -, hin⟩ := exists_typeIn?_of_type? h
  simp only [typeIn?, Lookup.value_bind, Lookup.value_pure] at hin
  exact Storage.exists_binary_of_map hin fun _ => rfl

namespace Location

variable {location : Location} {view : View} {paths : TypePaths} {m : Option ModuleDescriptor}
  {extensions : List String} {type package : String} {a : Answer}

/-- Which source files the search of a package may look into. -/
def admitsFile : Location → String → Bool
  | .source folder => folder.admits
  | .classes _ | .archive _ | .image _ => fun _ => true

theorem exists_source_of_kind (h : location.kind = .sourceFolder) :
    ∃ folder, location = .source folder := by
  cases location with
  | source folder => exact ⟨folder, rfl⟩
  | classes folder => cases h
  | archive archive => cases h
  | image image => cases h

theorem eq_of_type?_source {folder : SourceFolder}
    (h : ((Location.source folder).type? paths m extensions).value view = some a) :
    folder.type? paths extensions view.disk = some a := by
  simp only [type?, Lookup.value_ite, Lookup.value_onDisk, Lookup.value_pure] at h
  split at h
  · exact h
  · simp at h

theorem exists_binary_of_type? (hkind : location.kind ≠ .sourceFolder)
    (h : (location.type? paths m extensions).value view = some a) :
    ∃ type, a.found = .binary type := by
  simp only [type?, Lookup.value_ite, Lookup.value_pure] at h
  split at h
  · cases location with
    | source folder => exact absurd rfl hkind
    | classes folder =>
      simp only [Lookup.value_bind, Lookup.value_pure] at h
      exact Storage.exists_binary_of_map h fun _ => rfl
    | archive archive =>
      simp only [Lookup.value_bind, Lookup.value_pure] at h
      exact Storage.exists_binary_of_map h fun _ => rfl
    | image image => exact image.exists_binary_of_type? h
  · simp at h

/-- What the search of a package gives is one of its source files, under the stem of the file. -/
theorem exists_declares_of_secondary?
    (h : (location.secondary? type package m extensions).value view = some a) :
    ∃ folder name stem text,
      location.storage.Declares view folder type extensions location.admitsFile name stem text ∧
      a.found = .source (location.storage.unit (Slash.below folder name) stem text) := by
  simp only [secondary?, Lookup.value_ite, Lookup.value_pure] at h
  split at h
  · cases location with
    | source folder =>
      obtain ⟨name, stem, text, hd, rfl⟩ := Storage.exists_declares_of_secondary? h
      exact ⟨package, name, stem, text, hd, rfl⟩
    | classes folder =>
      simp only [Lookup.value_bind, Lookup.value_pure] at h
      exact ⟨package, Storage.exists_declares_of_map h fun _ => rfl⟩
    | archive archive =>
      simp only [Lookup.value_bind, Lookup.value_pure] at h
      exact ⟨package, Storage.exists_declares_of_map h fun _ => rfl⟩
    | image image =>
      simp only [Lookup.value_bind, Lookup.value_firstSome] at h
      obtain ⟨module, -, h⟩ := List.exists_of_findSome?_eq_some h
      simp only [ModuleImage.secondaryIn?, Lookup.value_bind, Lookup.value_pure] at h
      exact ⟨Slash.below module package, Storage.exists_declares_of_map h fun _ => rfl⟩
  · simp at h

end Location

end ClasspathLookup
