import ClasspathLookup.Proofs.FileTree
import ClasspathLookup.Proofs.MatchingLocations

/-!
# Locations with one key

Two locations have one key when they are set up alike and their roots, as well as their annotation
paths, lead along the same steps. If both read folders or both read one archive, they match in all
that has a dot in its name, as every file has that is looked for: every question has the same answer
in both, and only the annotation path of a class file may be spelled in two ways. The key does not
tell an exploded image from a packaged one.
-/

namespace ClasspathLookup

namespace Slash

/-- What is no separator stands in a segment. -/
theorem exists_mem_splitChars {sep c : Char} {cs : List Char} (hc : c ∈ cs) (hne : c ≠ sep) :
    ∃ segment ∈ splitChars sep cs, c ∈ segment := by
  induction cs with
  | nil => exact absurd hc List.not_mem_nil
  | cons first cs ih =>
    unfold splitChars
    split
    · rename_i hfirst
      have hrest : c ∈ cs := List.mem_of_ne_of_mem (hfirst ▸ hne) hc
      obtain ⟨segment, hmem, hin⟩ := ih hrest
      exact ⟨segment, List.mem_cons_of_mem _ hmem, hin⟩
    · split
      · rename_i hs
        exact absurd hs (splitChars_ne_nil sep cs)
      · rename_i segment rest hs
        rcases List.mem_cons.1 hc with rfl | hrest
        · exact ⟨c :: segment, List.mem_cons_self, List.mem_cons_self⟩
        · obtain ⟨other, hmem, hin⟩ := ih hrest
          rw [hs] at hmem
          rcases List.mem_cons.1 hmem with rfl | hmem
          · exact ⟨first :: other, List.mem_cons_self, List.mem_cons_of_mem _ hin⟩
          · exact ⟨other, List.mem_cons_of_mem _ hmem, hin⟩

/-- A text with a dot has a segment that is not empty. -/
theorem filter_split_ne_nil {text : String} (h : '.' ∈ text.toList) :
    (split text).filter (· ≠ "") ≠ [] := by
  obtain ⟨segment, hmem, hin⟩ := exists_mem_splitChars h (show '.' ≠ '/' by decide)
  have hne : segment ≠ [] := List.ne_nil_of_mem hin
  refine List.ne_nil_of_mem (List.mem_filter.2 ⟨List.mem_map_of_mem hmem, ?_⟩)
  simpa using hne

theorem mem_toList_below {folder rest : String} {c : Char} (h : c ∈ rest.toList) :
    c ∈ (below folder rest).toList := by
  unfold below
  split
  · exact h
  · split
    · rename_i hrest
      simp [hrest] at h
    · simp [h]

end Slash

namespace Path

variable {root root' : Path}

theorem steps_below (h : root.steps = root'.steps) (relative : String) :
    (root.below relative).steps = (root'.below relative).steps := by
  simp only [below, h]

/-- A file name with an extension is something below the folder, and then it does not matter how
the path of the folder ends. -/
theorem below_of_dot (h : root.steps = root'.steps) {relative : String}
    (hdot : '.' ∈ relative.toList) : root.below relative = root'.below relative := by
  obtain ⟨last, hlast⟩ := Option.isSome_iff_exists.1
    (List.getLast?_isSome.2 (Slash.filter_split_ne_nil hdot))
  simp only [below, h, hlast, Option.map_some, Option.getD_some]

end Path

namespace Disk

variable {disk : Disk} {path path' : Path}

theorem isFolder_of_steps (h : path.steps = path'.steps) :
    disk.isFolder path = disk.isFolder path' := by
  rw [Bool.eq_iff_iff, isFolder_iff, isFolder_iff]
  simp only [find?_eq_folder_iff, h]

theorem file?_of_isFolder (h : disk.isFolder path = true) : disk.file? path = none := by
  obtain ⟨place, hfind⟩ := isFolder_iff.1 h
  rw [file?, hfind]

theorem isFolder_of_names_ne_nil {wanted : Node → Bool} (h : disk.names path wanted ≠ []) :
    disk.isFolder path = true := by
  unfold names at h
  split at h
  · rename_i position hfind
    exact isFolder_iff.2 ⟨_, hfind⟩
  · exact absurd rfl h

theorem names_of_steps (h : path.steps = path'.steps) (wanted : Node → Bool) :
    disk.names path wanted = disk.names path' wanted := by
  have hnone : ∀ {path}, ¬ disk.isFolder path = true → disk.names path wanted = [] :=
    fun hnot => Classical.byContradiction fun hne => hnot (isFolder_of_names_ne_nil hne)
  by_cases hfolder : disk.isFolder path = true
  · obtain ⟨place, hfind⟩ := isFolder_iff.1 hfolder
    have hfind' : disk.find? path' = some (place, .folder) := by
      rw [find?_eq_folder_iff] at hfind ⊢
      rwa [← h]
    simp only [names, hfind, hfind']
  · rw [hnone hfolder, hnone (isFolder_of_steps h ▸ hfolder)]

end Disk

/-- The view shows what the disk holds now. -/
structure View.IsCurrent (view : View) : Prop where
  archives : ∀ handle, view.archive? handle = Archive.open? view.disk handle.path
  modules : ∀ image, view.explodedModules image = view.disk.folderNames image.storage.root

/-- What is found is the same but for the spelling of an annotation path. -/
inductive Found.SameAs : Found → Found → Prop
  | source (unit : SourceUnit) : SameAs (.source unit) (.source unit)
  | binary {type : BinaryType} {annotations : Option AnnotationPath}
      (h : type.annotations.map AnnotationPath.key = annotations.map AnnotationPath.key) :
      SameAs (.binary type) (.binary { type with annotations := annotations })

theorem Found.SameAs.refl (found : Found) : found.SameAs found := by
  cases found with
  | source unit => exact .source unit
  | binary type => exact .binary rfl

theorem Answer.rel_sameAs_refl (a : Option Answer) :
    Option.Rel (Answer.SameUpTo Found.SameAs) a a := by
  cases a with
  | none => exact .none
  | some a => exact .some ⟨.refl a.found, rfl, rfl⟩

/-- Files are looked for by names with a dot in them. A class file may have its annotation path
spelled in two ways. -/
def Comparison.spelled (view : View) : Comparison where
  toSides := .views view view
  source := Eq
  binary := Found.SameAs
  folder _ := True
  file relative := '.' ∈ relative.toList
  name _ := True
  folder_below _ _ := trivial
  file_below _ hdot := Slash.mem_toList_below hdot
  file_of_name _ _ hdot := Slash.mem_toList_below hdot

namespace Comparison

theorem sameAs_of_same_spelled {view : View} {kind : LocationKind} {found found' : Found}
    (h : (spelled view).same kind found found') : found.SameAs found' := by
  cases kind with
  | sourceFolder =>
    obtain rfl : found = found' := h
    exact .refl found
  | classFolder => exact h
  | archive => exact h
  | moduleImage => exact h

end Comparison

/-- Two folders along the same steps, or one archive. -/
inductive Storage.SameRoot : Storage → Storage → Prop
  | folder {root root' : Path} (h : root.steps = root'.steps) :
      SameRoot (.folder root) (.folder root')
  | archive (handle : ArchiveHandle) : SameRoot (.archive handle) (.archive handle)

namespace Storage.SameRoot

variable {view : View} {storage storage' : Storage}

theorem isFolder (h : storage.SameRoot storage') (relative : String) :
    (storage.isFolder relative).value view = (storage'.isFolder relative).value view := by
  cases h with
  | folder h => exact Disk.isFolder_of_steps (Path.steps_below h relative)
  | archive handle => rfl

theorem fileNames (h : storage.SameRoot storage') (relative : String) :
    (storage.fileNames relative).value view = (storage'.fileNames relative).value view := by
  cases h with
  | folder h => exact Disk.names_of_steps (Path.steps_below h relative) Node.isFile
  | archive handle => rfl

theorem read (h : storage.SameRoot storage') {relative : String}
    (hdot : '.' ∈ relative.toList) :
    (storage.read relative).value view = (storage'.read relative).value view := by
  cases h with
  | folder h => simp only [Storage.read, Path.below_of_dot h hdot]
  | archive handle => rfl

theorem matching (h : storage.SameRoot storage') {annotations annotations' : Option AnnotationPath}
    (hannotations : annotations.map AnnotationPath.key = annotations'.map AnnotationPath.key) :
    Storage.Matches (.spelled view) storage annotations storage' annotations' where
  read hdot := Sides.views_agree_iff.2 (h.read hdot)
  isFolder _ := Sides.views_agree_iff.2 (h.isFolder _)
  fileNames _ := Sides.views_agree_iff.2 ⟨h.fileNames _, fun _ _ => trivial⟩
  unit stem text hdot := by
    apply congrArg Found.source
    cases h with
    | folder h => simp only [Storage.unit, Path.below_of_dot h hdot]
    | archive handle => rfl
  classFile bytes hdot := by
    cases h with
    | folder h =>
      simp only [Storage.classFile, Path.below_of_dot h hdot]
      exact .binary hannotations
    | archive handle => exact .binary hannotations

/-- The two images list the same modules. -/
theorem modules_eq {image image' : ModuleImage} (h : image.storage.SameRoot image'.storage)
    (hview : view.IsCurrent) : image.modules.value view = image'.modules.value view := by
  obtain ⟨storage, annotations⟩ := image
  obtain ⟨storage', annotations'⟩ := image'
  cases h with
  | folder h =>
    simp only [ModuleImage.modules, Lookup.value_explodedModules, hview.modules]
    exact Disk.names_of_steps h Node.isFolder
  | archive handle => rfl

end Storage.SameRoot

theorem TypeName.dot_mem_qualified (name : TypeName) :
    '.' ∈ (TypePaths.binary name).qualified.toList := by
  simp [TypePaths.binary, classEnding]

namespace Location

variable {location other : Location} {view : View}

/-- Beside the key it only matters that both read folders or both read one archive. -/
theorem matches_of_key (hview : view.IsCurrent) (hkey : location.key = other.key)
    (hstorage : location.storage.SameRoot other.storage) :
    location.Matches (.spelled view) other := by
  cases location with
  | source folder =>
    cases other with
    | source folder' =>
      obtain ⟨root', inclusion, exclusion, scope⟩ := folder'
      simp only [key, LocationKey.mk.injEq] at hkey
      obtain ⟨-, -, -, rfl, rfl, -, rfl⟩ := hkey
      exact .source (hstorage.matching rfl)
    | _ => simp [key, ModuleImage.key] at hkey
  | classes folder =>
    cases other with
    | classes folder' =>
      obtain ⟨root', rules, scope⟩ := folder'
      simp only [key, LocationKey.mk.injEq] at hkey
      obtain ⟨-, -, rfl, -, -, -, rfl⟩ := hkey
      exact .classes (hstorage.matching rfl)
    | _ => simp [key, ModuleImage.key] at hkey
  | archive archive =>
    cases other with
    | archive archive' =>
      obtain ⟨handle', rules, annotations, scope⟩ := archive'
      simp only [key, LocationKey.mk.injEq] at hkey
      obtain ⟨-, -, rfl, -, -, hannotations, rfl⟩ := hkey
      exact .archive (hstorage.matching hannotations)
    | _ => simp [key, ModuleImage.key] at hkey
  | image image =>
    cases other with
    | image image' =>
      simp only [key, ModuleImage.key, LocationKey.mk.injEq] at hkey
      apply Matches.image (hstorage.matching hkey.2.2.2.2.2.1)
      exact Sides.views_agree_iff.2 ⟨hstorage.modules_eq hview, fun _ _ => trivial⟩
    | _ => simp [key, ModuleImage.key] at hkey

/-- Whatever is asked of the two locations, they give the same answer. -/
structure Interchangeable (view : View) (location other : Location) : Prop where
  kind : location.kind = other.kind
  servesModule : ∀ module,
    (location.servesModule module).value view = (other.servesModule module).value view
  type? : ∀ (name : TypeName) (m : Option ModuleDescriptor) (extensions : List String),
    Option.Rel (Answer.SameUpTo Found.SameAs)
      ((location.type? (location.paths name) m extensions).value view)
      ((other.type? (other.paths name) m extensions).value view)
  secondary? : ∀ (type package : String) (m : Option ModuleDescriptor) (extensions : List String),
    (location.secondary? type package m extensions).value view =
      (other.secondary? type package m extensions).value view
  isPackage : ∀ (package : String) (m : Option ModuleDescriptor),
    (location.isPackage package m).value view = (other.isPackage package m).value view

/-- All files of a type have a dot in their names. -/
theorem covers_spelled (location : Location) (name : TypeName) :
    (Comparison.spelled view).Covers location.kind (location.paths name) := by
  cases location with
  | source folder =>
    intro extension
    simp [Comparison.spelled]
  | classes folder => exact name.dot_mem_qualified
  | archive archive => exact name.dot_mem_qualified
  | image image => exact name.dot_mem_qualified

theorem interchangeable_of_key (hview : view.IsCurrent) (hkey : location.key = other.key)
    (hstorage : location.storage.SameRoot other.storage) :
    location.Interchangeable view other := by
  have hkind : location.kind = other.kind := by
    rw [← location.key_kind, ← other.key_kind, hkey]
  have hmatches := matches_of_key hview hkey hstorage
  refine ⟨hkind, ?_, ?_, ?_, ?_⟩
  · intro module
    exact Sides.views_agree_iff.1 (hmatches.servesModule module)
  · intro name m extensions
    rw [← hmatches.paths name]
    have htype :=
      Sides.views_agree_iff.1 (hmatches.type? (covers_spelled location name) m extensions)
    exact Answer.rel_sameUpTo_imp htype fun _ _ => Comparison.sameAs_of_same_spelled
  · intro type package m extensions
    rw [← Answer.rel_sameUpTo_eq_iff]
    exact Sides.views_agree_iff.1 (hmatches.secondary? trivial type m extensions)
  · intro package m
    exact Sides.views_agree_iff.1 (hmatches.isPackage trivial m)

end Location

end ClasspathLookup
