import ClasspathLookup.Proofs.MatchingEnvironments

/-!
# Locations seen alike

Two queries may see different disks and different archives. A location in one view and a location in
another are alike when they are set up alike, stand at the same place and hold the same there. They
then match as far as only these two views are concerned, and all that a query learns from them is the
same. Handles are compared by their path and content only, because their serial numbers belong to one
cache.
-/

namespace ClasspathLookup

def Storage.isPackaged : Storage → Bool
  | .folder _ => false
  | .archive _ => true

/-- Two storages, each in its view, answer every question alike and under the same path. -/
structure Storage.Alike (view : View) (storage : Storage) (view' : View) (storage' : Storage) :
    Prop where
  packaged : storage.isPackaged = storage'.isPackaged
  root : storage.root = storage'.root
  read : ∀ relative, (storage.read relative).value view = (storage'.read relative).value view'
  isFolder : ∀ relative,
    (storage.isFolder relative).value view = (storage'.isFolder relative).value view'
  fileNames : ∀ relative,
    (storage.fileNames relative).value view = (storage'.fileNames relative).value view'

/-- Two locations, each in its view, differ at most in the handle of an archive. -/
inductive Location.Alike (view view' : View) : Location → Location → Prop
  | source {folder : SourceFolder}
      (h : Storage.Alike view (.folder folder.root) view' (.folder folder.root)) :
      Alike view view' (.source folder) (.source folder)
  | classes {folder : ClassFolder}
      (h : Storage.Alike view (.folder folder.root) view' (.folder folder.root)) :
      Alike view view' (.classes folder) (.classes folder)
  | archive {archive : ClassArchive} {handle : ArchiveHandle}
      (h : Storage.Alike view (.archive archive.handle) view' (.archive handle)) :
      Alike view view' (.archive archive) (.archive { archive with handle := handle })
  | image {image : ModuleImage} {storage : Storage}
      (h : Storage.Alike view image.storage view' storage)
      (modules : image.modules.value view =
        ({ image with storage := storage } : ModuleImage).modules.value view') :
      Alike view view' (.image image) (.image { image with storage := storage })

namespace Storage.Alike

variable {view view' : View} {storage storage' : Storage}

theorem refl (view : View) (storage : Storage) : Storage.Alike view storage view storage :=
  ⟨rfl, rfl, fun _ => rfl, fun _ => rfl, fun _ => rfl⟩

/-- Of an archive only the path and the content count. -/
theorem of_archive {handle handle' : ArchiveHandle} (hpath : handle.path = handle'.path)
    (hcontent : view.archive? handle = view'.archive? handle') :
    Storage.Alike view (.archive handle) view' (.archive handle') := by
  refine ⟨rfl, hpath, fun _ => ?_, fun _ => ?_, fun _ => ?_⟩
  · simp only [Storage.read, Lookup.value_bind, Lookup.value_archive?, hcontent, Lookup.value_pure]
  · simp only [Storage.isFolder, Lookup.value_bind, Lookup.value_archive?, hcontent,
      Lookup.value_pure]
  · simp only [Storage.fileNames, Lookup.value_bind, Lookup.value_archive?, hcontent,
      Lookup.value_pure]

/-- Alike storages are one folder or two archives at one path. -/
theorem eq_or_archives (h : Storage.Alike view storage view' storage') :
    storage = storage' ∨ ∃ handle handle' : ArchiveHandle, storage = .archive handle ∧
      storage' = .archive handle' ∧ handle.path = handle'.path := by
  have hroot := h.root
  have hpackaged := h.packaged
  cases storage with
  | folder root =>
    cases storage' with
    | folder root' => exact Or.inl (congrArg Storage.folder hroot)
    | archive handle' => simp [isPackaged] at hpackaged
  | archive handle =>
    cases storage' with
    | folder root' => simp [isPackaged] at hpackaged
    | archive handle' => exact Or.inr ⟨handle, handle', rfl, rfl, hroot⟩

theorem matching (h : Storage.Alike view storage view' storage')
    (annotations : Option AnnotationPath) :
    Storage.Matches (.exact (.views view view')) storage annotations storage' annotations where
  read _ := Sides.views_agree_iff.2 (h.read _)
  isFolder _ := Sides.views_agree_iff.2 (h.isFolder _)
  fileNames _ := Sides.views_agree_iff.2 ⟨h.fileNames _, fun _ _ => trivial⟩
  unit stem text _ := by
    apply congrArg Found.source
    rcases h.eq_or_archives with rfl | ⟨handle, handle', rfl, rfl, hpath⟩
    · rfl
    · simp only [Storage.unit, hpath]
  classFile bytes _ := by
    apply congrArg Found.binary
    rcases h.eq_or_archives with rfl | ⟨handle, handle', rfl, rfl, hpath⟩
    · rfl
    · simp only [Storage.classFile, hpath]

end Storage.Alike

namespace Location.Alike

variable {view view' : View} {location location' : Location}

theorem refl (view : View) (location : Location) : Location.Alike view view location location := by
  cases location with
  | source folder => exact .source (.refl view _)
  | classes folder => exact .classes (.refl view _)
  | archive archive => exact .archive (.refl view _)
  | image image => exact .image (.refl view _) rfl

theorem matching (h : Location.Alike view view' location location') :
    location.Matches (.exact (.views view view')) location' := by
  cases h with
  | source h => exact .source (h.matching none)
  | classes h => exact .classes (h.matching none)
  | archive h => exact .archive (h.matching _)
  | image h modules =>
    exact .image (h.matching _) (Sides.views_agree_iff.2 ⟨modules, fun _ _ => trivial⟩)

theorem probe (h : Location.Alike view view' location location')
    {environment environment' : Environment}
    (hoverlay : environment'.overlay = environment.overlay)
    (hoptions : environment'.options = environment.options) (name : TypeName)
    (filter : ModuleFilter) :
    (environment.probe name filter location).value view =
      (environment'.probe name filter location').value view' :=
  Sides.views_agree_iff.1 (h.matching.probe hoverlay.symm hoptions.symm name filter)

end Location.Alike

end ClasspathLookup
