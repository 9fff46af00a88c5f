import ClasspathLookup.Proofs.MatchingEnvironments

/-!
# Handles under other names

The serial number of a handle does no more than tell it from other handles. Locations that hold the
same archives under other handles match, so a query on them comes to the same result, and what it
asks for is what the first one asks for, handle by handle.
-/

namespace ClasspathLookup

/-- Which handle on one side is which on the other. -/
structure Renaming where
  names : ArchiveHandle → ArchiveHandle → Prop
  path_eq : ∀ {handle other}, names handle other → handle.path = other.path
  eq_iff : ∀ {handle other handle' other'}, names handle other → names handle' other' →
    (handle = handle' ↔ other = other')

/-- The two sides see one disk, and the same in handles that stand for one another. -/
structure View.Renamed (r : Renaming) (view view' : View) : Prop where
  disk : view.disk = view'.disk
  archive? : ∀ {handle other}, r.names handle other → view.archive? handle = view'.archive? other
  explodedModules : view.explodedModules = view'.explodedModules

inductive Need.Renamed (r : Renaming) : Need → Need → Prop
  | archive {handle other : ArchiveHandle} (h : r.names handle other) :
      Need.Renamed r (.archive handle) (.archive other)
  | explodedModules (image : ModuleImage) :
      Need.Renamed r (.explodedModules image) (.explodedModules image)

inductive Storage.Renamed (r : Renaming) : Storage → Storage → Prop
  | folder (root : Path) : Storage.Renamed r (.folder root) (.folder root)
  | archive {handle other : ArchiveHandle} (h : r.names handle other) :
      Storage.Renamed r (.archive handle) (.archive other)

inductive Location.Renamed (r : Renaming) : Location → Location → Prop
  | source (folder : SourceFolder) : Location.Renamed r (.source folder) (.source folder)
  | classes (folder : ClassFolder) : Location.Renamed r (.classes folder) (.classes folder)
  | archive {handle other : ArchiveHandle} (rules : AccessRules)
      (annotations : Option AnnotationPath) (scope : ModuleScope) (h : r.names handle other) :
      Location.Renamed r (.archive ⟨handle, rules, annotations, scope⟩)
        (.archive ⟨other, rules, annotations, scope⟩)
  | image {storage other : Storage} (annotations : Option AnnotationPath)
      (h : storage.Renamed r other) :
      Location.Renamed r (.image ⟨storage, annotations⟩) (.image ⟨other, annotations⟩)

structure Environment.Renamed (r : Renaming) (environment other : Environment) : Prop where
  overlay : environment.overlay = other.overlay
  options : environment.options = other.options
  locations : List.Forall₂ (Location.Renamed r) environment.locations.locations
    other.locations.locations

namespace Renaming

variable {r : Renaming}

/-- The two sides of a renaming: what is asked for on one is what is asked for on the other. -/
def sides (r : Renaming) : Sides where
  sees := View.Renamed r
  asks := List.Forall₂ (Need.Renamed r)
  asks_nil := .nil
  asks_append h h' := List.rel_append h h'

theorem agree_onDisk {α : Type} (f : Disk → α) : r.sides.Agree Eq (.onDisk f) (.onDisk f) := by
  apply Sides.Agree.onDisk
  intro view view' hview
  exact congrArg f (View.Renamed.disk hview)

theorem agree_archive? {handle other : ArchiveHandle} (h : r.names handle other) :
    r.sides.Agree Eq (.archive? handle) (.archive? other) := by
  intro view view' hview
  exact ⟨View.Renamed.archive? hview h, List.Forall₂.cons (.archive h) .nil⟩

theorem agree_explodedModules (image : ModuleImage) :
    r.sides.Agree Eq (.explodedModules image) (.explodedModules image) := by
  intro view view' hview
  exact ⟨congrFun (View.Renamed.explodedModules hview) image,
    List.Forall₂.cons (.explodedModules image) .nil⟩

end Renaming

namespace Storage.Renamed

variable {r : Renaming} {storage other : Storage}

theorem read (h : storage.Renamed r other) (relative : String) :
    r.sides.Agree Eq (storage.read relative) (other.read relative) := by
  cases h with
  | folder root => exact r.agree_onDisk _
  | archive h => exact (r.agree_archive? h).bind_eq fun _ => .pure rfl

theorem isFolder (h : storage.Renamed r other) (relative : String) :
    r.sides.Agree Eq (storage.isFolder relative) (other.isFolder relative) := by
  cases h with
  | folder root => exact r.agree_onDisk _
  | archive h => exact (r.agree_archive? h).bind_eq fun _ => .pure rfl

theorem fileNames (h : storage.Renamed r other) (relative : String) :
    r.sides.Agree Eq (storage.fileNames relative) (other.fileNames relative) := by
  cases h with
  | folder root => exact r.agree_onDisk _
  | archive h => exact (r.agree_archive? h).bind_eq fun _ => .pure rfl

/-- The module list of an exploded image is asked for under the image itself, which is then the same
on both sides. -/
theorem modules (h : storage.Renamed r other) (annotations : Option AnnotationPath) :
    r.sides.Agree Eq (⟨storage, annotations⟩ : ModuleImage).modules
      (⟨other, annotations⟩ : ModuleImage).modules := by
  cases h with
  | folder root => exact r.agree_explodedModules _
  | archive h => exact (r.agree_archive? h).bind_eq fun _ => .pure rfl

theorem matching (h : storage.Renamed r other) (annotations : Option AnnotationPath) :
    Storage.Matches (.exact r.sides) storage annotations other annotations where
  read _ := h.read _
  isFolder _ := h.isFolder _
  fileNames _ := (h.fileNames _).imp fun _ _ hnames => ⟨hnames, fun _ _ => trivial⟩
  unit stem text _ := by
    apply congrArg Found.source
    cases h with
    | folder root => rfl
    | archive h => simp only [Storage.unit, r.path_eq h]
  classFile bytes _ := by
    apply congrArg Found.binary
    cases h with
    | folder root => rfl
    | archive h => simp only [Storage.classFile, r.path_eq h]

end Storage.Renamed

namespace Location.Renamed

variable {r : Renaming} {location other : Location}

theorem key (h : Location.Renamed r location other) : location.key = other.key := by
  cases h with
  | source folder => rfl
  | classes folder => rfl
  | archive rules annotations scope h => simp only [Location.key, r.path_eq h]
  | image annotations h =>
    cases h with
    | folder root => rfl
    | archive h => simp only [Location.key, ModuleImage.key, Storage.root, r.path_eq h]

theorem matching (h : Location.Renamed r location other) :
    location.Matches (.exact r.sides) other := by
  cases h with
  | source folder => exact .source ((Storage.Renamed.folder folder.root).matching none)
  | classes folder => exact .classes ((Storage.Renamed.folder folder.root).matching none)
  | archive rules annotations scope h =>
    exact .archive ((Storage.Renamed.archive h).matching annotations)
  | image annotations h =>
    apply Location.Matches.image (h.matching annotations)
    exact (h.modules annotations).imp fun _ _ hmodules => ⟨hmodules, fun _ _ => trivial⟩

end Location.Renamed

theorem Environment.Renamed.matching {r : Renaming} {environment other : Environment}
    (h : environment.Renamed r other) : environment.Matches r.sides other :=
  ⟨h.overlay, h.options, h.locations.imp fun _ _ hlocation => hlocation.matching⟩

/-- A query comes to one reply on both sides and asks for the same handle by handle. -/
theorem Environment.Renamed.lookup {r : Renaming} {environment other : Environment}
    (h : environment.Renamed r other) (query : Query) {view view' : View}
    (hview : View.Renamed r view view') :
    (environment.lookup query).value view = (other.lookup query).value view' ∧
      List.Forall₂ (Need.Renamed r) ((environment.lookup query).needs view)
        ((other.lookup query).needs view') :=
  h.matching.lookup query view view' hview

end ClasspathLookup
