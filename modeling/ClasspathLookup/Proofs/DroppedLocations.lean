import ClasspathLookup.Proofs.Agreement
import ClasspathLookup.Proofs.SpareLocations

/-!
# Locations that a set drops

A set drops a location when one with its key is there already. On one disk the earlier one gives the
same answers, unless it is an image of the other backend. Then one of the two is without modules,
and if that is the earlier one, the modules of the later one are lost.
-/

namespace ClasspathLookup

namespace ModuleImage

variable {view : View}

/-- What stands at one path is a folder or an archive and not both. -/
theorem modules_eq_nil_or (hview : view.IsCurrent) {root : Path} {handle : ArchiveHandle}
    (h : root.steps = handle.path.steps) (annotations annotations' : Option AnnotationPath) :
    (modules ⟨.folder root, annotations⟩).value view = [] ∨
      (modules ⟨.archive handle, annotations'⟩).value view = [] := by
  by_cases hempty : view.disk.folderNames root = []
  · left
    simp only [modules, Lookup.value_explodedModules, hview.modules]
    exact hempty
  · right
    have hfolder : view.disk.isFolder handle.path = true := by
      rw [← Disk.isFolder_of_steps h]
      exact Disk.isFolder_of_names_ne_nil hempty
    have hnone : view.archive? handle = none := by
      rw [hview.archives, Archive.open?, Disk.file?_of_isFolder hfolder]
    simp [modules, hnone]

/-- The tree of a listed module is there. -/
theorem isFolder_of_mem_modules (hview : view.IsCurrent) {image : ModuleImage} {module : String}
    (h : module ∈ image.modules.value view) :
    (image.storage.isFolder module).value view = true := by
  obtain ⟨storage, annotations⟩ := image
  cases storage with
  | folder root =>
    simp only [modules, Lookup.value_explodedModules, hview.modules] at h
    have hlisted : module ∈ view.disk.names (root.below (Slash.join [])) Node.isFolder := by
      rw [Slash.join, root.below_empty]
      exact h
    have hroot : view.disk.isFolder root = true :=
      Disk.isFolder_of_names_ne_nil (List.ne_nil_of_mem h)
    obtain ⟨node, hfolder, hnode⟩ := (Disk.mem_names_below hroot allPlain_nil).1 hlisted
    have hplain : AllPlain [module] := Disk.allPlain_of_nodeBelow? hnode
    have hbelow := Disk.isFolder_below hroot hplain
    cases node with
    | file content => cases hfolder
    | folder => exact hbelow.trans (decide_eq_true hnode)
  | archive handle =>
    simp only [modules, Lookup.value_bind, Lookup.value_archive?, Lookup.value_pure] at h
    simp only [Storage.isFolder, Lookup.value_bind, Lookup.value_archive?, Lookup.value_pure]
    cases hcontent : view.archive? handle with
    | none => simp [hcontent] at h
    | some content =>
      rw [hcontent, Option.map_some, Option.getD_some, Archive.topFolders, Text.mem_sorted] at h
      simp [Archive.isFolder, (List.mem_filter.1 h).1]

end ModuleImage

namespace Location

/-- The later location is dropped for an earlier one that has nothing of what it has. -/
def Hides (view : View) (earlier later : Location) : Prop :=
  earlier.key = later.key ∧ ¬ later.IsSilent view ∧ earlier.IsSilent view

instance (view : View) (earlier later : Location) : Decidable (earlier.Hides view later) :=
  inferInstanceAs (Decidable (_ ∧ _ ∧ _))

variable {view : View} {location other : Location}

/-- Only images come with two backends. -/
theorem exists_images (hkey : location.key = other.key)
    (hbackend : location.storage.isPackaged ≠ other.storage.isPackaged) :
    ∃ image image', location = .image image ∧ other = .image image' := by
  have hkind : location.kind = other.kind := by rw [← key_kind, hkey, key_kind]
  cases location <;> cases other <;> simp_all [kind, storage, Storage.isPackaged]

theorem isSilent_or_of_backends (hview : view.IsCurrent) (hkey : location.key = other.key)
    (hbackend : location.storage.isPackaged ≠ other.storage.isPackaged) :
    location.IsSilent view ∨ other.IsSilent view := by
  obtain ⟨⟨storage, annotations⟩, ⟨storage', annotations'⟩, rfl, rfl⟩ :=
    exists_images hkey hbackend
  have hroot : storage.root.steps = storage'.root.steps := congrArg LocationKey.root hkey
  cases storage with
  | folder root =>
    cases storage' with
    | folder root' => exact absurd rfl hbackend
    | archive handle =>
      exact (ModuleImage.modules_eq_nil_or hview hroot annotations annotations').imp
        (fun h => ⟨rfl, h⟩) fun h => ⟨rfl, h⟩
  | archive handle =>
    cases storage' with
    | folder root =>
      exact (ModuleImage.modules_eq_nil_or hview hroot.symm annotations' annotations).symm.imp
        (fun h => ⟨rfl, h⟩) fun h => ⟨rfl, h⟩
    | archive handle' => exact absurd rfl hbackend

/-- An image with modules has the default package, which holds their trees. -/
theorem isPackage_of_not_isSilent (hview : view.IsCurrent) (hkind : location.kind = .moduleImage)
    (h : ¬ location.IsSilent view) : (location.isPackage "" none).value view = true := by
  cases location with
  | source folder => cases hkind
  | classes folder => cases hkind
  | archive archive => cases hkind
  | image image =>
    have hne : image.modules.value view ≠ [] := fun hnil => h ⟨rfl, hnil⟩
    obtain ⟨module, hmem⟩ := List.exists_mem_of_ne_nil _ hne
    have hbelow : Slash.below module "" = module := by
      unfold Slash.below
      split
      · rename_i hempty
        exact hempty.symm
      · rfl
    simp only [isPackage, ModuleImage.modulesFor, Lookup.value_bind, Lookup.value_any,
      Lookup.value_pure, Option.all_none, if_true, List.any_eq_true]
    refine ⟨module, by simpa using hmem, ?_⟩
    rw [hbelow]
    exact ModuleImage.isFolder_of_mem_modules hview hmem

/-- What is lost when the later location is dropped. -/
theorem Hides.isPackage {earlier later : Location} (h : earlier.Hides view later)
    (hview : view.IsCurrent) (environment : Environment) :
    ((environment.withLocations [earlier]).isPackage "" .all).value view = false ∧
      ((environment.withLocations [earlier, later]).isPackage "" .all).value view = true := by
  obtain ⟨hkey, hloud, hsilent⟩ := h
  have hkind : later.kind = .moduleImage := by rw [← key_kind, ← hkey, key_kind, hsilent.1]
  have hlater := isPackage_of_not_isSilent hview hkind hloud
  unfold Environment.isPackage
  rw [Lookup.value_any, Lookup.value_any]
  simp [Environment.withLocations, value_admitted, hsilent.isPackage, hlater]

end Location

namespace LocationSet

/-- The handles of the location are from the set's own cache. -/
def Owns (set : LocationSet) (location : Location) : Prop :=
  ∀ handle, location.storage = .archive handle →
    ∃ key, set.archives.handles.find? key = some handle

/-- Searching the set has the same results as searching all that it was offered. -/
def AnswersFor (set : LocationSet) (disk : Disk) (offered : List Location) : Prop :=
  ∀ environment : Environment, environment.locations = set →
    (∀ name filter, (environment.findType name filter).value (set.view disk) =
      ((environment.withLocations offered).findType name filter).value (set.view disk)) ∧
    ∀ package filter, (environment.isPackage package filter).value (set.view disk) =
      ((environment.withLocations offered).isPackage package filter).value (set.view disk)

/-- Pushes locations one after the other. -/
def pushAll (set : LocationSet) (locations : List Location) : LocationSet :=
  locations.foldl (fun set location => (set.push location).2) set

theorem archives_pushAll (set : LocationSet) (locations : List Location) :
    (set.pushAll locations).archives = set.archives := by
  induction locations generalizing set with
  | nil => rfl
  | cons location locations ih => exact (ih _).trans (set.archives_push location)

variable {set : LocationSet} {disk : Disk} {extensions : List String} {offered : List Location}
  {location other : Location}

theorem owns_of_find? {key : List String} {handle : ArchiveHandle}
    (hfind : set.archives.handles.find? key = some handle)
    (h : location.storage = .archive handle ∨ location.storage.isPackaged = false) :
    set.Owns location := by
  intro other hstorage
  rcases h with h | h
  · obtain rfl := Storage.archive.inj (h.symm.trans hstorage)
    exact ⟨key, hfind⟩
  · simp [hstorage, Storage.isPackaged] at h

/-- Two handles of one cache that have one path are one handle. -/
theorem sameRoot_of_key (hfiled : set.archives.IsFiled) (howns : set.Owns location)
    (howns' : set.Owns other) (hkey : location.key = other.key)
    (hbackend : location.storage.isPackaged = other.storage.isPackaged) :
    location.storage.SameRoot other.storage := by
  have hroot : location.storage.root.steps = other.storage.root.steps := by
    have hkeys := congrArg LocationKey.root hkey
    rwa [Location.key_root, Location.key_root] at hkeys
  cases hs : location.storage with
  | folder root =>
    cases hs' : other.storage with
    | folder root' =>
      rw [hs, hs'] at hroot
      exact .folder hroot
    | archive handle' => simp [hs, hs', Storage.isPackaged] at hbackend
  | archive handle =>
    cases hs' : other.storage with
    | folder root' => simp [hs, hs', Storage.isPackaged] at hbackend
    | archive handle' =>
      obtain ⟨key, hfind⟩ := howns handle hs
      obtain ⟨key', hfind'⟩ := howns' handle' hs'
      have hkeys : key = key' := by
        rw [← hfiled key handle hfind, ← hfiled key' handle' hfind']
        rw [hs, hs'] at hroot
        exact hroot
      obtain rfl : handle = handle' := by
        rw [hkeys, hfind'] at hfind
        exact (Option.some.inj hfind).symm
      exact .archive handle

namespace Run

theorem pushAll {disks : Disk → Prop} {start : LocationSet} (h : Run disks start offered set)
    (locations : List Location) :
    Run disks start (offered ++ locations) (set.pushAll locations) := by
  induction locations generalizing offered set with
  | nil => rwa [List.append_nil]
  | cons location locations ih =>
    rw [List.append_cons]
    exact ih (h.push location)

theorem isCurrent (h : Run (· = disk) { archiveExtensions := extensions } offered set) :
    (set.view disk).IsCurrent := by
  rw [h.grows.view]
  exact ⟨fun _ => rfl, fun _ => rfl⟩

theorem isFiled (h : Run (· = disk) { archiveExtensions := extensions } offered set) :
    set.archives.IsFiled :=
  h.grows.archives.isFiled fun _ _ hfind => by cases hfind

/-- Locations with one key are interchangeable, unless they are an exploded and a packaged image; of
these only one can have modules. -/
theorem interchangeable_or (h : Run (· = disk) { archiveExtensions := extensions } offered set)
    (howns : set.Owns location) (howns' : set.Owns other) (hkey : location.key = other.key) :
    location.Interchangeable (set.view disk) other ∨
      location.storage.isPackaged ≠ other.storage.isPackaged ∧
        (location.IsSilent (set.view disk) ∨ other.IsSilent (set.view disk)) := by
  by_cases hbackend : location.storage.isPackaged = other.storage.isPackaged
  · have hstorage := sameRoot_of_key h.isFiled howns howns' hkey hbackend
    exact Or.inl (Location.interchangeable_of_key h.isCurrent hkey hstorage)
  · exact Or.inr ⟨hbackend, Location.isSilent_or_of_backends h.isCurrent hkey hbackend⟩

/-- On one disk, and with handles of its own, a new set answers every query as if it had kept all
that it was offered, unless an image with modules comes after one of its key that has none. Such an
image is dropped for the other one, and its packages with it. -/
theorem answersFor (h : Run (· = disk) { archiveExtensions := extensions } offered set)
    (howns : ∀ location ∈ offered, set.Owns location) :
    (∀ earlier ∈ offered, ∀ later ∈ offered, earlier.key = later.key →
      earlier.Interchangeable (set.view disk) later ∨
        earlier.storage.isPackaged ≠ later.storage.isPackaged ∧
          (earlier.IsSilent (set.view disk) ∨ later.IsSilent (set.view disk))) ∧
    (offered.Pairwise (fun earlier later => ¬ earlier.Hides (set.view disk) later) →
      set.AnswersFor disk offered) ∧
    ∀ earlier later, earlier.Hides (set.view disk) later → ∀ environment : Environment,
      ((environment.withLocations [earlier]).isPackage "" .all).value (set.view disk) = false ∧
        ((environment.withLocations [earlier, later]).isPackage "" .all).value (set.view disk) =
          true := by
  have hkeys : ∀ earlier ∈ offered, ∀ later ∈ offered, earlier.key = later.key →
      earlier.Interchangeable (set.view disk) later ∨
        earlier.storage.isPackaged ≠ later.storage.isPackaged ∧
          (earlier.IsSilent (set.view disk) ∨ later.IsSilent (set.view disk)) :=
    fun earlier hearlier later hlater =>
      h.interchangeable_or (howns earlier hearlier) (howns later hlater)
  refine ⟨hkeys, ?_, fun earlier later hhides => hhides.isPackage h.isCurrent⟩
  intro hnone environment henvironment
  have hspare : offered.Pairwise fun earlier later => earlier.key = later.key →
      earlier.Interchangeable (set.view disk) later ∨ later.IsSilent (set.view disk) := by
    refine hnone.imp_of_mem fun {earlier later} hearlier hlater hhides hkey => ?_
    rcases hkeys earlier hearlier later hlater hkey with hsame | ⟨-, hsilent | hsilent⟩
    · exact Or.inl hsame
    · exact Or.inr (Classical.byContradiction fun hloud => hhides ⟨hkey, hloud, hsilent⟩)
    · exact Or.inr hsilent
  have hkept : environment.withLocations (Location.firsts [] offered) = environment := by
    rw [← h.locations rfl, ← henvironment]
    rfl
  have halike := Location.searchedAlike_firsts hspare []
  rw [List.append_nil, List.append_nil] at halike
  obtain ⟨htype, hpackage⟩ := halike environment
  rw [hkept] at htype hpackage
  exact ⟨fun name filter => (htype name filter).symm,
    fun package filter => (hpackage package filter).symm⟩

end Run

def packedEntries : List ArchiveEntry :=
  [⟨"m/q/Foo.class", some "foo".toUTF8⟩]

/-- An archive of one module beside a source folder. -/
def packedDisk : Disk :=
  (Disk.empty.put (.ofText "src") .folder).put (.ofText "lib.jar") (.file (.archive packedEntries))

def packedHandle : ArchiveHandle :=
  ⟨0, .ofText "lib.jar"⟩

/-- A new set that has given out the handle of the archive. -/
def handleSet : LocationSet :=
  ((build packedDisk [] ["jar"]).handle packedDisk (.ofText "lib.jar")).2

theorem handleSet_run (locations : List Location) :
    Run (· = packedDisk) { archiveExtensions := ["jar"] } locations
      (handleSet.pushAll locations) := by
  have hhandle : Run (· = packedDisk) { archiveExtensions := ["jar"] } [] handleSet :=
    .handle _ rfl .start
  exact hhandle.pushAll locations

/-- Locations that need no handle but this one are owned. -/
theorem handleSet_owns {locations : List Location}
    (h : ∀ location ∈ locations, location.storage = .archive packedHandle ∨
      location.storage.isPackaged = false) :
    ∀ location ∈ locations, (handleSet.pushAll locations).Owns location := by
  have hfind : (handleSet.pushAll locations).archives.handles.find? ["lib.jar"] =
      some packedHandle := by
    rw [archives_pushAll]
    decide +kernel
  exact fun location hmem => owns_of_find? hfind (h location hmem)

def explodedImage : Location :=
  .image ⟨.folder (.ofText "lib.jar"), none⟩

def packagedImage : Location :=
  .image ⟨.archive packedHandle, none⟩

/-- A source folder and an archive under two spellings, and an image with both backends. -/
def spelledTwice : List Location :=
  [.source ⟨.ofText "src", [], [], .all⟩, .source ⟨.ofText "./src/", [], [], .all⟩,
    .archive ⟨packedHandle, {}, some ⟨"notes"⟩, .all⟩,
    .archive ⟨packedHandle, {}, some ⟨"notes/"⟩, .all⟩, packagedImage, explodedImage]

/-- Three of six locations are dropped without effect. -/
theorem answersFor_spelledTwice :
    (∀ location ∈ spelledTwice, (handleSet.pushAll spelledTwice).Owns location) ∧
    (handleSet.pushAll spelledTwice).locations.length = 3 ∧
    (handleSet.pushAll spelledTwice).AnswersFor packedDisk spelledTwice := by
  have howns : ∀ location ∈ spelledTwice, (handleSet.pushAll spelledTwice).Owns location :=
    handleSet_owns (by decide +kernel)
  refine ⟨howns, by decide +kernel, ?_⟩
  exact ((handleSet_run spelledTwice).answersFor howns).2.1 (by decide +kernel)

/-- The same image with its backends the other way round. -/
def explodedFirst : List Location :=
  [explodedImage, packagedImage]

theorem explodedImage_hides :
    explodedImage.Hides ((handleSet.pushAll explodedFirst).view packedDisk) packagedImage := by
  refine ⟨rfl, ?_, by decide +kernel⟩
  rintro ⟨-, hnil⟩
  have hmodules : packagedImage.imageModules.value
      ((handleSet.pushAll explodedFirst).view packedDisk) =
        (Archive.ofEntries packedEntries).topFolders := rfl
  have hmem : "m" ∈ (Archive.ofEntries packedEntries).topFolders := by
    rw [Archive.topFolders, Text.mem_sorted, List.mem_filter, String.contains_char_eq]
    decide +kernel
  rw [← hmodules, hnil] at hmem
  exact List.not_mem_nil hmem

/-- The exploded image is kept, in which nothing is found. -/
theorem not_forall_answersFor :
    ¬ ∀ disk extensions offered set,
      Run (· = disk) { archiveExtensions := extensions } offered set →
      (∀ location ∈ offered, set.Owns location) → set.AnswersFor disk offered := by
  intro hanswers
  have hrun := handleSet_run explodedFirst
  have howns : ∀ location ∈ explodedFirst, (handleSet.pushAll explodedFirst).Owns location :=
    handleSet_owns (by decide +kernel)
  have hsame := (hanswers _ _ _ _ hrun howns
    (.create (handleSet.pushAll explodedFirst) [] {}) rfl).2 "" .all
  have hfound := (explodedImage_hides.isPackage hrun.isCurrent
    (.create (handleSet.pushAll explodedFirst) [] {})).2
  rw [explodedFirst] at hsame hfound
  rw [hfound] at hsame
  exact absurd hsame (by decide +kernel)

end LocationSet

end ClasspathLookup
