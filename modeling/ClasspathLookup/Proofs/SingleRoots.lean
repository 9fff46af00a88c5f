import ClasspathLookup.Proofs.OfferedLocations
import ClasspathLookup.Proofs.PathSpellings
import ClasspathLookup.Proofs.SameKey

/-!
# The location of a single root

A root is classified by its name, by its role and by what is on the disk. A folder is a location of
its own, a file is one if it can be read as an archive and is named as an archive or an image, and
nothing else gives a location. The name decides before the disk is looked at, with an effect that
the classification does not mean: a folder named as an archive is tried as a file, and is lost.
-/

namespace ClasspathLookup

theorem Position.eq_of_names {position other : Position} (h : position.names = other.names) :
    position = other := by
  obtain ⟨names, valid⟩ := position
  obtain ⟨names', valid'⟩ := other
  obtain rfl : names = names' := h
  rfl

namespace Disk

variable {disk : Disk} {place : Place} {path : Path}

/-- The straight way to a position leads through its parent. -/
theorem walk?_parent {position : Position} (hne : position.names ≠ [])
    (h : disk.walk? position.names = some (.at position)) :
    disk.walk? position.parent.names = some (.at position.parent) := by
  obtain ⟨folder, name, hnames⟩ := (List.eq_nil_or_concat' position.names).resolve_left hne
  have hparent : position.parent.names = folder := by
    change position.names.dropLast = folder
    rw [hnames, List.dropLast_concat]
  have hname : isEntryName name = true :=
    Position.isEntryName_of_names (hnames.trans (by rw [hparent]))
  rw [hnames, ← hparent, walk?_concat, Option.bind_eq_some_iff] at h
  obtain ⟨middle, hmiddle, henter⟩ := h
  obtain ⟨above, child, node, rfl, -, hchild, hsame, -⟩ :=
    (enter?_eq_some_iff (isPlain_of_isEntryName hname)).1 henter
  obtain rfl : position = child := Place.at.inj hsame
  rw [Position.child?_eq_some_iff, hnames] at hchild
  rw [hmiddle, Position.eq_of_names (hparent.trans (List.append_inj_left' hchild rfl))]

/-- The straight way to a place that some steps lead to leads there as well. -/
theorem walk?_path {steps : List String} (h : disk.walk? steps = some place) :
    disk.walk? place.path.steps = some place := by
  induction steps using List.reverseRecOn generalizing place with
  | nil =>
    obtain rfl := Option.some.inj h
    rfl
  | append_singleton steps step ih =>
    rw [walk?_concat, Option.bind_eq_some_iff] at h
    obtain ⟨before, hbefore, henter⟩ := h
    have hwalk := ih hbefore
    have hentered := henter
    unfold enter? at henter
    split at henter
    · rename_i hfolder
      split at henter
      · rename_i hup
        obtain rfl := Option.some.inj henter
        cases before with
        | above => exact hwalk
        | «at» position =>
          by_cases hroot : position.names = []
          · obtain rfl : position = .root := Position.eq_of_names hroot
            rw [hup] at hentered
            exact (walk?_concat disk [] "..").trans hentered
          · rw [Place.up, if_neg hroot]
            exact walk?_parent hroot hwalk
      · cases before with
        | above => cases henter
        | «at» position =>
          obtain ⟨hplace, -⟩ := Option.filter_eq_some_iff.1 henter
          obtain ⟨child, hchild, rfl⟩ := Option.map_eq_some_iff.1 hplace
          rw [Place.path, Position.names_of_child? hchild, walk?_concat]
          rw [Place.path] at hwalk
          rw [hwalk, Option.bind_some, hentered]
    · cases henter

/-- A file is found by its canonical path as well. -/
theorem file?_keyPath (h : disk.isFile path = true) :
    disk.file? (ArchiveCache.keyPath disk path) = disk.file? path := by
  obtain ⟨content, hfile⟩ := Option.isSome_iff_exists.1 h
  obtain ⟨hkind, place, hwalk, hnode⟩ := file?_eq_some_iff.1 hfile
  have hfind : disk.find? path = some (place, .file content) :=
    find?_eq_some_iff.2 ⟨hwalk, hnode, by rw [hkind, Bool.false_and]⟩
  have hkey : ArchiveCache.keyPath disk path = place.path := by
    rw [ArchiveCache.keyPath, canonical?, hfind]
    rfl
  rw [hfile, hkey]
  refine file?_eq_some_iff.2 ⟨?_, place, walk?_path hwalk, hnode⟩
  cases place <;> rfl

end Disk

theorem Archive.open?_keyPath {disk : Disk} {path : Path} (h : disk.isFile path = true) :
    Archive.open? disk (ArchiveCache.keyPath disk path) = Archive.open? disk path := by
  unfold Archive.open?
  rw [Disk.file?_keyPath h]

/-- What can be read as an archive is a file. -/
theorem Archive.isFile_of_open? {disk : Disk} {path : Path}
    (h : (Archive.open? disk path).isSome = true) :
    disk.isFile path = true ∧ disk.isFolder path = false := by
  have hfile : disk.file? path ≠ none := by
    intro hnone
    rw [Archive.open?, hnone] at h
    cases h
  refine ⟨Option.isSome_iff_ne_none.2 hfile, ?_⟩
  by_contra hfolder
  exact hfile (Disk.file?_of_isFolder (Bool.not_eq_false _ ▸ hfolder))

/-- What a plan comes to when no archive has a handle yet. -/
def RootPlan.located (plan : RootPlan) (disk : Disk) (path : Path) : Option Location :=
  match plan with
  | .settled location => location
  | .archived make =>
    (Archive.open? disk path).map fun _ => make ⟨0, ArchiveCache.keyPath disk path⟩

namespace ClasspathRoot

variable (root : ClasspathRoot) (disk : Disk) (archiveExtensions : List String)

/-- What the root points at is there: a folder, or a file that can be read as an archive and is
named as an archive or as an image. -/
def IsThere : Prop :=
  disk.isFolder root.path = true ∨
    disk.isFile root.path = true ∧ (Archive.open? disk root.path).isSome = true ∧
      (root.path.namesArchive archiveExtensions = true ∨ root.path.namesImage = true)

/-- A folder with the name of an archive. -/
def MisnamesFolder : Prop :=
  disk.isFolder root.path = true ∧ root.path.namesArchive archiveExtensions = true ∧
    root.path.namesImage = false

/-- The kind of location that the name and the role of the root ask for. -/
def kind : LocationKind :=
  if root.path.namesImage then .moduleImage
  else if root.path.namesArchive archiveExtensions then .archive
  else
    match root.role with
    | .source => .sourceFolder
    | .binary => .classFolder

/-- Where the location of the root is read: in the folder, or else in the first archive of a new
cache. -/
def storage : Storage :=
  if disk.isFolder root.path then .folder root.path
  else .archive ⟨0, ArchiveCache.keyPath disk root.path⟩

/-- The name is looked at first. A folder is a location at once, unless it has the name of an archive;
then it is tried like a file, as is all else that is named as an archive or an image. -/
theorem plan_cases :
    (∃ location, root.plan disk archiveExtensions = .settled (some location) ∧
      disk.isFolder root.path = true ∧ ¬ root.MisnamesFolder disk archiveExtensions ∧
      location.kind = root.kind archiveExtensions ∧ location.storage = .folder root.path) ∨
    (∃ make, root.plan disk archiveExtensions = .archived make ∧
      (disk.isFolder root.path = true → root.MisnamesFolder disk archiveExtensions) ∧
      (root.path.namesArchive archiveExtensions = true ∨ root.path.namesImage = true) ∧
      ∀ handle, (make handle).kind = root.kind archiveExtensions ∧
        (make handle).storage = .archive handle) ∨
    root.plan disk archiveExtensions = .settled none ∧ disk.isFolder root.path = false ∧
      root.path.namesArchive archiveExtensions = false ∧ root.path.namesImage = false := by
  unfold plan kind MisnamesFolder
  by_cases himage : root.path.namesImage = true
  · by_cases hfolder : disk.isFolder root.path = true
    · exact Or.inl ⟨_, by rw [if_pos himage, if_pos hfolder], hfolder, by simp [himage],
        by rw [if_pos himage]; rfl, rfl⟩
    · exact Or.inr (Or.inl ⟨_, by rw [if_pos himage, if_neg hfolder], fun h => absurd h hfolder,
        Or.inr himage, fun handle => ⟨by rw [if_pos himage]; rfl, rfl⟩⟩)
  · rw [if_neg himage, if_neg himage]
    by_cases harchive : root.path.namesArchive archiveExtensions = true
    · rw [if_pos harchive, if_pos harchive]
      exact Or.inr (Or.inl ⟨_, rfl, fun hfolder => ⟨hfolder, harchive, by simpa using himage⟩,
        Or.inl harchive, fun handle => ⟨rfl, rfl⟩⟩)
    · rw [if_neg harchive, if_neg harchive]
      by_cases hfolder : disk.isFolder root.path = true
      · rw [if_pos hfolder]
        cases root.role with
        | source => exact Or.inl ⟨_, rfl, hfolder, by simp [harchive], rfl, rfl⟩
        | binary => exact Or.inl ⟨_, rfl, hfolder, by simp [harchive], rfl, rfl⟩
      · rw [if_neg hfolder]
        exact Or.inr (Or.inr ⟨rfl, by simpa using hfolder, by simpa using harchive,
          by simpa using himage⟩)

variable {root disk archiveExtensions}

theorem isSome_located :
    ((root.plan disk archiveExtensions).located disk root.path).isSome = true ↔
      root.IsThere disk archiveExtensions ∧ ¬ root.MisnamesFolder disk archiveExtensions := by
  rcases root.plan_cases disk archiveExtensions with
    ⟨location, hplan, hfolder, hnamed, -, -⟩ | ⟨make, hplan, hfolder, hnamed, -⟩ |
      ⟨hplan, hfolder, harchive, himage⟩
  · rw [hplan]
    exact ⟨fun _ => ⟨Or.inl hfolder, hnamed⟩, fun _ => rfl⟩
  · rw [hplan, RootPlan.located, Option.isSome_map]
    constructor
    · intro h
      obtain ⟨hfile, hnot⟩ := Archive.isFile_of_open? h
      exact ⟨Or.inr ⟨hfile, h, hnamed⟩, fun hmisnames => by simp [hmisnames.1] at hnot⟩
    · rintro ⟨hthere | ⟨-, h, -⟩, hnot⟩
      · exact absurd (hfolder hthere) hnot
      · exact h
  · rw [hplan]
    simp [RootPlan.located, IsThere, hfolder, harchive, himage]

theorem kind_storage_of_located {location : Location}
    (h : (root.plan disk archiveExtensions).located disk root.path = some location) :
    location.kind = root.kind archiveExtensions ∧ location.storage = root.storage disk := by
  rcases root.plan_cases disk archiveExtensions with
    ⟨found, hplan, hfolder, -, hkind, hstorage⟩ | ⟨make, hplan, -, -, hmade⟩ | ⟨hplan, -⟩
  · rw [hplan] at h
    obtain rfl := Option.some.inj h
    rw [storage, if_pos hfolder]
    exact ⟨hkind, hstorage⟩
  · rw [hplan] at h
    obtain ⟨archive, hopen, rfl⟩ := Option.map_eq_some_iff.1 h
    have hnot := (Archive.isFile_of_open? (Option.isSome_of_eq_some hopen)).2
    rw [storage, hnot]
    exact hmade _
  · rw [hplan] at h
    cases h

end ClasspathRoot

namespace LocationSet

variable {root : ClasspathRoot} {disk : Disk} {archiveExtensions : List String}

/-- Without any handles given out yet, the archive that stands at the path is read under the first
one. -/
theorem readable?_of_new {set : LocationSet} (hnew : set.archives = .empty) (disk : Disk)
    (path : Path) : (set.readable? disk path).1 =
      (Archive.open? disk path).map fun _ => ⟨0, ArchiveCache.keyPath disk path⟩ := by
  obtain ⟨locations, archives, explodedModules, extensions⟩ := set
  obtain rfl : archives = .empty := hnew
  unfold readable?
  split
  · rename_i hfile
    have hread := ArchiveCache.canRead_empty disk path
    rw [Archive.open?_keyPath hfile] at hread
    change (if ArchiveCache.empty.canRead disk path then
      some (⟨0, ArchiveCache.keyPath disk path⟩ : ArchiveHandle) else none) = _
    rw [hread]
    cases Archive.open? disk path <;> rfl
  · rename_i hfile
    cases hopen : Archive.open? disk path with
    | none => rfl
    | some archive => exact absurd (Archive.isFile_of_open? (Option.isSome_of_eq_some hopen)).1 hfile

/-- The set of a single root has the location that the root stands for, if any. -/
theorem locations_build_singleton (root : ClasspathRoot) (disk : Disk)
    (archiveExtensions : List String) :
    (build disk [root] archiveExtensions).locations =
      (locate? { archiveExtensions := archiveExtensions } disk root).1.toList := by
  have hempty := locations_locate? { archiveExtensions := archiveExtensions } disk root
  unfold build
  cases hlocation : (locate? { archiveExtensions := archiveExtensions } disk root).1 with
  | none =>
    rw [merge_cons_of_none hlocation]
    exact hempty
  | some location =>
    rw [merge_cons_of_some hlocation]
    simp [merge, push, contains, hempty]

/-- What a root stands for in a new set. -/
theorem locate?_of_new (root : ClasspathRoot) (disk : Disk) (archiveExtensions : List String) :
    (locate? { archiveExtensions := archiveExtensions } disk root).1 =
      (root.plan disk archiveExtensions).located disk root.path := by
  rw [locate?_eq]
  cases root.plan disk archiveExtensions with
  | settled location => rfl
  | archived make =>
    dsimp only [RootPlan.located]
    rw [readable?_of_new rfl, Option.map_map]
    rfl

/-- A single root gives one location when what it points at is there, unless that is a folder with
the name of an archive and not of an image; and none otherwise. So the classification loses such
folders and nothing else. The location is of the kind that name and role ask for, and is read where
the root points. -/
theorem build_singleton_ne_nil_iff (root : ClasspathRoot) (disk : Disk)
    (archiveExtensions : List String) :
    let locations := (build disk [root] archiveExtensions).locations
    (locations ≠ [] ↔
      root.IsThere disk archiveExtensions ∧ ¬ root.MisnamesFolder disk archiveExtensions) ∧
    ((locations ≠ [] ↔ root.IsThere disk archiveExtensions) ↔
      ¬ root.MisnamesFolder disk archiveExtensions) ∧
    ∀ location ∈ locations, locations = [location] ∧ location.kind = root.kind archiveExtensions ∧
      location.storage = root.storage disk := by
  intro locations
  have hlocations : locations =
      ((root.plan disk archiveExtensions).located disk root.path).toList := by
    rw [← locate?_of_new]
    exact locations_build_singleton root disk archiveExtensions
  have hgiven : locations ≠ [] ↔
      root.IsThere disk archiveExtensions ∧ ¬ root.MisnamesFolder disk archiveExtensions := by
    rw [← ClasspathRoot.isSome_located, hlocations, ne_eq, Option.toList_eq_nil_iff,
      Option.isSome_iff_ne_none]
  refine ⟨hgiven, ?_, ?_⟩
  · rw [hgiven]
    constructor
    · intro h hmisnames
      exact (h.2 (Or.inl hmisnames.1)).2 hmisnames
    · intro hnot
      exact and_iff_left hnot
  · intro location hmem
    rw [hlocations, Option.mem_toList] at hmem
    exact ⟨by rw [hlocations, hmem]; rfl, ClasspathRoot.kind_storage_of_located hmem⟩

/-- A class folder with the name of an archive. -/
def jarFolderDisk : Disk :=
  Disk.empty.put (.ofText "classes.jar/p/Foo.class") (.file (.plain "foo".toUTF8))

/-- The folder is lost. -/
theorem not_forall_build_singleton_ne_nil :
    ¬ ∀ (root : ClasspathRoot) (disk : Disk) (archiveExtensions : List String),
      (build disk [root] archiveExtensions).locations ≠ [] ↔
        root.IsThere disk archiveExtensions := by
  intro hgives
  have hfolder : jarFolderDisk.isFolder (.ofText "classes.jar") = true := by decide +kernel
  have hlost : (build jarFolderDisk [{ path := .ofText "classes.jar" }] ["jar"]).locations = [] := by
    decide +kernel
  exact (hgives { path := .ofText "classes.jar" } jarFolderDisk ["jar"]).2 (Or.inl hfolder) hlost

end LocationSet

end ClasspathLookup
