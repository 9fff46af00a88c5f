import ClasspathLookup.Proofs.IndexedArchives
import ClasspathLookup.Proofs.ListedFiles
import ClasspathLookup.Proofs.Lists
import Mathlib.Data.List.Nodup

/-!
# The order of listings

A folder and an archive list what they hold in any order. Two disks can differ in that order alone:
the same names stand at the same places, and where there is an archive on one disk, the other has
one of the same bytes that lists its entries in another order. All that is read of them is the same,
and the lists of modules have the same members. Those lists are sorted when they are first read, and
stay so.
-/

namespace ClasspathLookup

namespace Keyed

variable {κ α : Type} [DecidableEq κ]

/-- Where no key comes twice the order of the pairs does not matter. -/
theorem find?_ofList_eq_some_iff {pairs : List (κ × α)} (h : (pairs.map Prod.fst).Nodup) {key : κ}
    {value : α} : (ofList pairs).find? key = some value ↔ (key, value) ∈ pairs := by
  refine ⟨mem_of_find?_ofList, fun hmem => ?_⟩
  obtain ⟨last, hlast⟩ := exists_find?_ofList hmem
  have hpair : (key, last) = (key, value) :=
    List.inj_on_of_nodup_map h (mem_of_find?_ofList hlast) hmem rfl
  rw [hlast, (Prod.mk.inj hpair).2]

end Keyed

namespace Archive

/-- Two indexes with the same files and folders, in whatever order they have them. -/
structure Reorders (archive other : Archive) : Prop where
  find? : ∀ name, archive.files.find? name = other.files.find? name
  mem_folders : ∀ folder, folder ∈ archive.folders ↔ folder ∈ other.folders

variable {archive other : Archive} {entries others : List ArchiveEntry}

theorem Reorders.refl (archive : Archive) : archive.Reorders archive :=
  ⟨fun _ => rfl, fun _ => Iff.rfl⟩

theorem Reorders.read? (h : archive.Reorders other) (name : String) :
    archive.read? name = other.read? name := by
  rw [Archive.read?, Archive.read?, h.find?]

/-- Entries of different names may come in any order. -/
theorem reorders_ofEntries (hperm : entries.Perm others) (hnames : (entries.map (·.name)).Nodup) :
    (ofEntries entries).Reorders (ofEntries others) := by
  have hpairs {entries : List ArchiveEntry} (hnames : (entries.map (·.name)).Nodup) :
      (((entries.filter fun e => !isFolderName e.name).map fun e => (e.name, e.data)).map
        Prod.fst).Nodup := by
    rw [List.map_map]
    exact hnames.sublist (List.filter_sublist.map _)
  constructor
  · intro name
    refine Option.ext fun data => ?_
    rw [ofEntries, ofEntries, Keyed.find?_ofList_eq_some_iff (hpairs hnames),
      Keyed.find?_ofList_eq_some_iff (hpairs ((hperm.map _).nodup_iff.1 hnames))]
    exact ((hperm.filter _).map _).mem_iff
  · intro folder
    simp only [mem_folders_iff, hperm.mem_iff]

end Archive

/-- The same content, or one archive whose entries are listed in different orders. -/
inductive FileContent.Reorders : FileContent → FileContent → Prop
  | refl (content : FileContent) : Reorders content content
  | archive {entries others : List ArchiveEntry} (raw : ByteArray) (hperm : entries.Perm others)
      (hnames : (entries.map (·.name)).Nodup) :
      Reorders (.archive entries raw) (.archive others raw)

inductive Node.Reorders : Node → Node → Prop
  | folder : Reorders .folder .folder
  | file {content other : FileContent} (h : content.Reorders other) :
      Reorders (.file content) (.file other)

theorem Node.Reorders.isFolder {node other : Node} (h : node.Reorders other) :
    node.isFolder = other.isFolder := by
  cases h <;> rfl

theorem Node.Reorders.isFile {node other : Node} (h : node.Reorders other) :
    node.isFile = other.isFile :=
  congrArg (!·) h.isFolder

namespace Disk

/-- The disks hold the same, though folders and archives may list it in different orders. -/
def Reorders (disk other : Disk) : Prop :=
  ∀ position, Option.Rel Node.Reorders (disk.nodes.find? position) (other.nodes.find? position)

namespace Reorders

variable {disk other : Disk}

variable (h : disk.Reorders other)

include h

theorem node? (place : Place) :
    Option.Rel Node.Reorders (disk.node? place) (other.node? place) := by
  cases place with
  | above => exact .some .folder
  | «at» position => exact h position

theorem isFolderAt (place : Place) : disk.isFolderAt place = other.isFolderAt place := by
  unfold Disk.isFolderAt
  rcases (h.node? place).none_or_some with ⟨hnone, hnone'⟩ | ⟨_, _, hnode, hnode', hrel⟩
  · rw [hnone, hnone']
  · rw [hnode, hnode']
    exact hrel.isFolder

theorem enter? : disk.enter? = other.enter? := by
  funext place name
  have hsome (child : Place) : (disk.node? child).isSome = (other.node? child).isSome := by
    rcases (h.node? child).none_or_some with ⟨hnone, hnone'⟩ | ⟨_, _, hnode, hnode', -⟩
    · rw [hnone, hnone']
    · rw [hnode, hnode', Option.isSome_some, Option.isSome_some]
  simp only [Disk.enter?, h.isFolderAt, hsome]

theorem walk? (steps : List String) : disk.walk? steps = other.walk? steps := by
  rw [Disk.walk?, Disk.walk?, h.enter?]

/-- What a path names stands at the same place on both. -/
theorem find? (path : Path) :
    Option.Rel (fun found found' => found.1 = found'.1 ∧ found.2.Reorders found'.2)
      (disk.find? path) (other.find? path) := by
  simp only [Disk.find?, h.walk?, Option.bind_eq_bind]
  cases other.walk? path.steps with
  | none => exact .none
  | some place =>
    rw [Option.bind_some, Option.bind_some]
    rcases (h.node? place).none_or_some with ⟨hnone, hnone'⟩ | ⟨_, node', hnode, hnode', hrel⟩
    · rw [hnone, hnone']
      exact .none
    · simp only [hnode, hnode', Option.bind_some, hrel.isFile]
      by_cases hkind : (path.asFolder && node'.isFile) = true
      · rw [if_pos hkind, if_pos hkind]
        exact .none
      · rw [if_neg hkind, if_neg hkind]
        exact .some ⟨rfl, hrel⟩

theorem file? (path : Path) :
    Option.Rel FileContent.Reorders (disk.file? path) (other.file? path) := by
  unfold Disk.file?
  rcases (h.find? path).none_or_some with
    ⟨hnone, hnone'⟩ | ⟨⟨_, _⟩, ⟨_, _⟩, hfind, hfind', -, hrel⟩
  · rw [hnone, hnone']
    exact .none
  · rw [hfind, hfind']
    cases hrel with
    | folder => exact .none
    | file hcontent => exact .some hcontent

theorem read? (path : Path) : disk.read? path = other.read? path := by
  unfold Disk.read?
  rcases (h.file? path).none_or_some with ⟨hnone, hnone'⟩ | ⟨_, _, hfile, hfile', hrel⟩
  · rw [hnone, hnone']
  · rw [hfile, hfile']
    cases hrel <;> rfl

theorem open? (path : Path) :
    Option.Rel Archive.Reorders (Archive.open? disk path) (Archive.open? other path) := by
  unfold Archive.open?
  rcases (h.file? path).none_or_some with ⟨hnone, hnone'⟩ | ⟨content, _, hfile, hfile', hrel⟩
  · rw [hnone, hnone']
    exact .none
  · rw [hfile, hfile']
    cases hrel with
    | refl =>
      cases content with
      | plain bytes => exact .none
      | archive entries raw => exact .some (.refl _)
    | archive raw hperm hnames => exact .some (Archive.reorders_ofEntries hperm hnames)

end Reorders

end Disk

/-- Two views that see the same, though folders and archives may list it in different orders. -/
structure View.Reorders (view view' : View) : Prop where
  disk : view.disk.Reorders view'.disk
  archive? : ∀ handle, Option.Rel Archive.Reorders (view.archive? handle) (view'.archive? handle)
  mem_modules : ∀ image module,
    module ∈ view.explodedModules image ↔ module ∈ view'.explodedModules image

/-- Every list of modules is sorted. -/
def View.SortsModules (view : View) : Prop :=
  ∀ image, (view.explodedModules image).Pairwise (· ≤ ·)

namespace View.Reorders

variable {view view' : View} (h : view.Reorders view')

include h

theorem read (storage : Storage) (relative : String) :
    (storage.read relative).value view = (storage.read relative).value view' := by
  cases storage with
  | folder root => exact h.disk.read? _
  | archive handle =>
    simp only [Storage.read, Lookup.value_bind, Lookup.value_archive?, Lookup.value_pure]
    rcases (h.archive? handle).none_or_some with ⟨hnone, hnone'⟩ | ⟨_, _, hsome, hsome', hrel⟩
    · rw [hnone, hnone']
    · rw [hsome, hsome', Option.bind_some, Option.bind_some, hrel.read?]

end View.Reorders

namespace LocationSet

variable {set : LocationSet} {disk other : Disk}

/-- The module lists that were read are sorted. -/
def SortsModules (set : LocationSet) : Prop :=
  ∀ image names, set.explodedModules.find? image = some names → names.Pairwise (· ≤ ·)

theorem sortsModules_view (h : set.SortsModules) (disk : Disk) :
    (set.view disk).SortsModules := by
  intro image
  simp only [view]
  cases hfind : set.explodedModules.find? image with
  | none => exact disk.pairwise_names _ _
  | some names => exact h image names hfind

theorem SortsModules.settle (h : set.SortsModules) (disk : Disk) (need : Need) :
    (LocationSet.settle disk set need).SortsModules := by
  cases need with
  | archive handle => exact h
  | explodedModules image =>
    intro other names hfind
    rw [LocationSet.settle, Keyed.find?_insertNew] at hfind
    split at hfind
    · rename_i hsame
      obtain rfl : other = image := hsame
      obtain rfl := Option.some.inj hfind
      exact sortsModules_view h disk other
    · exact h other names hfind

theorem SortsModules.run {α : Type} (h : set.SortsModules) (disk : Disk) (lookup : Lookup α) :
    (set.run disk lookup).2.SortsModules := by
  rw [run_eq]
  generalize lookup.needs (set.view disk) = needs
  induction needs generalizing set with
  | nil => exact h
  | cons need needs ih => exact ih (h.settle disk need)

theorem explodedModules_locate? (set : LocationSet) (disk : Disk) (root : ClasspathRoot) :
    (set.locate? disk root).2.explodedModules = set.explodedModules := by
  rw [locate?_eq]
  cases root.plan disk set.archiveExtensions with
  | settled location => rfl
  | archived make =>
    simp only [readable?]
    split <;> rfl

theorem explodedModules_push (set : LocationSet) (location : Location) :
    (set.push location).2.explodedModules = set.explodedModules := by
  unfold push
  split <;> rfl

/-- Locating and pushing read no list. -/
theorem explodedModules_merge (set : LocationSet) (disk : Disk) (roots : List ClasspathRoot) :
    (set.merge disk roots).2.explodedModules = set.explodedModules := by
  refine merge_preserves (I := fun later => later.explodedModules = set.explodedModules)
    (fun {later} root h => ?_) (fun {later root location} h _ => ?_) rfl roots
  · exact (later.explodedModules_locate? disk root).trans h
  · rw [explodedModules_push, explodedModules_locate?, h]

/-- Whatever a set is offered and asked, the lists that it reads are sorted. -/
theorem Run.sortsModules {disks : Disk → Prop} {start : LocationSet} {offered : List Location}
    (h : Run disks start offered set) (hstart : start.SortsModules) : set.SortsModules := by
  induction h with
  | start => exact hstart
  | @push _ later location _ ih =>
    unfold SortsModules
    rwa [later.explodedModules_push]
  | @merge _ later disk roots _ _ ih =>
    unfold SortsModules
    rwa [later.explodedModules_merge]
  | handle path _ _ ih => exact ih
  | query lookup _ _ ih => exact ih.run _ lookup

theorem sortsModules_build (disk : Disk) (roots : List ClasspathRoot) (extensions : List String) :
    (build disk roots extensions).SortsModules := by
  intro image names hfind
  rw [build, explodedModules_merge] at hfind
  cases hfind

end LocationSet

/-- Whatever is done with an environment, its module lists are sorted. -/
theorem Environment.sortsModules_after {environment : Environment}
    (h : environment.locations.SortsModules) (history : History) :
    (environment.after history).locations.SortsModules := by
  refine after_preserves (I := fun later => later.locations.SortsModules) ?_ h history
  intro later disk action hlater
  cases action with
  | ask query => exact hlater.run disk (later.lookup query)
  | addProject projects project =>
    rw [act_addProject]
    unfold LocationSet.SortsModules
    rwa [later.locations.explodedModules_merge]
  | cleanup =>
    intro image names hfind
    cases hfind

end ClasspathLookup
