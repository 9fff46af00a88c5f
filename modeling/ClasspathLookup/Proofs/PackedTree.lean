import ClasspathLookup.Proofs.ArchiveIndex
import Mathlib.Data.List.Infix
import Mathlib.Data.List.Nodup

/-!
# Packed trees

An archive that lists the files of a tree and its empty folders shows what the tree shows: the same
files, the same folders and the same listings under every path of plain names. A folder that holds
something needs no entry of its own, because what stands at its ends brings it in.
-/

namespace ClasspathLookup

/-- Sorted lists without repetition are told apart by their members. -/
theorem Text.eq_of_mem_iff {names others : List String} (hnames : names.Pairwise (· ≤ ·))
    (hothers : others.Pairwise (· ≤ ·)) (hnodup : names.Nodup) (hnodup' : others.Nodup)
    (h : ∀ name, name ∈ names ↔ name ∈ others) : names = others :=
  eq_of_perm ((List.perm_ext_iff_of_nodup hnodup hnodup').2 h) hnames hothers

/-- The entries list every file of the tree below a folder, with its data, and every empty folder of
it; they may list other folders of the tree and list nothing else. -/
structure Packs (disk : Disk) (root : Path) (entries : List ArchiveEntry) : Prop where
  root_isFolder : disk.isFolder root = true
  file : ∀ {names content}, disk.nodeBelow? root names = some (.file content) →
    ⟨Slash.join names, some content.bytes⟩ ∈ entries
  emptyFolder : ∀ {names}, names ≠ [] → disk.IsEmptyFolder root names →
    ∃ data, ⟨Slash.join names ++ "/", data⟩ ∈ entries
  only : ∀ e ∈ entries,
    (∃ names content, disk.nodeBelow? root names = some (.file content) ∧
      e = ⟨Slash.join names, some content.bytes⟩) ∨
    ∃ names, disk.nodeBelow? root names = some .folder ∧ e.name = Slash.join names ++ "/"

/-- The entry for what stands below a folder; every folder but the root gets one. -/
def Disk.packed? (disk : Disk) (root : Path) (names : List String) : Option ArchiveEntry :=
  match disk.nodeBelow? root names with
  | some (.file content) => some ⟨Slash.join names, some content.bytes⟩
  | some .folder => if names = [] then none else some ⟨Slash.join names ++ "/", some .empty⟩
  | none => none

/-- An archive of the tree below a folder. -/
def Disk.pack (disk : Disk) (root : Path) : List ArchiveEntry :=
  (disk.nodes.keys.flatMap fun position => position.names.tails).eraseDups.filterMap
    (disk.packed? root)

/-- Every tree has an archive. -/
theorem packs_pack {disk : Disk} {root : Path} (h : disk.isFolder root = true) :
    Packs disk root (disk.pack root) := by
  have hmem : ∀ {names node e}, names ≠ [] → disk.nodeBelow? root names = some node →
      disk.packed? root names = some e → e ∈ disk.pack root := by
    intro names node e hne hnode he
    obtain ⟨position, hkey, hsuffix⟩ := Disk.exists_position hne hnode
    refine List.mem_filterMap.2 ⟨names, ?_, he⟩
    rw [List.mem_eraseDups, List.mem_flatMap]
    exact ⟨position, hkey, (List.mem_tails _ _).2 hsuffix⟩
  refine ⟨h, fun {names content} hnode => ?_, fun {names} hne hempty => ?_, fun e he => ?_⟩
  · have hne : names ≠ [] := by
      rintro rfl
      rw [Disk.nodeBelow?_nil h] at hnode
      cases hnode
    exact hmem hne hnode (by simp [Disk.packed?, hnode])
  · exact ⟨some .empty, hmem hne hempty.1 (by simp [Disk.packed?, hempty.1, hne])⟩
  · obtain ⟨names, -, hpacked⟩ := List.mem_filterMap.1 he
    unfold Disk.packed? at hpacked
    split at hpacked
    · rename_i content hnode
      exact Or.inl ⟨names, content, hnode, (Option.some.inj hpacked).symm⟩
    · rename_i hnode
      simp only [Option.ite_none_left_eq_some, Option.some.injEq] at hpacked
      exact Or.inr ⟨names, hnode, by rw [← hpacked.2]⟩
    · cases hpacked

namespace Packs

variable {disk : Disk} {root : Path} {entries : List ArchiveEntry} {names : List String}

/-- Every entry that counts as a file is one of the tree, so it does not matter which one of a name
is kept. -/
theorem find?_files_eq_some_iff (h : Packs disk root entries) {path : String}
    {data : Option ByteArray} : (Archive.ofEntries entries).files.find? path = some data ↔
      ∃ names content, disk.nodeBelow? root names = some (.file content) ∧
        path = Slash.join names ∧ data = some content.bytes := by
  have hlisted : ∀ {path data}, (Archive.ofEntries entries).files.find? path = some data →
      ∃ names content, disk.nodeBelow? root names = some (.file content) ∧
        path = Slash.join names ∧ data = some content.bytes := by
    intro path data hfind
    obtain ⟨hmem, hfile⟩ := Archive.mem_of_find?_files hfind
    rcases h.only _ hmem with ⟨names, content, hnode, he⟩ | ⟨names, -, hname⟩
    · obtain ⟨hpath, hdata⟩ := ArchiveEntry.mk.inj he
      exact ⟨names, content, hnode, hpath, hdata⟩
    · have hfolder := Archive.folderName?_concat (Slash.join names)
      rw [← hname] at hfolder
      simp [Archive.isFolderName, hfolder] at hfile
  constructor
  · exact hlisted
  · rintro ⟨names, content, hnode, rfl, rfl⟩
    have hplain := Disk.allPlain_of_nodeBelow? hnode
    have hfile : Archive.isFolderName (Slash.join names) = false := by
      rw [Archive.isFolderName, Archive.folderName?_join hplain, Option.isSome_none]
    obtain ⟨last, hlast⟩ := Archive.exists_find?_files (h.file hnode) hfile
    obtain ⟨others, content', hnode', hname, rfl⟩ := hlisted hlast
    obtain rfl := Slash.join_injective hplain (Disk.allPlain_of_nodeBelow? hnode') hname
    rw [hnode, Option.some.injEq, Node.file.injEq] at hnode'
    rw [hlast, hnode']

theorem read? (h : Packs disk root entries) (hplain : AllPlain names) :
    (Archive.ofEntries entries).read? (Slash.join names) =
      disk.read? (root.below (Slash.join names)) := by
  rw [Disk.read?_below h.root_isFolder hplain, Archive.read?]
  cases hfind : (Archive.ofEntries entries).files.find? (Slash.join names) with
  | some data =>
    obtain ⟨others, content, hnode, hname, rfl⟩ := h.find?_files_eq_some_iff.1 hfind
    obtain rfl := Slash.join_injective hplain (Disk.allPlain_of_nodeBelow? hnode) hname
    rw [hnode]
    rfl
  | none =>
    cases hnode : disk.nodeBelow? root names with
    | none => rfl
    | some node =>
      cases node with
      | folder => rfl
      | file content =>
        rw [h.find?_files_eq_some_iff.2 ⟨names, content, hnode, rfl, rfl⟩] at hfind
        simp at hfind

/-- Every entry brings in a folder of the tree first. -/
theorem exists_folderOf (h : Packs disk root entries) {e : ArchiveEntry} (he : e ∈ entries) :
    ∃ names, disk.nodeBelow? root names = some .folder ∧
      Archive.folderOf e.name = Slash.join names := by
  rcases h.only e he with ⟨names, content, hnode, rfl⟩ | ⟨names, hnode, hname⟩
  · refine ⟨names.dropLast, ?_, Archive.folderOf_join (Disk.allPlain_of_nodeBelow? hnode)⟩
    rcases List.eq_nil_or_concat' names with rfl | ⟨parents, name, rfl⟩
    · exact Disk.nodeBelow?_nil h.root_isFolder
    · rw [List.dropLast_concat]
      exact Disk.nodeBelow?_eq_folder (List.cons_ne_nil _ _) hnode
  · refine ⟨names, hnode, ?_⟩
    rw [hname, Archive.folderOf_concat]

/-- Every folder of the tree is brought in, by what stands at one of its ends. -/
theorem exists_entry_below (h : Packs disk root entries) (hne : names ≠ [])
    (hnode : disk.nodeBelow? root names = some .folder) :
    ∃ e ∈ entries, Slash.CutFrom (Archive.folderOf e.name) (Slash.join names) := by
  obtain ⟨more, ⟨content, hfile⟩ | hempty⟩ := Disk.exists_leaf hnode
  · have hplain := Disk.allPlain_of_nodeBelow? hfile
    have hmore : more ≠ [] := by
      rintro rfl
      rw [List.append_nil, hnode] at hfile
      cases hfile
    refine ⟨_, h.file hfile, ?_⟩
    rw [Archive.folderOf_join hplain, Slash.cutFrom_join_iff fun name hname =>
      hplain name (List.dropLast_subset _ hname), List.dropLast_append_of_ne_nil hmore]
    exact ⟨names, List.prefix_append _ _, rfl⟩
  · obtain ⟨data, he⟩ := h.emptyFolder (by simp [hne]) hempty
    refine ⟨_, he, ?_⟩
    rw [Archive.folderOf_concat, Slash.cutFrom_join_iff (Disk.allPlain_of_nodeBelow? hempty.1)]
    exact ⟨names, List.prefix_append _ _, rfl⟩

theorem mem_folders_iff (h : Packs disk root entries) {folder : String} :
    folder ∈ (Archive.ofEntries entries).folders ↔
      ∃ names, names ≠ [] ∧ disk.nodeBelow? root names = some .folder ∧
        folder = Slash.join names := by
  rw [Archive.mem_folders_iff]
  constructor
  · rintro ⟨hne, e, he, hcut⟩
    obtain ⟨names, hnode, hfolder⟩ := h.exists_folderOf he
    rw [hfolder, Slash.cutFrom_join_iff (Disk.allPlain_of_nodeBelow? hnode)] at hcut
    obtain ⟨initial, hinitial, rfl⟩ := hcut
    refine ⟨initial, ?_, Disk.nodeBelow?_of_initial hinitial hnode, rfl⟩
    rintro rfl
    exact hne rfl
  · rintro ⟨names, hne, hnode, rfl⟩
    refine ⟨?_, h.exists_entry_below hne hnode⟩
    obtain ⟨first, rest, rfl⟩ := List.exists_cons_of_ne_nil hne
    have hfirst := Disk.allPlain_of_nodeBelow? hnode first List.mem_cons_self
    exact Slash.join_ne_empty hfirst.nonempty rest

theorem isFolder (h : Packs disk root entries) (hplain : AllPlain names) :
    (Archive.ofEntries entries).isFolder (Slash.join names) =
      disk.isFolder (root.below (Slash.join names)) := by
  rw [Disk.isFolder_below h.root_isFolder hplain, Bool.eq_iff_iff]
  simp only [Archive.isFolder, Bool.or_eq_true, decide_eq_true_eq, List.contains_eq_mem,
    h.mem_folders_iff]
  constructor
  · rintro (hroot | ⟨others, -, hnode, hname⟩)
    · obtain rfl := Slash.join_injective hplain allPlain_nil hroot
      exact Disk.nodeBelow?_nil h.root_isFolder
    · obtain rfl := Slash.join_injective hplain (Disk.allPlain_of_nodeBelow? hnode) hname
      exact hnode
  · intro hnode
    by_cases hne : names = []
    · exact Or.inl (by rw [hne, Slash.join])
    · exact Or.inr ⟨names, hne, hnode, rfl⟩

theorem mem_keys_iff (h : Packs disk root entries) {path : String} :
    path ∈ (Archive.ofEntries entries).files.keys ↔
      ∃ parents name content, disk.nodeBelow? root (parents ++ [name]) = some (.file content) ∧
        path = Slash.join (parents ++ [name]) := by
  simp only [Keyed.mem_keys_iff, h.find?_files_eq_some_iff]
  constructor
  · rintro ⟨_, names, content, hnode, rfl, -⟩
    rcases List.eq_nil_or_concat' names with rfl | ⟨parents, name, rfl⟩
    · rw [Disk.nodeBelow?_nil h.root_isFolder] at hnode
      cases hnode
    · exact ⟨parents, name, content, hnode, rfl⟩
  · rintro ⟨parents, name, content, hnode, rfl⟩
    exact ⟨_, _, content, hnode, rfl, rfl⟩

theorem mem_fileNames_iff (h : Packs disk root entries) (hplain : AllPlain names)
    {name : String} : name ∈ (Archive.ofEntries entries).fileNames (Slash.join names) ↔
      ∃ content, disk.nodeBelow? root (names ++ [name]) = some (.file content) := by
  simp only [Archive.fileNames, Text.mem_sorted, List.mem_map, List.mem_filter, h.mem_keys_iff,
    decide_eq_true_eq]
  constructor
  · rintro ⟨_, ⟨⟨parents, last, content, hnode, rfl⟩, hparent⟩, rfl⟩
    have hpath := Disk.allPlain_of_nodeBelow? hnode
    rw [Slash.parent_join hpath, List.dropLast_concat] at hparent
    obtain rfl := Slash.join_injective (allPlain_concat_iff.1 hpath).1 hplain hparent
    rw [Slash.last_join hpath]
    exact ⟨content, hnode⟩
  · rintro ⟨content, hnode⟩
    have hpath := Disk.allPlain_of_nodeBelow? hnode
    refine ⟨_, ⟨⟨names, name, content, hnode, rfl⟩, ?_⟩, Slash.last_join hpath⟩
    rw [Slash.parent_join hpath, List.dropLast_concat]

theorem nodup_fileNames (h : Packs disk root entries) (folder : String) :
    ((Archive.ofEntries entries).fileNames folder).Nodup := by
  rw [Archive.fileNames, (Text.sorted_perm _).nodup_iff]
  refine List.Nodup.map_on ?_ ((Archive.ofEntries entries).files.nodup.filter _)
  -- Two files of one folder with one name have one path.
  intro path hpath other hother hlast
  simp only [List.mem_filter, decide_eq_true_eq] at hpath hother
  obtain ⟨⟨parents, name, _, hnode, rfl⟩, hparent⟩ := hpath.imp_left h.mem_keys_iff.1
  obtain ⟨⟨parents', name', _, hnode', rfl⟩, hparent'⟩ := hother.imp_left h.mem_keys_iff.1
  have hplain := Disk.allPlain_of_nodeBelow? hnode
  have hplain' := Disk.allPlain_of_nodeBelow? hnode'
  rw [Slash.last_join hplain, Slash.last_join hplain'] at hlast
  rw [Slash.parent_join hplain, List.dropLast_concat] at hparent
  rw [Slash.parent_join hplain', List.dropLast_concat] at hparent'
  obtain rfl := Slash.join_injective (allPlain_concat_iff.1 hplain).1
    (allPlain_concat_iff.1 hplain').1 (hparent.trans hparent'.symm)
  rw [hlast]

theorem fileNames (h : Packs disk root entries) (hplain : AllPlain names) :
    (Archive.ofEntries entries).fileNames (Slash.join names) =
      disk.fileNames (root.below (Slash.join names)) := by
  refine Text.eq_of_mem_iff (Text.pairwise_sorted _) (disk.pairwise_names _ _)
    (h.nodup_fileNames _) (disk.nodup_names _ _) fun name => ?_
  rw [h.mem_fileNames_iff hplain, Disk.fileNames, Disk.mem_names_below h.root_isFolder hplain]
  constructor
  · rintro ⟨content, hnode⟩
    exact ⟨.file content, rfl, hnode⟩
  · rintro ⟨node, hfile, hnode⟩
    cases node with
    | folder => simp [Node.isFile, Node.isFolder] at hfile
    | file content => exact ⟨content, hnode⟩

theorem mem_topFolders_iff (h : Packs disk root entries) {name : String} :
    name ∈ (Archive.ofEntries entries).topFolders ↔
      disk.nodeBelow? root [name] = some .folder := by
  simp only [Archive.topFolders, Text.mem_sorted, List.mem_filter, h.mem_folders_iff,
    String.contains_char_eq, Bool.not_eq_true', decide_eq_false_iff_not]
  constructor
  · rintro ⟨⟨names, hne, hnode, rfl⟩, hslash⟩
    have hsplit := Slash.split_join hne fun name hname =>
      (Disk.allPlain_of_nodeBelow? hnode name hname).slashFree
    rw [Slash.split_of_not_mem hslash] at hsplit
    rwa [hsplit]
  · intro hnode
    have hname := Disk.allPlain_of_nodeBelow? hnode name List.mem_cons_self
    exact ⟨⟨[name], List.cons_ne_nil _ _, hnode, rfl⟩, hname.slashFree⟩

theorem topFolders (h : Packs disk root entries) :
    (Archive.ofEntries entries).topFolders = disk.folderNames root := by
  have hcomplete := Archive.complete_ofEntries entries
  refine Text.eq_of_mem_iff (Text.pairwise_sorted _) (disk.pairwise_names _ _)
    ?_ (disk.nodup_names _ _) fun name => ?_
  · rw [Archive.topFolders, (Text.sorted_perm _).nodup_iff]
    exact hcomplete.nodup.filter _
  · have hlisted : name ∈ disk.names (root.below (Slash.join [])) Node.isFolder ↔ _ :=
      Disk.mem_names_below h.root_isFolder allPlain_nil
    rw [Slash.join, root.below_empty] at hlisted
    rw [h.mem_topFolders_iff, Disk.folderNames, hlisted]
    constructor
    · intro hnode
      exact ⟨.folder, rfl, hnode⟩
    · rintro ⟨node, hfolder, hnode⟩
      cases node with
      | folder => exact hnode
      | file content => simp [Node.isFolder] at hfolder

end Packs

end ClasspathLookup
