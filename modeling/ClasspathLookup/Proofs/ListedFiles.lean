import ClasspathLookup.Proofs.ModuleTags
import ClasspathLookup.Proofs.SingleRoots
import ClasspathLookup.Proofs.TypesInPackages

/-!
# Files and the listing of their folder

A file that can be read under a single name in a folder is listed there, so a search that goes
through a listing misses none. On the disk this holds because a name that is a step leads to a
folder and never to a file, and in an archive because the last slash of an entry is the one that was
put before the name.
-/

namespace ClasspathLookup

namespace Disk

variable {disk : Disk} {place : Place} {root : Path} {folder name : String} {steps : List String}

/-- What some steps lead to stands in a folder. -/
theorem isFolderAt_up (h : disk.walk? steps = some place) : disk.isFolderAt place.up = true := by
  cases place with
  | above => rfl
  | «at» position =>
    by_cases hroot : position.names = []
    · rw [Place.up, if_pos hroot]
      rfl
    · rw [Place.up, if_neg hroot]
      have hwalk : disk.walk? position.names = some (.at position) := walk?_path h
      have hparent := walk?_parent hroot hwalk
      rw [← List.dropLast_concat_getLast hroot, walk?_concat] at hwalk
      change disk.walk? position.names.dropLast = _ at hparent
      rw [hparent, Option.bind_some] at hwalk
      unfold enter? at hwalk
      exact (Option.ite_none_right_eq_some.1 hwalk).1

/-- The names listed in a folder are those that lead from it to something that passes the test. -/
theorem mem_names_iff {path : Path} {wanted : Node → Bool} : name ∈ disk.names path wanted ↔
    ∃ position child node, disk.find? path = some (.at position, .folder) ∧
      position.child? name = some child ∧ disk.nodes.find? child = some node ∧
        wanted node = true := by
  unfold names
  split
  · rename_i position hfind
    simp only [hfind, Text.mem_sorted, List.mem_filterMap, Option.ite_none_right_eq_some,
      Position.nameIn?_eq_some_iff, Option.some.injEq, Prod.mk.injEq, Place.at.injEq, and_true]
    constructor
    · rintro ⟨⟨child, node⟩, hmem, hwanted, hchild⟩
      exact ⟨position, child, node, rfl, hchild, Keyed.find?_eq_some_iff.2 hmem, hwanted⟩
    · rintro ⟨_, child, node, rfl, hchild, hnode, hwanted⟩
      exact ⟨(child, node), Keyed.find?_eq_some_iff.1 hnode, hwanted, hchild⟩
  · rename_i hnot
    refine iff_of_false List.not_mem_nil ?_
    rintro ⟨position, child, node, hfind, -⟩
    exact hnot position hfind

theorem mem_fileNames_of_file? {content : FileContent} (hne : name ≠ "")
    (hslash : '/' ∉ name.toList)
    (h : disk.file? (root.below (Slash.below folder name)) = some content) :
    name ∈ disk.fileNames (root.below folder) := by
  obtain ⟨hkind, place, hwalk, hnode⟩ := file?_eq_some_iff.1 h
  have hsplit := Slash.split_of_not_mem hslash
  -- A name that is no step would ask for a folder.
  have hstep : Path.isStep name = true := by
    by_contra hstep
    have hfolder : (root.below (Slash.below folder name)).asFolder = true :=
      Path.asFolder_below (by simp [hsplit, hne]) (by simp [hsplit, hstep])
    rw [hkind] at hfolder
    cases hfolder
  rw [Path.steps_below_below, hsplit, List.filter_cons_of_pos hstep, List.filter_nil,
    walk?_concat] at hwalk
  obtain ⟨before, hbefore, henter⟩ := Option.bind_eq_some_iff.1 hwalk
  have hup : name ≠ ".." := by
    rintro rfl
    simp only [enter?, if_true, Option.ite_none_right_eq_some, Option.some.injEq] at henter
    have hfolder := isFolderAt_iff.1 (isFolderAt_up hbefore)
    rw [henter.2, hnode] at hfolder
    cases hfolder
  have hplain : IsPlain name := by
    simp only [Path.isStep, Bool.and_eq_true, decide_eq_true_eq, ne_eq] at hstep
    exact ⟨hne, hslash, hstep.2, hup⟩
  obtain ⟨position, child, node, rfl, hfolder, hchild, rfl, -⟩ :=
    (enter?_eq_some_iff hplain).1 henter
  have hfind : disk.find? (root.below folder) = some (.at position, .folder) :=
    find?_eq_folder_iff.2 ⟨hbefore, hfolder⟩
  exact mem_names_iff.2 ⟨position, child, _, hfind, hchild, hnode, rfl⟩

end Disk

theorem Archive.mem_fileNames_of_read? {archive : Archive} {folder name : String}
    {bytes : ByteArray} (hne : name ≠ "") (hslash : '/' ∉ name.toList)
    (h : archive.read? (Slash.below folder name) = some bytes) :
    name ∈ archive.fileNames folder := by
  have hkey : Slash.below folder name ∈ archive.files.keys :=
    Keyed.mem_keys_iff.2 ⟨some bytes, Option.join_eq_some_iff.1 h⟩
  have hparent : decide (Slash.parent (Slash.below folder name) = folder) = true := by
    simp [Slash.parent_below hne hslash]
  rw [fileNames, Text.mem_sorted]
  exact List.mem_map.2 ⟨_, List.mem_filter.2 ⟨hkey, hparent⟩, Slash.last_below hne hslash⟩

namespace Storage

variable {storage : Storage} {view : View} {folder name : String}

theorem mem_fileNames_of_read {bytes : ByteArray} (hne : name ≠ "") (hslash : '/' ∉ name.toList)
    (h : (storage.read (Slash.below folder name)).value view = some bytes) :
    name ∈ (storage.fileNames folder).value view := by
  cases storage with
  | folder root =>
    obtain ⟨content, hfile, -⟩ := Option.map_eq_some_iff.1 h
    exact Disk.mem_fileNames_of_file? hne hslash hfile
  | archive handle =>
    obtain ⟨archive, hcontent, hread⟩ := Option.bind_eq_some_iff.1 h
    simp only [fileNames, Lookup.value_bind, Lookup.value_archive?, Lookup.value_pure, hcontent,
      Option.map_some, Option.getD_some]
    exact Archive.mem_fileNames_of_read? hne hslash hread

end Storage

end ClasspathLookup
