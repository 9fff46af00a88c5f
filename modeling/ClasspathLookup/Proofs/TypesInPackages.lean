import ClasspathLookup.Proofs.PackageTrees

/-!
# The package of a type that is there

Types are found by the exact name of a file or an entry, packages in the folders that exist. A file
is read in a folder that is there, whatever segments its name has: a walk reaches it through the
folder, and the index of an archive has all folders above its entries. So the package of an answer
is there at every location that answers, unless the patterns of a source folder hide it.
-/

namespace ClasspathLookup

namespace Slash

theorem below_below (module package rest : String) :
    below module (below package rest) = below (below module package) rest := by
  unfold below
  by_cases hmodule : module = "" <;> by_cases hpackage : package = "" <;>
    by_cases hrest : rest = "" <;> simp [hmodule, hpackage, hrest, String.append_assoc]

/-- What stands before a slash is the parent or stands above it. -/
theorem cutFrom_parent_append (folder rest : String) :
    CutFrom (parent (folder ++ "/" ++ rest)) folder := by
  refine (cutFrom_append folder rest).eq_or_parent.resolve_left fun heq => ?_
  have hlength := congrArg List.length (congrArg String.toList heq)
  simp at hlength

/-- Below a folder come its segments and then those of the rest, but for empty ones. -/
theorem filter_split_below {keep : String → Bool} (hkeep : keep "" = false) (folder rest : String) :
    (split (below folder rest)).filter keep =
      (split folder).filter keep ++ (split rest).filter keep := by
  have hempty : (split "").filter keep = [] := by
    rw [show split "" = [""] from rfl, List.filter_cons_of_neg (by simp [hkeep]), List.filter_nil]
  by_cases hfolder : folder = ""
  · rw [below, if_pos hfolder, hfolder, hempty, List.nil_append]
  · rw [below, if_neg hfolder]
    split
    · rename_i hrest
      rw [hrest, hempty, List.append_nil]
    · rw [split_append, List.filter_append]

end Slash

namespace Path

variable {root : Path} {folder rest : String}

theorem steps_below_below (root : Path) (folder rest : String) :
    (root.below (Slash.below folder rest)).steps =
      (root.below folder).steps ++ (Slash.split rest).filter isStep := by
  rw [steps_below_eq, steps_below_eq, Slash.filter_split_below rfl, List.append_assoc]

/-- A path whose last segments lead nowhere asks for a folder. -/
theorem asFolder_below (hsegments : (Slash.split rest).filter (· ≠ "") ≠ [])
    (hsteps : (Slash.split rest).filter isStep = []) :
    (root.below (Slash.below folder rest)).asFolder = true := by
  obtain ⟨last, hlast⟩ := Option.isSome_iff_exists.1 (List.getLast?_isSome.2 hsegments)
  have hmem := List.mem_of_mem_filter (List.mem_of_getLast? hlast)
  have hstep : isStep last = false := by simpa using List.filter_eq_nil_iff.1 hsteps last hmem
  simp only [below]
  rw [Slash.filter_split_below (by simp), List.getLast?_append, hlast, Option.some_or,
    Option.map_some, hstep]
  rfl

end Path

namespace Disk

variable {disk : Disk} {root : Path} {folder rest : String}

/-- A file with a dot in its name stands in a folder. -/
theorem isFolder_of_isFile (hdot : '.' ∈ rest.toList)
    (h : disk.isFile (root.below (Slash.below folder rest)) = true) :
    disk.isFolder (root.below folder) = true := by
  obtain ⟨content, hfile⟩ := Option.isSome_iff_exists.1 h
  obtain ⟨hkind, place, hwalk, -⟩ := file?_eq_some_iff.1 hfile
  rw [Path.steps_below_below] at hwalk
  refine isFolder_of_walk? ?_ hwalk
  -- Without a further step the path would ask for a folder.
  intro hsteps
  rw [Path.asFolder_below (Slash.filter_split_ne_nil hdot) hsteps] at hkind
  cases hkind

end Disk

namespace Archive

variable {entries : List ArchiveEntry} {folder rest : String}

theorem isFolder_of_mem {e : ArchiveEntry} (h : e ∈ entries)
    (hcut : Slash.CutFrom (folderOf e.name) folder) :
    (ofEntries entries).isFolder folder = true := by
  rw [isFolder_iff]
  by_cases hfolder : folder = ""
  · exact Or.inl hfolder
  · exact Or.inr (mem_folders_iff.2 ⟨hfolder, e, h, hcut⟩)

theorem folderOf_eq_parent (name : String) : folderOf name = Slash.parent name := by
  unfold folderOf folderName? Slash.parent
  split <;> rename_i hcut <;> simp [hcut]

/-- An entry that can be read stands in a folder. -/
theorem isFolder_of_read? (hrest : rest ≠ "")
    (h : (ofEntries entries).read? (Slash.below folder rest) ≠ none) :
    (ofEntries entries).isFolder folder = true := by
  by_cases hfolder : folder = ""
  · rw [hfolder]
    rfl
  · rw [Slash.below, if_neg hfolder, if_neg hrest] at h
    have hlisted : (ofEntries entries).files.find? (folder ++ "/" ++ rest) ≠ none := by
      intro hnone
      exact h (by rw [read?, hnone, Option.join_none])
    obtain ⟨data, hfind⟩ := Option.ne_none_iff_exists'.1 hlisted
    refine isFolder_of_mem (mem_of_find?_files hfind).1 ?_
    rw [folderOf_eq_parent]
    exact Slash.cutFrom_parent_append folder rest

theorem isFolder_of_mem_fileNames {name : String}
    (h : name ∈ (ofEntries entries).fileNames folder) :
    (ofEntries entries).isFolder folder = true := by
  rw [fileNames, Text.mem_sorted, List.mem_map] at h
  obtain ⟨entry, hentry, -⟩ := h
  obtain ⟨hkey, hparent⟩ := List.mem_filter.1 hentry
  obtain ⟨data, hfind⟩ := Keyed.mem_keys_iff.1 hkey
  refine isFolder_of_mem (mem_of_find?_files hfind).1 ?_
  rw [folderOf_eq_parent, of_decide_eq_true hparent]
  exact .refl

end Archive

namespace Storage

variable {view : View} {storage : Storage} {folder rest : String}

theorem isFolder_of_read (hindexed : storage.IsIndexed view) (hdot : '.' ∈ rest.toList)
    (h : (storage.read (Slash.below folder rest)).value view ≠ none) :
    (storage.isFolder folder).value view = true := by
  cases storage with
  | folder root =>
    apply Disk.isFolder_of_isFile hdot
    simpa [read, Disk.read?, Disk.isFile, Option.isSome_iff_ne_none] using h
  | archive handle =>
    obtain ⟨bytes, hbytes⟩ := Option.ne_none_iff_exists'.1 h
    obtain ⟨archive, hcontent, hread⟩ := Option.bind_eq_some_iff.1 hbytes
    obtain ⟨entries, rfl⟩ := hindexed handle archive rfl hcontent
    have hrest : rest ≠ "" := by
      rintro rfl
      exact absurd hdot List.not_mem_nil
    have hread' := Option.ne_none_iff_exists'.2 ⟨bytes, hread⟩
    exact isFolder_archive_iff.2 ⟨_, hcontent, Archive.isFolder_of_read? hrest hread'⟩

theorem isFolder_of_mem_fileNames (hindexed : storage.IsIndexed view) {name : String}
    (h : name ∈ (storage.fileNames folder).value view) :
    (storage.isFolder folder).value view = true := by
  cases storage with
  | folder root => exact Disk.isFolder_of_names_ne_nil (List.ne_nil_of_mem h)
  | archive handle =>
    simp only [fileNames, Lookup.value_bind, Lookup.value_archive?, Lookup.value_pure] at h
    cases hcontent : view.archive? handle with
    | none =>
      rw [hcontent] at h
      exact absurd h List.not_mem_nil
    | some archive =>
      rw [hcontent] at h
      obtain ⟨entries, rfl⟩ := hindexed handle archive rfl hcontent
      exact isFolder_archive_iff.2 ⟨_, hcontent, Archive.isFolder_of_mem_fileNames h⟩

end Storage

namespace Location

variable {location : Location} {view : View} {name : TypeName} {m : Option ModuleDescriptor}
  {extensions : List String} {type package : String}

theorem HoldsType.holdsPackage (hindexed : location.storage.IsIndexed view)
    (h : location.HoldsType name m extensions view) :
    location.HoldsPackage name.packagePath m view := by
  have hclass : '.' ∈ (name.simple ++ classEnding).toList := by simp [classEnding]
  cases location with
  | source l =>
    obtain ⟨extension, -, -, hfile⟩ := h
    rw [String.append_assoc, name.path_append_eq_below] at hfile
    exact ⟨_, List.mem_singleton_self _, Disk.isFolder_of_isFile (by simp) hfile⟩
  | classes l =>
    rw [HoldsType, name.path_append_eq_below] at h
    exact ⟨_, List.mem_singleton_self _, Disk.isFolder_of_isFile hclass h⟩
  | archive l =>
    obtain ⟨content, hcontent, hread⟩ := h
    rw [name.path_append_eq_below] at hread
    refine ⟨_, List.mem_singleton_self _, Storage.isFolder_of_read hindexed hclass ?_⟩
    simpa [Storage.read, storage, hcontent] using hread
  | image l =>
    obtain ⟨module, hmem, hread⟩ := h
    rw [name.path_append_eq_below, Slash.below_below] at hread
    exact ⟨_, List.mem_map_of_mem hmem, Storage.isFolder_of_read hindexed hclass hread⟩

theorem DeclaresType.holdsPackage (hindexed : location.storage.IsIndexed view)
    (h : location.DeclaresType type package m extensions view) :
    location.HoldsPackage package m view := by
  obtain ⟨folder, hmem, entry, stem, text, hdeclares⟩ := h
  exact ⟨folder, hmem, Storage.isFolder_of_mem_fileNames hindexed hdeclares.listed⟩

/-- A location that answers for a type has the package of the type, as far as its patterns let the
package be seen. -/
theorem isPackage_eq_of_answer (hindexed : location.storage.IsIndexed view)
    (h : (location.type? (location.paths name) m extensions).value view ≠ none ∨
      (location.secondary? name.simple name.packagePath m extensions).value view ≠ none) :
    (location.isPackage name.packagePath m).value view =
      location.admitsPackage name.packagePath := by
  have hholds : m.all (·.serves name.packagePath) = true ∧
      location.HoldsPackage name.packagePath m view := by
    rcases h with h | h
    · obtain ⟨hserves, htype⟩ := type?_ne_none_iff.1 h
      exact ⟨hserves, htype.holdsPackage hindexed⟩
    · obtain ⟨hserves, hdeclares⟩ := secondary?_ne_none_iff.1 h
      exact ⟨hserves, hdeclares.holdsPackage hindexed⟩
  have hreaches : m.all (·.reaches name.packagePath) = true := by
    cases m with
    | none => rfl
    | some descriptor => exact ModuleDescriptor.reaches_of_serves hholds.1
  rw [Bool.eq_iff_iff, isPackage_iff]
  exact ⟨fun h => h.2.1, fun hadmits => ⟨hreaches, hadmits, hholds.2⟩⟩

/-- A class folder, an archive or an image that answers for a type, by the file of the type or by
another one of the package, has the package of the type under the same descriptor. -/
theorem isPackage_of_answer (hkind : location.kind ≠ .sourceFolder) (hview : view.IsIndexed)
    (h : (location.type? (.binary name) m extensions).value view ≠ none ∨
      (location.secondary? name.simple name.packagePath m extensions).value view ≠ none) :
    (location.isPackage name.packagePath m).value view = true := by
  cases location with
  | source l => exact absurd rfl hkind
  | classes l => exact isPackage_eq_of_answer (hview.storage _) h
  | archive l => exact isPackage_eq_of_answer (hview.storage _) h
  | image l => exact isPackage_eq_of_answer (hview.storage _) h

def deepName : TypeName :=
  ⟨["v", "w"], "Deep", by decide, by decide⟩

/-- The archive lists the class alone and none of the folders above it. -/
theorem isPackage_of_answer_nested :
    let location : Location := .archive ⟨⟨0, .ofText "lib.jar"⟩, {}, none, .named ["m"]⟩
    let served : Option ModuleDescriptor := some ⟨"m", ["v/w"]⟩
    let view := Environment.nestedPackage.locations.view Environment.nestedDisk
    location.kind ≠ .sourceFolder ∧ view.IsIndexed ∧
      (location.type? (.binary deepName) served ["java"]).value view ≠ none ∧
      (location.isPackage "v/w" served).value view = true := by
  intro location served view
  have hkind : location.kind ≠ .sourceFolder := by decide
  have hview : view.IsIndexed :=
    LocationSet.isIndexed_view (LocationSet.isIndexed_build _ _ _) Environment.nestedDisk
  have hanswer : (location.type? (.binary deepName) served ["java"]).value view ≠ none := by
    decide +kernel
  exact ⟨hkind, hview, hanswer, isPackage_of_answer hkind hview (Or.inl hanswer)⟩

end Location

end ClasspathLookup
