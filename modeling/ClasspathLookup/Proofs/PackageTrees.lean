import ClasspathLookup.Proofs.ArchiveIndex
import ClasspathLookup.Proofs.IndexedArchives
import ClasspathLookup.Proofs.SameKey
import ClasspathLookup.Proofs.WiderFilters
import Mathlib.Data.Nat.Init

/-!
# Packages and the packages above them

A slash in the name of a package cuts off a package above it, and that one is there as well: on the
disk because a walk passes through it, in an archive because its folders are complete upwards, and
under a descriptor because what is reached below a package reaches the package. Only the patterns of
a source folder can hide a package and show one below it.
-/

namespace ClasspathLookup

namespace Slash

theorem splitChars_append_sep (sep : Char) (front cs : List Char) :
    splitChars sep (front ++ sep :: cs) = splitChars sep front ++ splitChars sep cs := by
  induction front with
  | nil => simp [splitChars]
  | cons c front ih =>
    obtain ⟨first, rest, hs⟩ := List.exists_cons_of_ne_nil (splitChars_ne_nil sep front)
    rw [List.cons_append, splitChars, splitChars, ih, hs]
    split <;> rfl

/-- A slash stands between the segments before it and those after it. -/
theorem split_append (folder rest : String) :
    split (folder ++ "/" ++ rest) = split folder ++ split rest := by
  have htext : (folder ++ "/" ++ rest).toList = folder.toList ++ '/' :: rest.toList := by simp
  rw [split, htext, splitChars_append_sep, List.map_append, split, split]

/-- Any slash of a text is reached by dropping last segments. -/
theorem cutFrom_append (folder rest : String) : CutFrom (folder ++ "/" ++ rest) folder := by
  induction hlength : rest.length using Nat.strong_induction_on generalizing rest with
  | _ length ih =>
    have hlast : CutFrom (folder ++ "/" ++ rest) (parent (folder ++ "/" ++ rest)) := .parent .refl
    cases hcut : cutLast '/' rest with
    | none =>
      have hslash : '/' ∉ rest.toList := by
        rwa [cutLast, Option.map_eq_none_iff, cutLastChars_eq_none_iff] at hcut
      rwa [parent, cutLast_append hslash] at hlast
    | some cut =>
      obtain ⟨before, after⟩ := cut
      obtain ⟨htext, hafter⟩ := toList_of_cutLast hcut
      obtain rfl : rest = before ++ "/" ++ after := by
        rw [← String.toList_inj, htext]
        simp
      have hparent : parent (folder ++ "/" ++ (before ++ "/" ++ after)) =
          folder ++ "/" ++ before := by
        rw [← String.append_assoc, ← String.append_assoc, parent, cutLast_append hafter]
      rw [hparent] at hlast
      refine hlast.trans (ih before.length ?_ before rfl)
      rw [← hlength]
      simp only [String.length_append]
      have hone : "/".length = 1 := rfl
      omega

/-- What is cut from a text, and is not all of it, is cut from its parent. -/
theorem CutFrom.eq_or_parent {text folder : String} (h : CutFrom text folder) :
    folder = text ∨ CutFrom (Slash.parent text) folder := by
  induction h with
  | refl => exact Or.inl rfl
  | parent _ ih =>
    rcases ih with rfl | h
    · exact Or.inr .refl
    · exact Or.inr h.parent

/-- Below any folder a package starts with the packages above it. -/
theorem exists_below_append (module package rest : String) :
    ∃ more, below module (package ++ "/" ++ rest) = below module package ++ "/" ++ more := by
  have hne : package ++ "/" ++ rest ≠ "" := by simp
  by_cases hmodule : module = ""
  · exact ⟨rest, by rw [below, if_pos hmodule, below, if_pos hmodule]⟩
  · rw [below, if_neg hmodule, if_neg hne, below, if_neg hmodule]
    split
    · rename_i hpackage
      exact ⟨package ++ "/" ++ rest, rfl⟩
    · exact ⟨rest, by simp only [String.append_assoc]⟩

end Slash

namespace Path

theorem steps_below_eq (root : Path) (relative : String) :
    (root.below relative).steps = root.steps ++ (Slash.split relative).filter isStep := by
  have hsteps : ((Slash.split relative).filter (· ≠ "")).filter isStep =
      (Slash.split relative).filter isStep := by
    rw [List.filter_filter]
    congr
    funext segment
    by_cases hempty : segment = "" <;> simp [isStep, hempty]
  rw [← hsteps]
  rfl

theorem steps_below_append (root : Path) (folder rest : String) :
    (root.below (folder ++ "/" ++ rest)).steps =
      (root.below folder).steps ++ (Slash.split rest).filter isStep := by
  rw [steps_below_eq, steps_below_eq, Slash.split_append, List.filter_append, List.append_assoc]

end Path

namespace Disk

variable {disk : Disk} {path path' : Path}

/-- A walk goes on only from a folder. -/
theorem isFolder_of_walk? {more : List String} {place : Place} (hmore : more ≠ [])
    (h : disk.walk? (path.steps ++ more) = some place) : disk.isFolder path = true := by
  obtain ⟨step, more, rfl⟩ := List.exists_cons_of_ne_nil hmore
  rw [walk?, List.foldlM_append] at h
  obtain ⟨middle, hmiddle, h⟩ := Option.bind_eq_some_iff.1 h
  rw [List.foldlM_cons] at h
  obtain ⟨next, henter, -⟩ := Option.bind_eq_some_iff.1 h
  unfold enter? at henter
  split at henter
  · rename_i hfolder
    exact isFolder_iff.2 ⟨middle, find?_eq_folder_iff.2 ⟨hmiddle, isFolderAt_iff.1 hfolder⟩⟩
  · cases henter

theorem isFolder_of_prefix (hsteps : path.steps <+: path'.steps)
    (h : disk.isFolder path' = true) : disk.isFolder path = true := by
  obtain ⟨more, hmore⟩ := hsteps
  by_cases hnil : more = []
  · rw [hnil, List.append_nil] at hmore
    rwa [isFolder_of_steps hmore]
  · obtain ⟨place, hwalk, -⟩ := walk?_of_isFolder h
    rw [← hmore] at hwalk
    exact isFolder_of_walk? hnil hwalk

end Disk

namespace Archive

variable {entries : List ArchiveEntry} {name folder : String}

theorem isFolder_iff {archive : Archive} :
    archive.isFolder name = true ↔ name = "" ∨ name ∈ archive.folders := by
  simp [isFolder]

/-- The folders of an index are complete upwards. -/
theorem isFolder_of_cutFrom (h : (ofEntries entries).isFolder name = true)
    (hcut : Slash.CutFrom name folder) : (ofEntries entries).isFolder folder = true := by
  rw [isFolder_iff] at h ⊢
  by_cases hfolder : folder = ""
  · exact Or.inl hfolder
  · exact Or.inr ((complete_ofEntries entries).mem_of_cutFrom h.resolve_left hcut hfolder)

end Archive

namespace Storage

variable {view : View} {storage : Storage} {folder rest : String}

theorem isFolder_archive_iff {handle : ArchiveHandle} :
    ((Storage.archive handle).isFolder folder).value view = true ↔
      ∃ archive, view.archive? handle = some archive ∧ archive.isFolder folder = true := by
  simp only [isFolder, Lookup.value_bind, Lookup.value_archive?, Lookup.value_pure]
  cases view.archive? handle <;> simp

/-- What stands before a slash in the path of a folder is a folder. -/
theorem isFolder_of_append (hindexed : storage.IsIndexed view)
    (h : (storage.isFolder (folder ++ "/" ++ rest)).value view = true) :
    (storage.isFolder folder).value view = true := by
  cases storage with
  | folder root =>
    refine Disk.isFolder_of_prefix ?_ h
    rw [Path.steps_below_append]
    exact List.prefix_append _ _
  | archive handle =>
    obtain ⟨archive, hcontent, hfolder⟩ := isFolder_archive_iff.1 h
    obtain ⟨entries, rfl⟩ := hindexed handle archive rfl hcontent
    exact isFolder_archive_iff.2
      ⟨_, hcontent, Archive.isFolder_of_cutFrom hfolder (Slash.cutFrom_append folder rest)⟩

end Storage

/-- Below a package that is reached only such packages lie that reach it as well. -/
theorem ModuleDescriptor.reaches_of_append {m : ModuleDescriptor} {package rest : String}
    (h : m.reaches (package ++ "/" ++ rest) = true) : m.reaches package = true := by
  have hbelow : ∀ {served : String},
      (package ++ "/" ++ rest).toList <+: served.toList →
        (package.toList ++ ['/']).isPrefixOf served.toList = true := by
    intro served hserved
    rw [List.isPrefixOf_iff_prefix]
    refine List.IsPrefix.trans ?_ hserved
    rw [String.toList_append, String.toList_append]
    exact List.prefix_append _ _
  simp only [reaches, serves, Bool.or_eq_true, List.any_eq_true, List.contains_iff_mem] at h ⊢
  rcases h with (hall | hmem) | ⟨served, hmem, hserved⟩
  · exact Or.inl (Or.inl hall)
  · exact Or.inr ⟨_, hmem, hbelow (List.prefix_refl _)⟩
  · refine Or.inr ⟨served, hmem, hbelow ?_⟩
    exact (List.prefix_append _ _).trans (List.isPrefixOf_iff_prefix.1 hserved)

theorem SourceFolder.admitsPackage_of_no_patterns {folder : SourceFolder}
    (hinclusion : folder.inclusion = []) (hexclusion : folder.exclusion = []) (package : String) :
    folder.admitsPackage package = true := by
  simp [admitsPackage, hinclusion, hexclusion]

namespace Location

variable {location : Location} {view : View} {package rest : String} {m : Option ModuleDescriptor}

/-- Only the patterns of a source folder can hide a package that is there. -/
def admitsPackage : Location → String → Bool
  | .source folder => folder.admitsPackage
  | .classes _ | .archive _ | .image _ => fun _ => true

/-- There is a folder of the package, in an image below a module. -/
def HoldsPackage (location : Location) (package : String) (m : Option ModuleDescriptor)
    (view : View) : Prop :=
  ∃ folder ∈ location.packageFolders package m view,
    (location.storage.isFolder folder).value view = true

theorem isPackage_iff : (location.isPackage package m).value view = true ↔
    m.all (·.reaches package) = true ∧ location.admitsPackage package = true ∧
      location.HoldsPackage package m view := by
  unfold isPackage
  by_cases hreaches : m.all (·.reaches package) = true
  · rw [if_pos hreaches]
    cases location with
    | source l =>
      simp [hreaches, admitsPackage, HoldsPackage, packageFolders, storage, Storage.isFolder]
    | classes l => simp [hreaches, admitsPackage, HoldsPackage, packageFolders, storage]
    | archive l => simp [hreaches, admitsPackage, HoldsPackage, packageFolders, storage]
    | image l => simp [hreaches, admitsPackage, HoldsPackage, packageFolders, storage]
  · rw [if_neg hreaches]
    simp [hreaches]

theorem exists_packageFolder_of_append {folder : String}
    (h : folder ∈ location.packageFolders (package ++ "/" ++ rest) m view) :
    ∃ above ∈ location.packageFolders package m view, ∃ more, folder = above ++ "/" ++ more := by
  cases location with
  | source l => exact ⟨package, List.mem_singleton_self _, rest, List.mem_singleton.1 h⟩
  | classes l => exact ⟨package, List.mem_singleton_self _, rest, List.mem_singleton.1 h⟩
  | archive l => exact ⟨package, List.mem_singleton_self _, rest, List.mem_singleton.1 h⟩
  | image l =>
    obtain ⟨module, hmodule, rfl⟩ := List.mem_map.1 h
    exact ⟨_, List.mem_map_of_mem hmodule, Slash.exists_below_append module package rest⟩

theorem HoldsPackage.of_append (hindexed : location.storage.IsIndexed view)
    (h : location.HoldsPackage (package ++ "/" ++ rest) m view) :
    location.HoldsPackage package m view := by
  obtain ⟨folder, hmem, hfolder⟩ := h
  obtain ⟨above, habove, more, rfl⟩ := exists_packageFolder_of_append hmem
  exact ⟨above, habove, Storage.isFolder_of_append hindexed hfolder⟩

/-- Where a package is visible at all, it is there when one below it is. -/
theorem isPackage_of_append (hindexed : location.storage.IsIndexed view)
    (hadmits : location.admitsPackage package = true)
    (h : (location.isPackage (package ++ "/" ++ rest) m).value view = true) :
    (location.isPackage package m).value view = true := by
  obtain ⟨hreaches, -, hholds⟩ := isPackage_iff.1 h
  refine isPackage_iff.2 ⟨?_, hadmits, hholds.of_append hindexed⟩
  cases m with
  | none => rfl
  | some descriptor => exact ModuleDescriptor.reaches_of_append hreaches

end Location

namespace Environment

variable {environment : Environment} {disk : Disk}

/-- Without patterns in the source folders the packages of an environment are complete upwards: what
stands before a slash in the name of a package is a package too, under whichever filter. -/
theorem isPackage_of_below {package rest : String} {filter : ModuleFilter}
    (hindexed : environment.locations.archives.IsIndexed)
    (hpatterns : ∀ folder, .source folder ∈ environment.locations.locations →
      folder.inclusion = [] ∧ folder.exclusion = [])
    (h : (environment.isPackage (package ++ "/" ++ rest) filter).value
      (environment.locations.view disk) = true) :
    (environment.isPackage package filter).value (environment.locations.view disk) = true := by
  rw [isPackage_iff] at h ⊢
  obtain ⟨location, hmem, m, hm, hpackage⟩ := h
  have hview := LocationSet.isIndexed_view hindexed disk
  refine ⟨location, hmem, m, hm, location.isPackage_of_append (hview.storage _) ?_ hpackage⟩
  cases location with
  | source l =>
    obtain ⟨hinclusion, hexclusion⟩ := hpatterns l hmem
    exact SourceFolder.admitsPackage_of_no_patterns hinclusion hexclusion package
  | classes l => rfl
  | archive l => rfl
  | image l => rfl

/-- An archive of one module, with one class in a package below another one. -/
def nestedDisk : Disk :=
  Disk.empty.put (.ofText "lib.jar") (.file (.archive [⟨"v/w/Deep.class", some "deep".toUTF8⟩]))

def nestedPackage : Environment :=
  .create (.build nestedDisk [{ path := .ofText "lib.jar", module := some "m" }] ["jar"]) [] {}

/-- No entry of the archive stands directly in the upper package, and the descriptor does not name
it. The archive was opened before and is not there any more. -/
theorem isPackage_of_below_nested :
    let environment := nestedPackage.after [(nestedDisk, .ask (.isPackage "v" .all))]
    let filter : ModuleFilter := .only [⟨"m", ["v/w"]⟩]
    let view := environment.locations.view Disk.empty
    environment.locations.archives.IsIndexed ∧
      (∀ folder, .source folder ∈ environment.locations.locations →
        folder.inclusion = [] ∧ folder.exclusion = []) ∧
      (environment.isPackage "v/w" filter).value view = true ∧
      (environment.isPackage "v" filter).value view = true := by
  intro environment filter view
  have hindexed : environment.locations.archives.IsIndexed :=
    isIndexed_after (LocationSet.isIndexed_build _ _ _) _
  have hlocations : environment.locations.locations =
      [.archive ⟨⟨0, .ofText "lib.jar"⟩, {}, none, .named ["m"]⟩] := by decide +kernel
  have hpatterns : ∀ folder, .source folder ∈ environment.locations.locations →
      folder.inclusion = [] ∧ folder.exclusion = [] := by
    intro folder hmem
    rw [hlocations, List.mem_singleton] at hmem
    cases hmem
  have hpackage : (environment.isPackage ("v" ++ "/" ++ "w") filter).value view = true := by
    decide +kernel
  exact ⟨hindexed, hpatterns, hpackage, isPackage_of_below hindexed hpatterns hpackage⟩

end Environment

end ClasspathLookup
