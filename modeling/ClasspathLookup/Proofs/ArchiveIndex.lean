import ClasspathLookup.Archive.Index
import ClasspathLookup.Proofs.FileTree

/-!
# What an archive index holds

The files of an index are the entries that do not end in a slash. Its folders are those that the
entries bring in, with all above them: adding one stops at the first folder that is already there,
and loses nothing by it, because the index is complete upwards after every entry.
-/

namespace ClasspathLookup

namespace Slash

/-- What is left of a text when last segments are dropped. -/
inductive CutFrom (text : String) : String → Prop
  | refl : CutFrom text text
  | parent {folder : String} (h : CutFrom text folder) : CutFrom text (Slash.parent folder)

theorem CutFrom.trans {text middle folder : String} (h : CutFrom text middle)
    (hrest : CutFrom middle folder) : CutFrom text folder := by
  induction hrest with
  | refl => exact h
  | parent _ ih => exact ih.parent

variable {names others : List String}

theorem join_injective (hnames : AllPlain names) (hothers : AllPlain others)
    (h : join names = join others) : names = others := by
  have hsteps := congrArg (fun text => (Path.below ⟨[], false⟩ text).steps) h
  simpa only [Path.below_join _ hnames, Path.below_join _ hothers, List.nil_append] using hsteps

theorem join_concat_plain {name : String} (h : AllPlain (names ++ [name])) :
    join (names ++ [name]) = below (join names) name := by
  obtain ⟨hnames, hname⟩ := allPlain_concat_iff.1 h
  exact join_concat (fun other hother => (hnames other hother).nonempty) hname.nonempty

theorem join_cons_plain {name : String} (h : AllPlain (name :: names)) :
    join (name :: names) = below name (join names) := by
  obtain ⟨hname, hnames⟩ := List.forall_mem_cons.1 h
  exact (below_join hname.nonempty fun other hother => (hnames other hother).nonempty).symm

theorem parent_join (h : AllPlain names) : parent (join names) = join names.dropLast := by
  induction names using List.reverseRecOn with
  | nil => rfl
  | append_singleton names name =>
    have hname := (allPlain_concat_iff.1 h).2
    rw [join_concat_plain h, parent_below hname.nonempty hname.slashFree, List.dropLast_concat]

theorem last_join {name : String} (h : AllPlain (names ++ [name])) :
    last (join (names ++ [name])) = name := by
  have hname := (allPlain_concat_iff.1 h).2
  rw [join_concat_plain h, last_below hname.nonempty hname.slashFree]

/-- Above joined names are their initial segments. -/
theorem cutFrom_join_iff (h : AllPlain names) {folder : String} :
    CutFrom (join names) folder ↔ ∃ initial, initial <+: names ∧ folder = join initial := by
  constructor
  · intro hcut
    induction hcut with
    | refl => exact ⟨names, List.prefix_refl _, rfl⟩
    | parent _ ih =>
      obtain ⟨initial, hinitial, rfl⟩ := ih
      refine ⟨initial.dropLast, (List.dropLast_prefix _).trans hinitial, ?_⟩
      exact parent_join fun name hname => h name (hinitial.subset hname)
  · rintro ⟨initial, ⟨rest, rfl⟩, rfl⟩
    induction rest using List.reverseRecOn with
    | nil => rw [List.append_nil]; exact .refl
    | append_singleton rest name ih =>
      rw [← List.append_assoc] at h ⊢
      have hparent := parent_join h
      rw [List.dropLast_concat] at hparent
      have hlast : CutFrom (join (initial ++ rest ++ [name])) (join (initial ++ rest)) :=
        hparent ▸ .parent .refl
      exact hlast.trans (ih (allPlain_concat_iff.1 h).1)

end Slash

namespace Archive

variable {folders : List String} {folder pending : String}

/-- A list of folders that holds the folder above each of them, but for the root and one that is
still to be added. -/
structure Indexed (folders : List String) (pending : String) : Prop where
  nonempty : "" ∉ folders
  nodup : folders.Nodup
  parent : ∀ folder ∈ folders, Slash.parent folder = "" ∨ Slash.parent folder ∈ folders ∨
    Slash.parent folder = pending

/-- The list is complete upwards. -/
abbrev Complete (folders : List String) : Prop :=
  Indexed folders ""

/-- Once nothing is left to be added, any folder may come next. -/
theorem Indexed.next (h : Indexed folders pending) (hpending : pending = "" ∨ pending ∈ folders)
    (other : String) : Indexed folders other := by
  refine ⟨h.nonempty, h.nodup, fun folder hfolder => ?_⟩
  rcases h.parent folder hfolder with hroot | hmem | rfl
  · exact Or.inl hroot
  · exact Or.inr (Or.inl hmem)
  · exact hpending.imp_right Or.inl

theorem Complete.indexed (h : Complete folders) (folder : String) : Indexed folders folder :=
  Indexed.next h (Or.inl rfl) folder

theorem Complete.mem_of_cutFrom (h : Complete folders) {text : String}
    (htext : text ≠ "" → text ∈ folders) (hcut : Slash.CutFrom text folder)
    (hfolder : folder ≠ "") : folder ∈ folders := by
  induction hcut with
  | refl => exact htext hfolder
  | @parent folder _ ih =>
    have hne : folder ≠ "" := by
      rintro rfl
      exact hfolder rfl
    rcases h.parent folder (ih hne) with hroot | hmem | hroot
    · exact absurd hroot hfolder
    · exact hmem
    · exact absurd hroot hfolder

/-- A new folder leaves the one above it to be added. -/
theorem Indexed.cons (h : Indexed folders folder) (hne : folder ≠ "") (hnew : folder ∉ folders) :
    Indexed (folder :: folders) (Slash.parent folder) := by
  refine ⟨?_, List.nodup_cons.2 ⟨hnew, h.nodup⟩, ?_⟩
  · intro hroot
    rcases List.mem_cons.1 hroot with hroot | hroot
    · exact hne hroot.symm
    · exact h.nonempty hroot
  · intro other hother
    rcases List.mem_cons.1 hother with rfl | hother
    · exact Or.inr (Or.inr rfl)
    · rcases h.parent other hother with hroot | hmem | hpending
      · exact Or.inl hroot
      · exact Or.inr (Or.inl (List.mem_cons_of_mem _ hmem))
      · exact Or.inr (Or.inl (hpending ▸ List.mem_cons_self))

theorem complete_addFolder (h : Indexed folders folder) :
    Complete (addFolder folders folder) := by
  induction folders, folder using addFolder.induct with
  | case1 folders =>
    rw [addFolder, dif_pos rfl]
    exact h
  | case2 folders folder hne hmem =>
    rw [addFolder, dif_neg hne, if_pos hmem]
    exact h.next (Or.inr hmem) ""
  | case3 folders folder hne hnew ih =>
    rw [addFolder, dif_neg hne, if_neg hnew]
    exact ih (h.cons hne hnew)

theorem subset_addFolder (folders : List String) (folder : String) :
    folders ⊆ addFolder folders folder := by
  induction folders, folder using addFolder.induct with
  | case1 folders =>
    rw [addFolder, dif_pos rfl]
    exact List.Subset.refl _
  | case2 folders folder hne hmem =>
    rw [addFolder, dif_neg hne, if_pos hmem]
    exact List.Subset.refl _
  | case3 folders folder hne hnew ih =>
    rw [addFolder, dif_neg hne, if_neg hnew]
    exact fun other hother => ih (List.mem_cons_of_mem _ hother)

theorem mem_addFolder_self (hne : folder ≠ "") : folder ∈ addFolder folders folder := by
  rw [addFolder, dif_neg hne]
  split
  · assumption
  · exact subset_addFolder _ _ List.mem_cons_self

theorem cutFrom_of_mem_addFolder {other : String} (h : other ∈ addFolder folders folder) :
    other ∈ folders ∨ Slash.CutFrom folder other := by
  induction folders, folder using addFolder.induct with
  | case1 folders =>
    rw [addFolder, dif_pos rfl] at h
    exact Or.inl h
  | case2 folders folder hne hmem =>
    rw [addFolder, dif_neg hne, if_pos hmem] at h
    exact Or.inl h
  | case3 folders folder hne hnew ih =>
    rw [addFolder, dif_neg hne, if_neg hnew] at h
    rcases ih h with hold | habove
    · rcases List.mem_cons.1 hold with rfl | hold
      · exact Or.inr .refl
      · exact Or.inl hold
    · exact Or.inr ((Slash.CutFrom.parent .refl).trans habove)

theorem mem_addFolder_iff (h : Complete folders) {other : String} :
    other ∈ addFolder folders folder ↔
      other ∈ folders ∨ other ≠ "" ∧ Slash.CutFrom folder other := by
  have hcomplete : Complete (addFolder folders folder) := complete_addFolder (h.indexed folder)
  constructor
  · intro hmem
    refine (cutFrom_of_mem_addFolder hmem).imp_right fun habove => ⟨?_, habove⟩
    rintro rfl
    exact hcomplete.nonempty hmem
  · rintro (hold | ⟨hne, habove⟩)
    · exact subset_addFolder _ _ hold
    · exact hcomplete.mem_of_cutFrom mem_addFolder_self habove hne

/-- The folders of an index after further entries. -/
def addEntries (folders : List String) (entries : List ArchiveEntry) : List String :=
  entries.foldl (fun folders e => addFolder folders (folderOf e.name)) folders

theorem complete_addEntries (entries : List ArchiveEntry) (h : Complete folders) :
    Complete (addEntries folders entries) := by
  induction entries generalizing folders with
  | nil => exact h
  | cons e entries ih => exact ih (complete_addFolder (h.indexed (folderOf e.name)))

theorem mem_addEntries_iff (entries : List ArchiveEntry) (h : Complete folders) :
    folder ∈ addEntries folders entries ↔
      folder ∈ folders ∨ folder ≠ "" ∧ ∃ e ∈ entries, Slash.CutFrom (folderOf e.name) folder := by
  induction entries generalizing folders with
  | nil => simp [addEntries]
  | cons e entries ih =>
    have hnext : Complete (addFolder folders (folderOf e.name)) :=
      complete_addFolder (h.indexed (folderOf e.name))
    rw [addEntries, List.foldl_cons, ← addEntries, ih hnext, mem_addFolder_iff h,
      List.exists_mem_cons_iff, and_or_left, or_assoc]

theorem complete_nil : Complete [] :=
  ⟨List.not_mem_nil, List.nodup_nil, by simp⟩

theorem complete_ofEntries (entries : List ArchiveEntry) : Complete (ofEntries entries).folders :=
  complete_addEntries entries complete_nil

/-- The folders of an index are those that an entry names or stands in, directly or not. -/
theorem mem_folders_iff {entries : List ArchiveEntry} : folder ∈ (ofEntries entries).folders ↔
    folder ≠ "" ∧ ∃ e ∈ entries, Slash.CutFrom (folderOf e.name) folder := by
  have hmem : folder ∈ addEntries [] entries ↔ _ := mem_addEntries_iff entries complete_nil
  rwa [or_iff_right List.not_mem_nil] at hmem

theorem folderName?_concat (folder : String) : folderName? (folder ++ "/") = some folder := by
  have hcut : Slash.cutLast '/' (folder ++ "/" ++ "") = some (folder, "") :=
    Slash.cutLast_append List.not_mem_nil
  rw [String.append_empty] at hcut
  simp [folderName?, hcut]

theorem folderOf_concat (folder : String) : folderOf (folder ++ "/") = folder := by
  rw [folderOf, folderName?_concat, Option.getD_some]

theorem last_eq_empty {name : String} (h : folderName? name = some folder) :
    Slash.last name = "" := by
  unfold folderName? at h
  unfold Slash.last
  split at h
  · rename_i hcut
    rw [hcut]
  · simp at h

section Names

variable {names : List String} (h : AllPlain names)

include h

theorem folderName?_join : folderName? (Slash.join names) = none := by
  induction names using List.reverseRecOn with
  | nil => rfl
  | append_singleton names name =>
    cases hfolder : folderName? (Slash.join (names ++ [name])) with
    | none => rfl
    | some folder =>
      have hempty := last_eq_empty hfolder
      rw [Slash.last_join h] at hempty
      exact absurd hempty (allPlain_concat_iff.1 h).2.nonempty

theorem folderOf_join : folderOf (Slash.join names) = Slash.join names.dropLast := by
  rw [folderOf, folderName?_join h, Option.getD_none, Slash.parent_join h]

end Names

/-- Only what is listed can be read. -/
theorem mem_of_find?_files {entries : List ArchiveEntry} {name : String} {data : Option ByteArray}
    (h : (ofEntries entries).files.find? name = some data) :
    ⟨name, data⟩ ∈ entries ∧ isFolderName name = false := by
  have hmem := Keyed.mem_of_find?_ofList h
  simp only [List.mem_map, List.mem_filter, Prod.mk.injEq, Bool.not_eq_true'] at hmem
  obtain ⟨e, ⟨hmem, hfile⟩, rfl, rfl⟩ := hmem
  exact ⟨hmem, hfile⟩

theorem exists_find?_files {entries : List ArchiveEntry} {name : String} {data : Option ByteArray}
    (h : ⟨name, data⟩ ∈ entries) (hfile : isFolderName name = false) :
    ∃ last, (ofEntries entries).files.find? name = some last := by
  have hlisted : (name, data) ∈
      (entries.filter fun e => !isFolderName e.name).map fun e => (e.name, e.data) := by
    simp only [List.mem_map, List.mem_filter, Prod.mk.injEq, Bool.not_eq_true']
    exact ⟨⟨name, data⟩, ⟨h, hfile⟩, rfl, rfl⟩
  exact Keyed.exists_find?_ofList hlisted

end Archive

end ClasspathLookup
