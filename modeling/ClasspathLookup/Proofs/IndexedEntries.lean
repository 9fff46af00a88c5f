import ClasspathLookup.Proofs.TypesInPackages

/-!
# An index has what its entries name, and nothing else

Going up from every entry, and never stopping before the root, gives the same folders as going up to
the first folder that is there already. An index can therefore be told from the names of its entries
alone: in which order they come, and how often, makes no difference to what it has.
-/

namespace ClasspathLookup

namespace Slash

/-- A folder and all folders above it, but for the root. -/
def upwards (folder : String) : List String :=
  if _h : folder = "" then []
  else folder :: upwards (parent folder)
termination_by folder.length
decreasing_by exact length_parent_lt _h

theorem CutFrom.eq_empty {folder : String} (h : CutFrom "" folder) : folder = "" := by
  induction h with
  | refl => rfl
  | parent _ ih => rw [ih]; rfl

theorem mem_upwards_iff {folder other : String} :
    other ∈ upwards folder ↔ other ≠ "" ∧ CutFrom folder other := by
  induction folder using upwards.induct with
  | case1 =>
    rw [upwards, dif_pos rfl]
    constructor
    · intro h
      cases h
    · rintro ⟨hne, habove⟩
      exact absurd habove.eq_empty hne
  | case2 folder hfolder ih =>
    rw [upwards, dif_neg hfolder, List.mem_cons, ih]
    constructor
    · rintro (rfl | ⟨hne, habove⟩)
      · exact ⟨hfolder, .refl⟩
      · exact ⟨hne, (CutFrom.parent .refl).trans habove⟩
    · rintro ⟨hne, habove⟩
      exact habove.eq_or_parent.imp_right fun habove => ⟨hne, habove⟩

end Slash

namespace Archive

variable {entries : List ArchiveEntry} {name folder : String}

/-- The folder at which an entry enters an index: a name that ends in a slash is that folder, any
other name stands in it. -/
inductive EntersAt : String → String → Prop
  | folder (folder : String) : EntersAt (folder ++ "/") folder
  | file {name : String} (h : ¬ ['/'] <:+ name.toList) : EntersAt name (Slash.parent name)

theorem exists_eq_append_of_isSuffix (h : ['/'] <:+ name.toList) : ∃ folder, name = folder ++ "/" := by
  obtain ⟨front, hfront⟩ := h
  refine ⟨String.ofList front, ?_⟩
  rw [← String.toList_inj, ← hfront]
  simp

theorem entersAt_iff : EntersAt name folder ↔ folderOf name = folder := by
  constructor
  · rintro (_ | hfile)
    · exact folderOf_concat folder
    · exact folderOf_eq_parent name
  · rintro rfl
    by_cases hslash : ['/'] <:+ name.toList
    · obtain ⟨folder, rfl⟩ := exists_eq_append_of_isSuffix hslash
      rw [folderOf_concat]
      exact .folder folder
    · rw [folderOf_eq_parent]
      exact .file hslash

theorem isFolderName_iff : isFolderName name = true ↔ ['/'] <:+ name.toList := by
  constructor
  · intro h
    obtain ⟨folder, hfolder⟩ := Option.isSome_iff_exists.1 h
    unfold folderName? at hfolder
    split at hfolder
    · rename_i front hcut
      exact ⟨front.toList, (Slash.toList_of_cutLast hcut).1.symm⟩
    · cases hfolder
  · intro h
    obtain ⟨folder, rfl⟩ := exists_eq_append_of_isSuffix h
    rw [isFolderName, folderName?_concat, Option.isSome_some]

theorem mem_folders_iff_entersAt : folder ∈ (ofEntries entries).folders ↔
    folder ≠ "" ∧ ∃ name ∈ entries.map (·.name), ∃ first,
      EntersAt name first ∧ Slash.CutFrom first folder := by
  simp only [mem_folders_iff, entersAt_iff, List.mem_map, exists_exists_and_eq_and, exists_eq_left']

/-- Nothing is lost by stopping at a folder that is there already. -/
theorem mem_folders_iff_upwards : folder ∈ (ofEntries entries).folders ↔
    folder ∈ entries.flatMap fun e => Slash.upwards (folderOf e.name) := by
  simp only [mem_folders_iff, List.mem_flatMap, Slash.mem_upwards_iff]
  constructor
  · rintro ⟨hne, e, he, habove⟩
    exact ⟨e, he, hne, habove⟩
  · rintro ⟨e, he, hne, habove⟩
    exact ⟨hne, e, he, habove⟩

theorem mem_keys_files_iff : name ∈ (ofEntries entries).files.keys ↔
    name ∈ entries.map (·.name) ∧ ¬ ['/'] <:+ name.toList := by
  rw [Keyed.mem_keys_iff, ← isFolderName_iff, Bool.not_eq_true]
  constructor
  · rintro ⟨data, hfind⟩
    obtain ⟨hmem, hfile⟩ := mem_of_find?_files hfind
    exact ⟨List.mem_map_of_mem hmem, hfile⟩
  · rintro ⟨hnamed, hfile⟩
    obtain ⟨⟨name, data⟩, hmem, rfl⟩ := List.mem_map.1 hnamed
    exact exists_find?_files hmem hfile

/-- The index of an opened archive has all folders, and no others, that are reached upwards from
where its entries enter it. It has each of them once, with all above it, and just those that would
be reached without ever stopping early. Its files are the names that do not end in a slash. So the
names of the entries tell what it has, whatever their order. -/
theorem ofEntries_has_exactly (entries : List ArchiveEntry) :
    let archive := ofEntries entries
    (∀ disk path raw, Disk.file? disk path = some (.archive entries raw) →
      open? disk path = some archive) ∧
    (∀ folder, folder ∈ archive.folders ↔
      folder ≠ "" ∧ ∃ name ∈ entries.map (·.name), ∃ first,
        EntersAt name first ∧ Slash.CutFrom first folder) ∧
    (∀ folder, folder ∈ archive.folders ↔
      folder ∈ entries.flatMap fun e => Slash.upwards (folderOf e.name)) ∧
    (∀ folder ∈ archive.folders, Slash.parent folder = "" ∨
      Slash.parent folder ∈ archive.folders) ∧
    archive.folders.Nodup ∧
    (∀ name, name ∈ archive.files.keys ↔
      name ∈ entries.map (·.name) ∧ ¬ ['/'] <:+ name.toList) ∧
    ∀ others, (∀ name, name ∈ entries.map (·.name) ↔ name ∈ others.map (·.name)) →
      (∀ folder, folder ∈ archive.folders ↔ folder ∈ (ofEntries others).folders) ∧
      ∀ name, name ∈ archive.files.keys ↔ name ∈ (ofEntries others).files.keys := by
  intro archive
  have hcomplete : Complete archive.folders := complete_ofEntries entries
  refine ⟨?_, fun folder => mem_folders_iff_entersAt, fun folder => mem_folders_iff_upwards, ?_,
    hcomplete.nodup, fun name => mem_keys_files_iff, ?_⟩
  · intro disk path raw hfile
    rw [open?, hfile]
  · intro folder hfolder
    rcases hcomplete.parent folder hfolder with hroot | hmem | hroot
    · exact Or.inl hroot
    · exact Or.inr hmem
    · exact Or.inl hroot
  · intro others hnames
    constructor
    · intro folder
      rw [mem_folders_iff_entersAt, mem_folders_iff_entersAt]
      simp only [hnames]
    · intro name
      rw [mem_keys_files_iff, mem_keys_files_iff, hnames]

/-- A doubled slash, in one order of the entries and in another with a repetition. -/
theorem ofEntries_has_exactly_doubled :
    let entries : List ArchiveEntry := [⟨"p/q/Foo.class", none⟩, ⟨"p//", none⟩]
    let others : List ArchiveEntry := [⟨"p//", none⟩, ⟨"p/q/Foo.class", none⟩, ⟨"p//", none⟩]
    let disk := Disk.empty.put (.ofText "lib.jar") (.file (.archive entries))
    open? disk (.ofText "lib.jar") = some (ofEntries entries) ∧
    "p/" ∈ (ofEntries entries).folders ∧ "p" ∈ (ofEntries entries).folders ∧
    "p/" ∈ (ofEntries others).folders ∧
    (ofEntries entries).files.keys = ["p/q/Foo.class"] := by
  intro entries others disk
  obtain ⟨hopen, hfolders, -, habove, -, -, hothers⟩ := ofEntries_has_exactly entries
  have hfile : disk.file? (.ofText "lib.jar") = some (.archive entries) := by decide +kernel
  have hnames : ∀ name, name ∈ entries.map (·.name) ↔ name ∈ others.map (·.name) := by
    intro name
    simp only [entries, others, List.map_cons, List.map_nil, List.mem_cons, List.not_mem_nil]
    tauto
  have hdoubled : "p/" ∈ (ofEntries entries).folders :=
    (hfolders "p/").2 ⟨by decide, "p//", by decide, "p/", .folder "p/", .refl⟩
  have hparent : "p" ∈ (ofEntries entries).folders :=
    (habove "p/" hdoubled).resolve_left (by decide)
  exact ⟨hopen disk _ _ hfile, hdoubled, hparent, ((hothers others hnames).1 "p/").1 hdoubled,
    by decide +kernel⟩

end Archive

end ClasspathLookup
