import ClasspathLookup.Proofs.TypesInPackages

/-!
# Redundant slashes in the name of a package

A path on the disk skips empty segments, so slashes that are doubled or stand at an end of a package
lead to the same folder. All else compares the text of a package as it is spelled: the packages of a
descriptor, the patterns of a source folder and the folder names of an archive. A location tells two
spellings apart exactly when they do, and then so does an environment in which no other location has
the package.
-/

namespace ClasspathLookup

namespace Slash

/-- The segments of a text that are not empty. -/
def parts (text : String) : List String :=
  (split text).filter (· ≠ "")

/-- A text without redundant slashes. -/
def squeeze (text : String) : String :=
  join (parts text)

@[simp] theorem parts_empty : parts "" = [] := rfl

theorem parts_append (folder rest : String) :
    parts (folder ++ "/" ++ rest) = parts folder ++ parts rest := by
  rw [parts, split_append, List.filter_append, parts, parts]

theorem parts_below (folder rest : String) :
    parts (below folder rest) = parts folder ++ parts rest :=
  filter_split_below (by simp) folder rest

theorem parts_join (texts : List String) : parts (join texts) = texts.flatMap parts := by
  induction texts with
  | nil => rfl
  | cons text texts ih =>
    cases texts with
    | nil => simp [join]
    | cons next rest => rw [join, parts_append, ih, List.flatMap_cons (x := text)]

theorem parts_of_mem_parts {text segment : String} (h : segment ∈ parts text) :
    parts segment = [segment] := by
  obtain ⟨hmem, hne⟩ := List.mem_filter.1 h
  have hslash : '/' ∉ segment.toList := slash_not_mem_of_mem_split hmem
  rw [parts, split_of_not_mem hslash]
  simpa using hne

@[simp] theorem parts_squeeze (text : String) : parts (squeeze text) = parts text := by
  have hsegment : ∀ segment ∈ parts text, parts segment = [segment] := fun _ => parts_of_mem_parts
  rw [squeeze, parts_join, List.flatMap_congr hsegment]
  simp

/-- Every segment with a slash after it. -/
theorem parts_foldr (texts : List String) (last : String) :
    parts (texts.foldr (fun text rest => text ++ "/" ++ rest) last) =
      texts.flatMap parts ++ parts last := by
  induction texts with
  | nil => rfl
  | cons text texts ih =>
    rw [List.foldr_cons, parts_append, ih, List.flatMap_cons, List.append_assoc]

theorem exists_append_of_parent {text : String} (h : parent text ≠ "") :
    ∃ rest, text = parent text ++ "/" ++ rest := by
  unfold parent at h ⊢
  split at h
  · rename_i before after hcut
    refine ⟨after, ?_⟩
    rw [← String.toList_inj, (toList_of_cutLast hcut).1]
    simp
  · exact absurd rfl h

/-- Where no segment is empty nothing is redundant. -/
theorem squeeze_eq_self {text : String} (h : "" ∉ split text) : squeeze text = text := by
  have hparts : parts text = split text := by
    rw [parts, List.filter_eq_self]
    intro segment hsegment
    rw [decide_eq_true_eq]
    rintro rfl
    exact h hsegment
  rw [squeeze, hparts, join_split]

end Slash

theorem Path.below_of_parts {text other : String} (h : Slash.parts text = Slash.parts other)
    (root : Path) : root.below text = root.below other := by
  unfold below
  rw [show (Slash.split text).filter (· ≠ "") = (Slash.split other).filter (· ≠ "") from h]

theorem Storage.isFolder_of_parts {root : Path} {view : View} {package other : String}
    (h : Slash.parts package = Slash.parts other) :
    ((Storage.folder root).isFolder package).value view =
      ((Storage.folder root).isFolder other).value view := by
  simp only [isFolder, Lookup.value_onDisk]
  rw [Path.below_of_parts h]

namespace Archive

variable {entries : List ArchiveEntry} {name folder : String}

theorem exists_append_of_cutFrom (h : Slash.CutFrom (Slash.parent name) folder)
    (hne : folder ≠ "") : ∃ rest, name = folder ++ "/" ++ rest := by
  induction h with
  | refl => exact Slash.exists_append_of_parent hne
  | @parent folder _ ih =>
    have hfolder : folder ≠ "" := by
      rintro rfl
      exact hne rfl
    obtain ⟨rest, hname⟩ := ih hfolder
    obtain ⟨before, hbefore⟩ := Slash.exists_append_of_parent hne
    refine ⟨before ++ "/" ++ rest, ?_⟩
    conv_lhs => rw [hname, hbefore]
    simp only [String.append_assoc]

/-- An archive has its root and what stands before any slash in the name of an entry, spelled as it
is there. -/
theorem isFolder_ofEntries_iff : (ofEntries entries).isFolder folder = true ↔
    folder = "" ∨ ∃ e ∈ entries, ∃ rest, e.name = folder ++ "/" ++ rest := by
  rw [isFolder_iff]
  by_cases hfolder : folder = ""
  · simp [hfolder]
  simp only [hfolder, false_or, mem_folders_iff, ne_eq, not_false_eq_true, true_and,
    folderOf_eq_parent]
  refine exists_congr fun e => and_congr_right fun _ => ?_
  refine ⟨fun h => exists_append_of_cutFrom h hfolder, ?_⟩
  rintro ⟨rest, hname⟩
  rw [hname]
  exact Slash.cutFrom_parent_append folder rest

/-- An archive whose names have an empty segment at most at their end has no package under a
redundant spelling. -/
theorem squeeze_eq_of_isFolder (htidy : ∀ e ∈ entries, "" ∉ (Slash.split e.name).dropLast)
    (h : (ofEntries entries).isFolder folder = true) : Slash.squeeze folder = folder := by
  rcases isFolder_ofEntries_iff.1 h with rfl | ⟨e, he, rest, hname⟩
  · rfl
  apply Slash.squeeze_eq_self
  intro hempty
  refine htidy e he ?_
  rw [hname, Slash.split_append, List.dropLast_append_of_ne_nil (Slash.split_ne_nil _)]
  exact List.mem_append_left _ hempty

end Archive

namespace Location

variable {location : Location} {view : View} {package other : String} {m : Option ModuleDescriptor}

/-- All agree that compare the text of a package as it is spelled: the descriptor reaches it, the
patterns of a source folder admit it, and an archive has a folder of that name. -/
def Recognizes (location : Location) (package : String) (m : Option ModuleDescriptor)
    (view : View) : Prop :=
  m.all (·.reaches package) = true ∧ location.admitsPackage package = true ∧
    ∀ handle, location.storage = .archive handle → location.HoldsPackage package m view

/-- There is a folder on the disk for the package, if the location lies there. -/
def HasFolder (location : Location) (package : String) (m : Option ModuleDescriptor)
    (view : View) : Prop :=
  ∀ root, location.storage = .folder root → location.HoldsPackage package m view

/-- The package is there, and only one of two spellings is recognized. -/
def TellsApart (location : Location) (package other : String) (m : Option ModuleDescriptor)
    (view : View) : Prop :=
  location.HasFolder package m view ∧
    ¬ (location.Recognizes package m view ↔ location.Recognizes other m view)

theorem isPackage_iff_recognizes : (location.isPackage package m).value view = true ↔
    location.HasFolder package m view ∧ location.Recognizes package m view := by
  rw [isPackage_iff, HasFolder, Recognizes]
  cases location.storage with
  | folder root => simp; tauto
  | archive handle => simp

/-- On the disk redundant slashes lead nowhere. -/
theorem holdsPackage_of_parts {root : Path} (hstorage : location.storage = .folder root)
    (h : Slash.parts package = Slash.parts other) :
    location.HoldsPackage package m view ↔ location.HoldsPackage other m view := by
  unfold HoldsPackage
  rw [hstorage]
  cases location with
  | source l => simp [packageFolders, Storage.isFolder_of_parts h]
  | classes l => simp [packageFolders, Storage.isFolder_of_parts h]
  | archive l => simp [packageFolders, Storage.isFolder_of_parts h]
  | image l =>
    have hbelow : ∀ module, Slash.parts (Slash.below module package) =
        Slash.parts (Slash.below module other) := by
      intro module
      rw [Slash.parts_below, Slash.parts_below, h]
    simp [packageFolders, Storage.isFolder_of_parts (hbelow _)]

theorem hasFolder_of_parts (h : Slash.parts package = Slash.parts other) :
    location.HasFolder package m view ↔ location.HasFolder other m view :=
  forall_congr' fun _ => forall_congr' fun hstorage => holdsPackage_of_parts hstorage h

theorem isPackage_iff_of_parts (h : Slash.parts package = Slash.parts other) :
    ((location.isPackage package m).value view = true ↔
      (location.isPackage other m).value view = true) ↔
    ¬ location.TellsApart package other m view := by
  rw [isPackage_iff_recognizes, isPackage_iff_recognizes, ← hasFolder_of_parts h, TellsApart]
  tauto

/-- On the disk, without patterns and without a list of packages, all spellings are the same. -/
theorem not_tellsApart_of_folder {root : Path} (hstorage : location.storage = .folder root)
    (hadmits : ∀ package, location.admitsPackage package = true)
    (hpackages : ∀ descriptor ∈ m, descriptor.packages = []) :
    ¬ location.TellsApart package other m view := by
  have hreaches : ∀ package, m.all (·.reaches package) = true := by
    intro package
    cases m with
    | none => rfl
    | some descriptor =>
      simp [ModuleDescriptor.reaches, ModuleDescriptor.serves, hpackages descriptor rfl]
  rintro ⟨-, hrecognizes⟩
  apply hrecognizes
  simp [Recognizes, hreaches, hadmits, hstorage]

/-- An archive recognizes a package by the entries whose names go on behind it. -/
theorem recognizes_archive_iff {archive : ClassArchive} {entries : List ArchiveEntry}
    (hcontent : view.archive? archive.handle = some (.ofEntries entries)) :
    (Location.archive archive).Recognizes package m view ↔
      m.all (·.reaches package) = true ∧
        (package = "" ∨ ∃ e ∈ entries, ∃ rest, e.name = package ++ "/" ++ rest) := by
  have hholds : (Location.archive archive).HoldsPackage package m view ↔
      (Archive.ofEntries entries).isFolder package = true := by
    simp [HoldsPackage, packageFolders, storage, Storage.isFolder_archive_iff, hcontent]
  rw [← Archive.isFolder_ofEntries_iff, ← hholds, Recognizes]
  simp [storage, admitsPackage]

/-- An archive with tidy names tells any package it has from its redundant spellings. -/
theorem tellsApart_squeeze {archive : ClassArchive} {entries : List ArchiveEntry}
    (hcontent : view.archive? archive.handle = some (.ofEntries entries))
    (htidy : ∀ e ∈ entries, "" ∉ (Slash.split e.name).dropLast)
    (hpackage : ((Location.archive archive).isPackage (Slash.squeeze package) m).value view = true)
    (hne : Slash.squeeze package ≠ package) :
    (Location.archive archive).TellsApart package (Slash.squeeze package) m view := by
  refine ⟨fun root hroot => (by cases hroot), fun hiff => hne ?_⟩
  obtain ⟨-, -, hholds⟩ := hiff.2 (isPackage_iff_recognizes.1 hpackage).2
  obtain ⟨folder, hmem, hfolder⟩ := hholds archive.handle rfl
  obtain rfl := List.mem_singleton.1 hmem
  obtain ⟨content, hopen, hfolder⟩ := Storage.isFolder_archive_iff.1 hfolder
  obtain rfl := Option.some.inj (hcontent.symm.trans hopen)
  exact Archive.squeeze_eq_of_isFolder htidy hfolder

end Location

namespace Environment

variable {environment : Environment} {view : View} {filter : ModuleFilter} {package other : String}

/-- No location that takes part in a query tells two spellings of a package apart. -/
def SeesAlike (environment : Environment) (filter : ModuleFilter) (view : View)
    (package other : String) : Prop :=
  ∀ location ∈ environment.locations.locations, ∀ m ∈ (location.admitted filter).value view,
    ¬ location.TellsApart package other m view

/-- Two spellings can still be packages of two locations. -/
theorem isPackage_eq_iff_of_parts (h : Slash.parts package = Slash.parts other) :
    (environment.isPackage package filter).value view =
        (environment.isPackage other filter).value view ↔
      environment.SeesAlike filter view package other ∨
        (environment.isPackage package filter).value view = true ∧
          (environment.isPackage other filter).value view = true := by
  rw [Bool.eq_iff_iff]
  constructor
  · intro hiff
    by_cases hpackage : (environment.isPackage package filter).value view = true
    · exact Or.inr ⟨hpackage, hiff.1 hpackage⟩
    · have hother := mt hiff.2 hpackage
      rw [isPackage_iff] at hpackage hother
      refine Or.inl fun location hmem m hm => (Location.isPackage_iff_of_parts h).1 ?_
      exact iff_of_false (fun hp => hpackage ⟨location, hmem, m, hm, hp⟩)
        fun hp => hother ⟨location, hmem, m, hm, hp⟩
  · rintro (halike | ⟨hpackage, hother⟩)
    · rw [isPackage_iff, isPackage_iff]
      refine exists_congr fun location => and_congr_right fun hmem => ?_
      refine exists_congr fun m => and_congr_right fun hm => ?_
      exact (Location.isPackage_iff_of_parts h).2 (halike location hmem m hm)
    · exact iff_of_true hpackage hother

/-- A compound package spelled with a slash after every segment. -/
def withSlashes (compound : List String) : String :=
  compound.foldr (fun segment rest => segment ++ "/" ++ rest) ""

/-- Dropping redundant slashes changes a package query exactly when a location that takes part tells
the two spellings apart and not both are packages; so does the slash that ends a compound. A location
on the disk without patterns, asked without a list of packages, never tells spellings apart. An
archive goes by how the names of its entries are spelled, and if these are tidy it tells every
package that it has from its redundant spellings. -/
theorem isPackage_squeeze_eq_iff (environment : Environment) (filter : ModuleFilter) (view : View)
    (package : String) (compound : List String) :
    ((environment.isPackage package filter).value view =
        (environment.isPackage (Slash.squeeze package) filter).value view ↔
      environment.SeesAlike filter view package (Slash.squeeze package) ∨
        (environment.isPackage package filter).value view = true ∧
          (environment.isPackage (Slash.squeeze package) filter).value view = true) ∧
    ((environment.isPackageIn compound "" filter).value view =
        (environment.isPackage (Slash.join compound) filter).value view ↔
      environment.SeesAlike filter view (withSlashes compound) (Slash.join compound) ∨
        (environment.isPackageIn compound "" filter).value view = true ∧
          (environment.isPackage (Slash.join compound) filter).value view = true) ∧
    (∀ (location : Location) (m : Option ModuleDescriptor) (root : Path),
      location.storage = .folder root → (∀ text, location.admitsPackage text = true) →
      (∀ descriptor ∈ m, descriptor.packages = []) →
      ¬ location.TellsApart package (Slash.squeeze package) m view) ∧
    ∀ (archive : ClassArchive) (m : Option ModuleDescriptor) (entries : List ArchiveEntry),
      view.archive? archive.handle = some (.ofEntries entries) →
      ((Location.archive archive).Recognizes package m view ↔
        m.all (·.reaches package) = true ∧
          (package = "" ∨ ∃ e ∈ entries, ∃ rest, e.name = package ++ "/" ++ rest)) ∧
      ((∀ e ∈ entries, "" ∉ (Slash.split e.name).dropLast) →
        ((Location.archive archive).isPackage (Slash.squeeze package) m).value view = true →
        Slash.squeeze package ≠ package →
        (Location.archive archive).TellsApart package (Slash.squeeze package) m view) := by
  refine ⟨?_, ?_, ?_, ?_⟩
  · exact isPackage_eq_iff_of_parts (Slash.parts_squeeze package).symm
  · apply isPackage_eq_iff_of_parts
    rw [Slash.parts_foldr, Slash.parts_join, Slash.parts_empty, List.append_nil]
  · intro location m root hstorage hadmits hpackages
    exact Location.not_tellsApart_of_folder hstorage hadmits hpackages
  · intro archive m entries hcontent
    refine ⟨Location.recognizes_archive_iff hcontent, ?_⟩
    intro htidy hpackage hne
    exact Location.tellsApart_squeeze hcontent htidy hpackage hne

def utilDisk : Disk :=
  Disk.empty.put (.ofText "lib.jar")
    (.file (.archive [⟨"java/util/List.class", some "list".toUTF8⟩]))

def utilEnvironment : Environment :=
  .create (.build utilDisk [{ path := .ofText "lib.jar" }] ["jar"]) [] {}

def utilJar : ClassArchive :=
  { handle := ⟨0, .ofText "lib.jar"⟩ }

/-- The archive has one spelling of its package, so the compound that ends in a slash is missed. -/
theorem isPackage_squeeze_eq_iff_util :
    let view := utilEnvironment.locations.view utilDisk
    (Location.archive utilJar).TellsApart "java/util/" "java/util" none view ∧
    ¬ utilEnvironment.SeesAlike .all view "java/util/" "java/util" ∧
    (utilEnvironment.isPackageIn ["java", "util"] "" .all).value view ≠
      (utilEnvironment.isPackage "java/util" .all).value view ∧
    ¬ (Location.classes { root := .ofText "bin" }).TellsApart "java/util/" "java/util" none
      view := by
  intro view
  have hspec := isPackage_squeeze_eq_iff utilEnvironment .all view "java/util/" ["java", "util"]
  rw [show Slash.squeeze "java/util/" = "java/util" by decide +kernel,
    show Slash.join ["java", "util"] = "java/util" by decide +kernel] at hspec
  obtain ⟨hsqueeze, hcompound, hfolder, harchive⟩ := hspec
  have hcontent : view.archive? utilJar.handle =
      some (.ofEntries [⟨"java/util/List.class", some "list".toUTF8⟩]) := rfl
  have hspelled : (utilEnvironment.isPackage "java/util/" .all).value view = false := by
    decide +kernel
  have hjoined : (utilEnvironment.isPackage "java/util" .all).value view = true := by
    decide +kernel
  have htells : (Location.archive utilJar).TellsApart "java/util/" "java/util" none view :=
    (harchive utilJar none _ hcontent).2 (by decide +kernel) (by decide +kernel) (by decide)
  have hunlike : ¬ utilEnvironment.SeesAlike .all view "java/util/" "java/util" := by
    intro halike
    have hequal := hsqueeze.2 (Or.inl halike)
    rw [hspelled, hjoined] at hequal
    cases hequal
  refine ⟨htells, hunlike, ?_, ?_⟩
  · rw [Ne, hcompound]
    rintro (halike | ⟨hcompoundTrue, -⟩)
    · exact hunlike halike
    · exact absurd hcompoundTrue (by decide +kernel)
  · exact hfolder _ none (.ofText "bin") rfl (fun _ => rfl) (by simp)

/-- An archive has the package and no other spelling of it, not even that of a compound. -/
theorem not_forall_isPackage_squeeze_eq :
    ¬ ∀ (environment : Environment) (filter : ModuleFilter) (disk : Disk),
      let view := environment.locations.view disk
      (∀ package, (environment.isPackage package filter).value view =
        (environment.isPackage (Slash.squeeze package) filter).value view) ∧
      ∀ compound, (environment.isPackageIn compound "" filter).value view =
        (environment.isPackage (Slash.join compound) filter).value view := by
  intro h
  have hcompound := (h utilEnvironment .all utilDisk).2 ["java", "util"]
  have hjoined : (utilEnvironment.isPackage (Slash.join ["java", "util"]) .all).value
      (utilEnvironment.locations.view utilDisk) = true := by
    decide +kernel
  have hspelled : (utilEnvironment.isPackageIn ["java", "util"] "" .all).value
      (utilEnvironment.locations.view utilDisk) = false := by
    decide +kernel
  rw [hjoined, hspelled] at hcompound
  cases hcompound

end Environment

end ClasspathLookup
