import ClasspathLookup.Proofs.Eligible
import ClasspathLookup.Proofs.LocationAnswers
import ClasspathLookup.Proofs.RelatedLookups

/-!
# Matching locations

Two locations match when their storages agree on what is in them and the locations are set up alike.
How far they are compared is left open: on which sides they are asked, when two things that are
found count as the same, and which paths are looked at. Every question that can be put to a location
is then answered alike by a matching one. There is one lemma for each of them, so each comparison of
locations has only to say how the storages compare.
-/

namespace ClasspathLookup

/-- Two answers that found the same, under the same restriction and in the same module. -/
structure Answer.SameUpTo (same : Found → Found → Prop) (a b : Answer) : Prop where
  found : same a.found b.found
  restriction : a.restriction = b.restriction
  module : a.module = b.module

namespace Answer

namespace SameUpTo

variable {same : Found → Found → Prop} {a b : Answer}

theorem restricted (h : a.SameUpTo same b) (restriction : Option Restriction) :
    SameUpTo same { a with restriction := restriction } { b with restriction := restriction } :=
  ⟨h.found, rfl, h.module⟩

theorem inModule (h : a.SameUpTo same b) (module : Option String) :
    SameUpTo same { a with module := module } { b with module := module } :=
  ⟨h.found, h.restriction, rfl⟩

end SameUpTo

theorem sameUpTo_eq_iff {a b : Answer} : a.SameUpTo Eq b ↔ a = b := by
  constructor
  · obtain ⟨found, restriction, module⟩ := a
    obtain ⟨found', restriction', module'⟩ := b
    rintro ⟨rfl, rfl, rfl⟩
    rfl
  · rintro rfl
    exact ⟨rfl, rfl, rfl⟩

variable {a b : Option Answer}

theorem rel_sameUpTo_imp {same same' : Found → Found → Prop} (h : Option.Rel (SameUpTo same) a b)
    (himp : ∀ found found', same found found' → same' found found') :
    Option.Rel (SameUpTo same') a b :=
  h.imp fun _ _ hsame => ⟨himp _ _ hsame.found, hsame.restriction, hsame.module⟩

theorem rel_sameUpTo_eq_iff : Option.Rel (SameUpTo Eq) a b ↔ a = b := by
  rw [← Option.rel_eq_iff]
  constructor
  · intro h
    exact h.imp fun _ _ => sameUpTo_eq_iff.1
  · intro h
    exact h.imp fun _ _ => sameUpTo_eq_iff.2

end Answer

/-- How far two locations are compared: the sides from which they are asked, what counts as the same
source file and the same class file, and the folders, files and names that are asked for. -/
structure Comparison extends Sides where
  source : Found → Found → Prop
  binary : Found → Found → Prop
  folder : String → Prop
  file : String → Prop
  name : String → Prop
  folder_below : ∀ {module package}, name module → folder package →
    folder (Slash.below module package)
  file_below : ∀ {module relative}, name module → file relative →
    file (Slash.below module relative)
  file_of_name : ∀ {package entry}, folder package → name entry → '.' ∈ entry.toList →
    file (Slash.below package entry)

namespace Comparison

/-- What is found has to be the same, under whatever path. -/
def exact (sides : Sides) : Comparison where
  toSides := sides
  source := Eq
  binary := Eq
  folder _ := True
  file _ := True
  name _ := True
  folder_below _ _ := trivial
  file_below _ _ := trivial
  file_of_name _ _ _ := trivial

/-- What counts as the same file of a type in a location of some kind. -/
def same (c : Comparison) : LocationKind → Found → Found → Prop
  | .sourceFolder => c.source
  | .classFolder | .archive | .moduleImage => c.binary

theorem same_of_ne (c : Comparison) {kind : LocationKind} (h : kind ≠ .sourceFolder) :
    c.same kind = c.binary := by
  cases kind with
  | sourceFolder => exact absurd rfl h
  | classFolder => rfl
  | archive => rfl
  | moduleImage => rfl

theorem same_exact (sides : Sides) (kind : LocationKind) : (exact sides).same kind = Eq := by
  cases kind <;> rfl

/-- One list of names that are asked for. -/
def SameNames (c : Comparison) (names names' : List String) : Prop :=
  names = names' ∧ ∀ name ∈ names, c.name name

/-- The files that a location of some kind may have under the paths of a type. -/
def Covers (c : Comparison) (kind : LocationKind) (paths : TypePaths) : Prop :=
  match kind with
  | .sourceFolder => ∀ extension, c.file (paths.qualified ++ "." ++ extension)
  | .classFolder | .archive | .moduleImage => c.file paths.qualified

theorem covers_of_ne {c : Comparison} {kind : LocationKind} {paths : TypePaths}
    (h : kind ≠ .sourceFolder) (hfile : c.file paths.qualified) : c.Covers kind paths := by
  cases kind with
  | sourceFolder => exact absurd rfl h
  | classFolder => exact hfile
  | archive => exact hfile
  | moduleImage => exact hfile

theorem covers_exact (sides : Sides) (kind : LocationKind) (paths : TypePaths) :
    (exact sides).Covers kind paths := by
  cases kind with
  | sourceFolder => exact fun _ => trivial
  | classFolder => trivial
  | archive => trivial
  | moduleImage => trivial

end Comparison

/-- Two storages, each with the annotation path of its class files, hold the same under the paths
that are compared. -/
structure Storage.Matches (c : Comparison) (storage : Storage) (annotations : Option AnnotationPath)
    (storage' : Storage) (annotations' : Option AnnotationPath) : Prop where
  read : ∀ {relative}, c.file relative → c.Agree Eq (storage.read relative) (storage'.read relative)
  isFolder : ∀ {package}, c.folder package →
    c.Agree Eq (storage.isFolder package) (storage'.isFolder package)
  fileNames : ∀ {package}, c.folder package →
    c.Agree c.SameNames (storage.fileNames package) (storage'.fileNames package)
  unit : ∀ {relative} stem text, c.file relative →
    c.source (.source (storage.unit relative stem text))
      (.source (storage'.unit relative stem text))
  classFile : ∀ {relative} bytes, c.file relative →
    c.binary (.binary (storage.classFile relative bytes annotations))
      (.binary (storage'.classFile relative bytes annotations'))

namespace Storage

/-- Only a name with an extension is the name of a source file. -/
theorem dot_mem_of_sourceStem? {type name stem : String} {extensions : List String}
    (h : sourceStem? type extensions name = some stem) : '.' ∈ name.toList := by
  obtain ⟨-, extension, -, rfl⟩ := eq_of_sourceStem? h
  simp

namespace Matches

open Sides

variable {c : Comparison} {storage storage' : Storage}
  {annotations annotations' : Option AnnotationPath}

theorem binary? (h : storage.Matches c annotations storage' annotations') {relative : String}
    (hfile : c.file relative) :
    c.Agree (Option.Rel (Answer.SameUpTo c.binary)) (storage.binary? relative annotations)
      (storage'.binary? relative annotations') := by
  apply (h.read hfile).bind_eq
  rintro (_ | bytes)
  · exact .pure .none
  · exact .pure (.some ⟨h.classFile bytes hfile, rfl, rfl⟩)

theorem readText (h : storage.Matches c annotations storage' annotations') {relative : String}
    (hfile : c.file relative) :
    c.Agree Eq (storage.readText relative) (storage'.readText relative) :=
  (h.read hfile).bind_eq fun _ => .pure rfl

theorem declaring? (h : storage.Matches c annotations storage' annotations') {folder name : String}
    (hfolder : c.folder folder) (hname : c.name name) (type : String) (extensions : List String)
    (admits : String → Bool) :
    c.Agree (Option.Rel (Answer.SameUpTo c.source))
      (storage.declaring? folder type extensions admits name)
      (storage'.declaring? folder type extensions admits name) := by
  unfold Storage.declaring?
  cases hstem : sourceStem? type extensions name with
  | none => exact .pure .none
  | some stem =>
    -- A name that was cut has a dot in it, so its file is among those that are compared.
    have hfile := c.file_of_name hfolder hname (dot_mem_of_sourceStem? hstem)
    apply Agree.ite _ (.pure .none)
    apply (h.readText hfile).bind_eq
    rintro (_ | text)
    · exact .pure .none
    · exact .ite (.pure (.some ⟨h.unit stem text hfile, rfl, rfl⟩)) (.pure .none)

theorem secondary? (h : storage.Matches c annotations storage' annotations') {folder : String}
    (hfolder : c.folder folder) (type : String) (extensions : List String)
    (admits : String → Bool) :
    c.Agree (Option.Rel (Answer.SameUpTo c.source))
      (storage.secondary? folder type extensions admits)
      (storage'.secondary? folder type extensions admits) := by
  apply (h.fileNames hfolder).bind
  rintro names _ ⟨rfl, hnames⟩
  apply Agree.firstSome
  rw [List.forall₂_same]
  intro name hmem
  exact h.declaring? hfolder (hnames name hmem) type extensions admits

end Matches

end Storage

/-- Two locations that differ in their storages and annotation paths, and in nothing else. A class
folder can also match an archive. -/
inductive Location.Matches (c : Comparison) : Location → Location → Prop
  | source {folder : SourceFolder} {root : Path}
      (h : Storage.Matches c (.folder folder.root) none (.folder root) none) :
      Matches c (.source folder) (.source { folder with root := root })
  | classes {folder : ClassFolder} {root : Path}
      (h : Storage.Matches c (.folder folder.root) none (.folder root) none) :
      Matches c (.classes folder) (.classes { folder with root := root })
  | archive {archive : ClassArchive} {handle : ArchiveHandle} {annotations : Option AnnotationPath}
      (h : Storage.Matches c (.archive archive.handle) archive.annotations (.archive handle)
        annotations) :
      Matches c (.archive archive)
        (.archive { archive with handle := handle, annotations := annotations })
  | packed {folder : ClassFolder} {handle : ArchiveHandle} {annotations : Option AnnotationPath}
      (h : Storage.Matches c (.folder folder.root) none (.archive handle) annotations) :
      Matches c (.classes folder) (.archive ⟨handle, folder.rules, annotations, folder.scope⟩)
  | image {image image' : ModuleImage}
      (h : Storage.Matches c image.storage image.annotations image'.storage image'.annotations)
      (modules : c.Agree c.SameNames image.modules image'.modules) :
      Matches c (.image image) (.image image')

namespace ModuleImage

open Sides

variable {c : Comparison} {image image' : ModuleImage}

theorem agree_modulesFor (h : c.Agree c.SameNames image.modules image'.modules)
    (m : Option ModuleDescriptor) :
    c.Agree c.SameNames (image.modulesFor m) (image'.modulesFor m) := by
  apply h.bind
  rintro modules _ ⟨rfl, hnames⟩
  apply Agree.pure
  exact ⟨rfl, fun name hmem => hnames name (List.mem_filter.1 hmem).1⟩

theorem agree_typeIn?
    (h : Storage.Matches c image.storage image.annotations image'.storage image'.annotations)
    {paths : TypePaths} (hfile : c.file paths.qualified) {module : String}
    (hmodule : c.name module) :
    c.Agree (Option.Rel (Answer.SameUpTo c.binary)) (image.typeIn? paths module)
      (image'.typeIn? paths module) := by
  apply (h.binary? (c.file_below hmodule hfile)).mark
  intro a b hsame
  exact hsame.inModule _

theorem agree_secondaryIn?
    (h : Storage.Matches c image.storage image.annotations image'.storage image'.annotations)
    {package : String} (hfolder : c.folder package) {module : String} (hmodule : c.name module)
    (type : String) (extensions : List String) :
    c.Agree (Option.Rel (Answer.SameUpTo c.source))
      (image.secondaryIn? type package extensions module)
      (image'.secondaryIn? type package extensions module) := by
  apply (h.secondary? (c.folder_below hmodule hfolder) type extensions fun _ => true).mark
  intro a b hsame
  exact hsame.inModule _

end ModuleImage

/-- A source folder serves a file where the other has one at the same path. -/
theorem SourceFolder.rel_type? {c : Comparison} {folder : SourceFolder} {root : Path}
    (h : Storage.Matches c (.folder folder.root) none (.folder root) none) {paths : TypePaths}
    (hfile : c.Covers .sourceFolder paths) (extensions : List String) {view view' : View}
    (hview : c.sees view view') :
    Option.Rel (Answer.SameUpTo c.source) (folder.type? paths extensions view.disk)
      (({ folder with root := root } : SourceFolder).type? paths extensions view'.disk) := by
  apply List.rel_findSome?
  intro extension _
  have hread := (h.read (hfile extension) view view' hview).1
  have hexists := congrArg Option.isSome hread
  simp only [Storage.read, Lookup.value_onDisk, Disk.read?, Option.isSome_map] at hexists
  have hadmits : ({ folder with root := root } : SourceFolder).admits = folder.admits := rfl
  simp only [Disk.isFile, hexists, hadmits]
  split
  · exact .some ⟨h.unit paths.fileName "" (hfile extension), rfl, rfl⟩
  · exact .none

namespace Location.Matches

open Sides

variable {c : Comparison} {location location' : Location}

theorem paths (h : location.Matches c location') (name : TypeName) :
    location.paths name = location'.paths name := by
  cases h <;> rfl

theorem imageModules (h : location.Matches c location') :
    c.Agree c.SameNames location.imageModules location'.imageModules := by
  have hempty : c.SameNames [] [] := ⟨rfl, by simp⟩
  cases h with
  | source h => exact .pure hempty
  | classes h => exact .pure hempty
  | archive h => exact .pure hempty
  | packed h => exact .pure hempty
  | image h modules => exact modules

theorem servesModule (h : location.Matches c location') (module : String) :
    c.Agree Eq (location.servesModule module) (location'.servesModule module) := by
  cases h with
  | source h => exact .pure rfl
  | classes h => exact .pure rfl
  | archive h => exact .pure rfl
  | packed h => exact .pure rfl
  | image h modules =>
    apply modules.bind
    rintro modules _ ⟨rfl, -⟩
    exact .pure rfl

theorem admitted (h : location.Matches c location') (filter : ModuleFilter) :
    c.Agree Eq (location.admitted filter) (location'.admitted filter) := by
  cases filter with
  | all => exact .pure rfl
  | only modules =>
    exact (Agree.filter (fun m => h.servesModule m.name) modules).bind_eq fun _ => .pure rfl

theorem isPackage (h : location.Matches c location') {package : String}
    (hfolder : c.folder package) (m : Option ModuleDescriptor) :
    c.Agree Eq (location.isPackage package m) (location'.isPackage package m) := by
  apply Agree.ite _ (.pure rfl)
  cases h with
  | @source folder root h =>
    apply Agree.onDisk
    intro view view' hview
    exact congrArg (folder.admitsPackage package && ·) (h.isFolder hfolder view view' hview).1
  | classes h => exact h.isFolder hfolder
  | archive h => exact h.isFolder hfolder
  | packed h => exact h.isFolder hfolder
  | image h modules =>
    apply (ModuleImage.agree_modulesFor modules m).bind
    rintro modules _ ⟨rfl, hnames⟩
    apply Agree.any
    rw [List.forall₂_same]
    intro module hmem
    exact h.isFolder (c.folder_below (hnames module hmem) hfolder)

theorem type? (h : location.Matches c location') {paths : TypePaths}
    (hfile : c.Covers location.kind paths) (m : Option ModuleDescriptor)
    (extensions : List String) :
    c.Agree (Option.Rel (Answer.SameUpTo (c.same location.kind)))
      (location.type? paths m extensions) (location'.type? paths m extensions) := by
  apply Agree.ite _ (.pure .none)
  cases h with
  | source h =>
    apply Agree.onDisk
    intro view view' hview
    exact SourceFolder.rel_type? h hfile extensions hview
  | classes h =>
    exact (h.binary? hfile).mark fun _ _ hsame => hsame.restricted _
  | archive h =>
    exact (h.binary? hfile).mark fun _ _ hsame => hsame.restricted _
  | packed h =>
    exact (h.binary? hfile).mark fun _ _ hsame => hsame.restricted _
  | image h modules =>
    apply modules.bind
    rintro modules _ ⟨rfl, hnames⟩
    cases m with
    | none =>
      apply Agree.firstSome
      rw [List.forall₂_same]
      intro module hmem
      exact ModuleImage.agree_typeIn? h hfile (hnames module hmem)
    | some descriptor =>
      dsimp only
      split
      · rename_i hmem
        exact ModuleImage.agree_typeIn? h hfile (hnames descriptor.name hmem)
      · exact .pure .none

theorem secondary? (h : location.Matches c location') {package : String}
    (hfolder : c.folder package) (type : String) (m : Option ModuleDescriptor)
    (extensions : List String) :
    c.Agree (Option.Rel (Answer.SameUpTo c.source)) (location.secondary? type package m extensions)
      (location'.secondary? type package m extensions) := by
  apply Agree.ite _ (.pure .none)
  cases h with
  | source h => exact h.secondary? hfolder type extensions _
  | classes h =>
    exact (h.secondary? hfolder type extensions _).mark
      fun _ _ hsame => hsame.restricted _
  | archive h =>
    exact (h.secondary? hfolder type extensions _).mark
      fun _ _ hsame => hsame.restricted _
  | packed h =>
    exact (h.secondary? hfolder type extensions _).mark
      fun _ _ hsame => hsame.restricted _
  | image h modules =>
    apply (ModuleImage.agree_modulesFor modules m).bind
    rintro modules _ ⟨rfl, hnames⟩
    apply Agree.firstSome
    rw [List.forall₂_same]
    intro module hmem
    exact ModuleImage.agree_secondaryIn? h hfolder (hnames module hmem) type extensions

section Exact

variable {sides : Sides} (h : location.Matches (.exact sides) location')

include h

theorem type?_of_exact (paths : TypePaths) (m : Option ModuleDescriptor)
    (extensions : List String) :
    sides.Agree Eq (location.type? paths m extensions) (location'.type? paths m extensions) := by
  apply (h.type? (Comparison.covers_exact sides _ paths) m extensions).imp
  intro a b hab
  rw [Comparison.same_exact] at hab
  exact Answer.rel_sameUpTo_eq_iff.1 hab

theorem secondary?_of_exact (type package : String) (m : Option ModuleDescriptor)
    (extensions : List String) :
    sides.Agree Eq (location.secondary? type package m extensions)
      (location'.secondary? type package m extensions) :=
  (h.secondary? trivial type m extensions).imp fun _ _ => Answer.rel_sameUpTo_eq_iff.1

theorem isPackage_of_exact (package : String) (m : Option ModuleDescriptor) :
    sides.Agree Eq (location.isPackage package m) (location'.isPackage package m) :=
  h.isPackage trivial m

theorem imageModules_of_exact : sides.Agree Eq location.imageModules location'.imageModules :=
  h.imageModules.imp fun _ _ => And.left

end Exact

end Location.Matches

end ClasspathLookup
