import ClasspathLookup.LocationSet
import ClasspathLookup.Proofs.MatchingLocations
import ClasspathLookup.Proofs.OpenUnits
import ClasspathLookup.Proofs.PackedTree

/-!
# Folders and their archives

A class folder and an archive of it match under all paths of plain names, and so do an exploded image
and an archive of that: they are asked with the same result, the same files answer, under the same
restriction and from the same module. Only the place of an answer tells the two apart.
-/

namespace ClasspathLookup

/-- A class file in a folder and the same one in an archive. -/
inductive SameClass (root archive : Path) : Found → Found → Prop
  | intro (relative : String) (bytes : ByteArray)
      (annotations annotations' : Option AnnotationPath) :
      SameClass root archive
        (.binary { origin := root.below relative, bytes := bytes, annotations := annotations })
        (.binary { origin := archive, entry := some relative, bytes := bytes
                   annotations := annotations' })

/-- A source file in a folder and the same one in an archive. -/
inductive SameSource (root archive : Path) : Found → Found → Prop
  | intro (relative stem text : String) :
      SameSource root archive (.source (.file (root.below relative) stem))
        (.source (.archiveEntry archive relative text))

/-- A path of plain names. -/
def IsPlainPath (path : String) : Prop :=
  ∃ names, AllPlain names ∧ path = Slash.join names

namespace IsPlainPath

variable {path name : String}

theorem below (hname : IsPlain name) (h : IsPlainPath path) :
    IsPlainPath (Slash.below name path) := by
  obtain ⟨names, hplain, rfl⟩ := h
  have hnames : AllPlain (name :: names) := List.forall_mem_cons.2 ⟨hname, hplain⟩
  exact ⟨name :: names, hnames, (Slash.join_cons_plain hnames).symm⟩

theorem enter (h : IsPlainPath path) (hname : IsPlain name) :
    IsPlainPath (Slash.below path name) := by
  obtain ⟨names, hplain, rfl⟩ := h
  have hnames : AllPlain (names ++ [name]) := allPlain_concat_iff.2 ⟨hplain, hname⟩
  exact ⟨names ++ [name], hnames, (Slash.join_concat_plain hnames).symm⟩

end IsPlainPath

/-- A folder is compared with an archive of it under the paths of plain names. -/
def Comparison.packed (view : View) (root archive : Path) : Comparison where
  toSides := .views view view
  source := SameSource root archive
  binary := SameClass root archive
  folder := IsPlainPath
  file := IsPlainPath
  name := IsPlain
  folder_below := IsPlainPath.below
  file_below := IsPlainPath.below
  file_of_name hfolder hname _ := hfolder.enter hname

/-- An archive of a folder matches it. -/
theorem Packs.matching {view : View} {root : Path} {entries : List ArchiveEntry}
    {handle : ArchiveHandle} (h : Packs view.disk root entries)
    (hcontent : view.archive? handle = some (.ofEntries entries))
    (annotations annotations' : Option AnnotationPath) :
    Storage.Matches (.packed view root handle.path) (.folder root) annotations (.archive handle)
      annotations' where
  read hfile := by
    obtain ⟨names, hplain, rfl⟩ := hfile
    apply Sides.views_agree_iff.2
    simp only [Storage.read, Lookup.value_onDisk, Lookup.value_bind, Lookup.value_archive?,
      hcontent, Lookup.value_pure, Option.bind_some, h.read? hplain]
  isFolder hfolder := by
    obtain ⟨names, hplain, rfl⟩ := hfolder
    apply Sides.views_agree_iff.2
    simp only [Storage.isFolder, Lookup.value_onDisk, Lookup.value_bind, Lookup.value_archive?,
      hcontent, Lookup.value_pure, Option.any_some, h.isFolder hplain]
  fileNames hfolder := by
    obtain ⟨names, hplain, rfl⟩ := hfolder
    apply Sides.views_agree_iff.2
    constructor
    · simp only [Storage.fileNames, Lookup.value_onDisk, Lookup.value_bind, Lookup.value_archive?,
        hcontent, Lookup.value_pure, Option.map_some, Option.getD_some, h.fileNames hplain]
    · intro name hname
      obtain ⟨node, -, hnode⟩ := (Disk.mem_names_below h.root_isFolder hplain).1 hname
      exact (allPlain_concat_iff.1 (Disk.allPlain_of_nodeBelow? hnode)).2
  unit stem text _ := .intro _ stem text
  classFile bytes _ := .intro _ bytes _ _

theorem IsPlain.classFile {simple : String} (h : IsPlain simple) :
    IsPlain (simple ++ classEnding) := by
  have hlonger : ∀ text : String, text.length ≤ classEnding.length →
      simple ++ classEnding ≠ text := by
    rintro text hlength rfl
    have hpos : 0 < simple.length := by
      rw [Nat.pos_iff_ne_zero]
      simpa using h.nonempty
    rw [String.length_append] at hlength
    omega
  refine ⟨hlonger _ (by decide), ?_, hlonger _ (by decide), hlonger _ (by decide)⟩
  simpa [classEnding] using h.slashFree

namespace TypeName

/-- The names that lead to the class file of a type. -/
def classSegments (name : TypeName) : List String :=
  name.package ++ [name.simple ++ classEnding]

theorem allPlain_classSegments {name : TypeName} (h : AllPlain name.segments) :
    AllPlain name.classSegments := by
  obtain ⟨hpackage, hsimple⟩ := allPlain_concat_iff.1 h
  exact allPlain_concat_iff.2 ⟨hpackage, hsimple.classFile⟩

theorem qualified_binary (name : TypeName) :
    (TypePaths.binary name).qualified = Slash.join name.classSegments := by
  have hne : name.simple ++ classEnding ≠ "" := by simp [classEnding]
  rw [classSegments, Slash.join_concat name.package_nonempty hne]
  exact name.path_append_eq_below classEnding

end TypeName

/-- A location of a folder and one of an archive answer alike whatever is asked of them by plain
names. -/
structure Location.AnswersAlike (view : View) (root archive : Path) (unpacked packed : Location) :
    Prop where
  type? : ∀ (name : TypeName) (m : Option ModuleDescriptor) (extensions : List String),
    AllPlain name.segments →
    Option.Rel (Answer.SameUpTo (SameClass root archive))
      ((unpacked.type? (.binary name) m extensions).value view)
      ((packed.type? (.binary name) m extensions).value view)
  secondary? : ∀ (type : String) (package : List String) (m : Option ModuleDescriptor)
    (extensions : List String), AllPlain package →
    Option.Rel (Answer.SameUpTo (SameSource root archive))
      ((unpacked.secondary? type (Slash.join package) m extensions).value view)
      ((packed.secondary? type (Slash.join package) m extensions).value view)
  isPackage : ∀ (package : List String) (m : Option ModuleDescriptor), AllPlain package →
    (unpacked.isPackage (Slash.join package) m).value view =
      (packed.isPackage (Slash.join package) m).value view

/-- Matching locations without sources answer alike. -/
theorem Location.AnswersAlike.of_matches {view : View} {root archive : Path}
    {unpacked packed : Location} (h : unpacked.Matches (.packed view root archive) packed)
    (hkind : unpacked.kind ≠ .sourceFolder) :
    Location.AnswersAlike view root archive unpacked packed := by
  refine ⟨?_, ?_, ?_⟩
  · intro name m extensions hplain
    have hpath : IsPlainPath (TypePaths.binary name).qualified :=
      ⟨name.classSegments, TypeName.allPlain_classSegments hplain, name.qualified_binary⟩
    have htype := h.type? (Comparison.covers_of_ne hkind hpath) m extensions
    rw [Comparison.same_of_ne _ hkind] at htype
    exact Sides.views_agree_iff.1 htype
  · intro type package m extensions hplain
    exact Sides.views_agree_iff.1 (h.secondary? ⟨package, hplain, rfl⟩ type m extensions)
  · intro package m hplain
    exact Sides.views_agree_iff.1 (h.isPackage ⟨package, hplain, rfl⟩ m)

/-- A folder and an archive of it answer every question by plain names alike, as class folder and
class archive and as the two kinds of image. The images also list the same modules, if the list of
the exploded one was read from the tree as it is. -/
theorem Packs.answersAlike {view : View} {root : Path} {entries : List ArchiveEntry}
    {handle : ArchiveHandle} (hpacks : Packs view.disk root entries)
    (hcontent : view.archive? handle = some (.ofEntries entries)) (rules : AccessRules)
    (scope : ModuleScope) (annotations annotations' : Option AnnotationPath) :
    Location.AnswersAlike view root handle.path (.classes ⟨root, rules, scope⟩)
      (.archive ⟨handle, rules, annotations', scope⟩) ∧
    (view.explodedModules ⟨.folder root, annotations⟩ = view.disk.folderNames root →
      (Location.image ⟨.folder root, annotations⟩).imageModules.value view =
        (Location.image ⟨.archive handle, annotations'⟩).imageModules.value view ∧
      Location.AnswersAlike view root handle.path (.image ⟨.folder root, annotations⟩)
        (.image ⟨.archive handle, annotations'⟩)) := by
  constructor
  · apply Location.AnswersAlike.of_matches _ (by simp [Location.kind])
    exact .packed (hpacks.matching hcontent none annotations')
  · intro hexploded
    have hmodules : (ModuleImage.modules ⟨.folder root, annotations⟩).value view =
        (ModuleImage.modules ⟨.archive handle, annotations'⟩).value view := by
      simp only [ModuleImage.modules, Lookup.value_explodedModules, hexploded, Lookup.value_bind,
        Lookup.value_archive?, hcontent, Lookup.value_pure, Option.map_some, Option.getD_some,
        hpacks.topFolders]
    refine ⟨hmodules, ?_⟩
    apply Location.AnswersAlike.of_matches _ (by simp [Location.kind])
    apply Location.Matches.image (hpacks.matching hcontent annotations annotations')
    refine Sides.views_agree_iff.2 ⟨hmodules, ?_⟩
    intro module hmodule
    have hlisted : module ∈ view.disk.folderNames root := hexploded ▸ hmodule
    rw [← hpacks.topFolders, hpacks.mem_topFolders_iff] at hlisted
    exact Disk.allPlain_of_nodeBelow? hlisted module List.mem_cons_self

/-- The tree of a module with a class file, a source file of two types and an empty folder. -/
def moduleTree : Disk :=
  let classFile := Disk.empty.put (.ofText "tree/m/p/Baz.class") (.file (.plain "Baz".toUTF8))
  let sourceFile := classFile.put (.ofText "tree/m/p/Box.java")
    (.file (.plain "class Box \x7b\x7d class Bar \x7b\x7d".toUTF8))
  sourceFile.put (.ofText "tree/m/q") .folder

/-- The archive of the tree stands beside it. -/
def zippedTree : Disk :=
  moduleTree.put (.ofText "tree.zip") (.file (.archive (moduleTree.pack (.ofText "tree"))))

def zippedView : View :=
  (LocationSet.build zippedTree [] []).view zippedTree

def zipHandle : ArchiveHandle :=
  ⟨0, .ofText "tree.zip"⟩

theorem zippedTree_packs :
    Packs zippedView.disk (.ofText "tree") (moduleTree.pack (.ofText "tree")) := by
  have hpack : zippedTree.pack (.ofText "tree") = moduleTree.pack (.ofText "tree") := by
    decide +kernel
  rw [← hpack]
  exact packs_pack (by decide +kernel)

theorem zip_content : zippedView.archive? zipHandle =
    some (.ofEntries (moduleTree.pack (.ofText "tree"))) := by
  rfl

/-- The exploded image has the class in its one module, and so has the packaged one. -/
theorem answersAlike_zippedTree :
    Location.AnswersAlike zippedView (.ofText "tree") (.ofText "tree.zip")
      (.classes ⟨.ofText "tree", {}, .all⟩) (.archive ⟨zipHandle, {}, none, .all⟩) ∧
    (Location.image ⟨.folder (.ofText "tree"), none⟩).imageModules.value zippedView =
      (Location.image ⟨.archive zipHandle, none⟩).imageModules.value zippedView ∧
    Location.AnswersAlike zippedView (.ofText "tree") (.ofText "tree.zip")
      (.image ⟨.folder (.ofText "tree"), none⟩) (.image ⟨.archive zipHandle, none⟩) ∧
    ((Location.image ⟨.folder (.ofText "tree"), none⟩).type? (.binary Environment.bazName) none
        []).value zippedView =
      some ⟨.binary ⟨.ofText "tree/m/p/Baz.class", none, "Baz".toUTF8, none⟩, none, some "m"⟩ := by
  have halike := zippedTree_packs.answersAlike zip_content {} .all none none
  obtain ⟨hmodules, himages⟩ := halike.2 rfl
  refine ⟨halike.1, hmodules, himages, ?_⟩
  decide +kernel

end ClasspathLookup
