import ClasspathLookup.Proofs.ByteOrder
import ClasspathLookup.Proofs.FallbackRank
import ClasspathLookup.Proofs.Lists
import ClasspathLookup.Proofs.ListingOrder

/-!
# Which file of a package is picked

When a package is searched for a type, any source file that stands directly in it and declares the
type would do, but for the one named after the type. The file picked is the first of them in the
order of bytes, in an image the first of the first module that has one. It does not matter how many
other files there are, why they are passed over, and in which order anything is listed.
-/

namespace ClasspathLookup

theorem Slash.cutLast_dot_eq_some_iff {name stem extension : String} :
    Slash.cutLast '.' name = some (stem, extension) ↔
      name = stem ++ "." ++ extension ∧ '.' ∉ extension.toList := by
  rw [Slash.cutLast_eq_some_iff, ← String.toList_inj]
  simp

namespace Storage

variable {storage : Storage} {view : View} {folder type name stem text : String}
  {extensions : List String} {admits : String → Bool} {a : Answer}

/-- A file directly in a folder, with a configured extension, that is not named after the type, may
be looked into, can be read as text and declares the type. No listing is asked for it. -/
structure HasDeclaring (storage : Storage) (view : View) (folder type : String)
    (extensions : List String) (admits : String → Bool) (name stem text : String) : Prop where
  direct : '/' ∉ name.toList
  named : ∃ extension ∈ extensions, '.' ∉ extension.toList ∧ name = stem ++ "." ++ extension
  otherwise : stem ≠ type
  admitted : admits (Slash.below folder name) = true
  read : ∃ bytes, (storage.read (Slash.below folder name)).value view = some bytes ∧
    String.fromUTF8? bytes = some text
  declared : type ∈ Declaration.declaredTypes text

theorem sourceStem?_eq_some_iff : sourceStem? type extensions name = some stem ↔
    stem ≠ type ∧ ∃ extension ∈ extensions, '.' ∉ extension.toList ∧
      name = stem ++ "." ++ extension := by
  unfold sourceStem?
  constructor
  · intro h
    split at h
    · rename_i before extension hbefore
      obtain ⟨⟨hne, hmem⟩, hstem⟩ := Option.ite_none_right_eq_some.1 h
      obtain rfl := Option.some.inj hstem
      obtain ⟨hname, hdot⟩ := Slash.cutLast_dot_eq_some_iff.1 hbefore
      exact ⟨hne, extension, hmem, hdot, hname⟩
    · cases h
  · rintro ⟨hne, extension, hmem, hdot, hname⟩
    rw [Slash.cutLast_dot_eq_some_iff.2 ⟨hname, hdot⟩]
    exact if_pos ⟨hne, hmem⟩

/-- The listing of the folder has all the files that declare the type. -/
theorem declares_iff : storage.Declares view folder type extensions admits name stem text ↔
    storage.HasDeclaring view folder type extensions admits name stem text := by
  have hread : (storage.readText (Slash.below folder name)).value view = some text ↔
      ∃ bytes, (storage.read (Slash.below folder name)).value view = some bytes ∧
        String.fromUTF8? bytes = some text := by
    simp only [readText, Lookup.value_bind, Lookup.value_pure, Option.bind_eq_some_iff]
  constructor
  · intro h
    obtain ⟨hne, hnamed⟩ := sourceStem?_eq_some_iff.1 h.named
    exact ⟨slash_not_mem_of_mem_fileNames h.listed, hnamed, hne, h.admitted, hread.1 h.read,
      h.declared⟩
  · intro h
    obtain ⟨extension, hmem, hdot, hname⟩ := h.named
    obtain ⟨bytes, hbytes, -⟩ := h.read
    have hne : name ≠ "" := by
      rintro rfl
      simpa using congrArg String.toList hname
    exact ⟨mem_fileNames_of_read hne h.direct hbytes, sourceStem?_eq_some_iff.2
      ⟨h.otherwise, extension, hmem, hdot, hname⟩, h.admitted, hread.2 h.read, h.declared⟩

end Storage

/-- A source file that was picked, in an image with the module in whose tree it stands. -/
structure SourcePick where
  module : Option String
  name : String
  stem : String
  text : String

namespace SourcePick

/-- The folder of a package, in an image below a module. -/
def treeFolder (package : String) : Option String → String
  | none => package
  | some module => Slash.below module package

/-- Where the file stands. -/
def path (pick : SourcePick) (package : String) : String :=
  Slash.below (treeFolder package pick.module) pick.name

/-- One module comes before another in the order of bytes. -/
def TreeBefore (tree next : Option String) : Prop :=
  ∃ module ∈ tree, ∃ other ∈ next, Glob.bytes module < Glob.bytes other

/-- The order in which the trees are searched. -/
def TreeLe (tree next : Option String) : Prop :=
  tree = next ∨ TreeBefore tree next

theorem TreeLe.refl (tree : Option String) : TreeLe tree tree :=
  Or.inl rfl

end SourcePick

namespace Location

variable {location other : Location} {view view' : View} {type package : String}
  {m : Option ModuleDescriptor} {extensions : List String} {a : Answer}

/-- The modules into whose trees a query may look; a location that is no image has one tree. -/
def trees (location : Location) (m : Option ModuleDescriptor) (view : View) :
    List (Option String) :=
  match location with
  | .image l => ((l.modulesFor m).value view).map some
  | .source _ | .classes _ | .archive _ => [none]

/-- Two locations, each in its view, have the same files under the same modules and may look into
the same of them. Nothing is said of how their folders are listed. -/
structure Mirrors (location other : Location) (m : Option ModuleDescriptor) (view view' : View) :
    Prop where
  mem_trees : ∀ tree, tree ∈ location.trees m view ↔ tree ∈ other.trees m view'
  admits : ∀ relative, location.admitsFile relative = other.admitsFile relative
  read : ∀ relative,
    (location.storage.read relative).value view = (other.storage.read relative).value view'

theorem Mirrors.symm (h : location.Mirrors other m view view') :
    other.Mirrors location m view' view :=
  ⟨fun tree => (h.mem_trees tree).symm, fun relative => (h.admits relative).symm,
    fun relative => (h.read relative).symm⟩

end Location

end ClasspathLookup
