import ClasspathLookup.Answer
import ClasspathLookup.Declaration.TopLevel
import ClasspathLookup.Lookup
import ClasspathLookup.TypeName

/-!
# Reading a storage

Folder trees and archives answer the same questions about slashed texts relative to their root: what
a file holds, whether a folder exists, which files stand in it. The two lookups that every kind of
location needs, of a class file by name and of a declaring source file in a package, are built on
these questions alone.
-/

namespace ClasspathLookup.Storage

def read (storage : Storage) (relative : String) : Lookup (Option ByteArray) :=
  match storage with
  | .folder root => .onDisk fun disk => disk.read? (root.below relative)
  | .archive handle => do
    let content ← Lookup.archive? handle
    pure (content.bind (·.read? relative))

/-- Nothing for a file that is not valid UTF-8. -/
def readText (storage : Storage) (relative : String) : Lookup (Option String) := do
  let bytes ← storage.read relative
  pure (bytes.bind String.fromUTF8?)

def isFolder (storage : Storage) (relative : String) : Lookup Bool :=
  match storage with
  | .folder root => .onDisk fun disk => disk.isFolder (root.below relative)
  | .archive handle => do
    let content ← Lookup.archive? handle
    pure (content.any (·.isFolder relative))

/-- The sorted names of the files directly in a folder. -/
def fileNames (storage : Storage) (relative : String) : Lookup (List String) :=
  match storage with
  | .folder root => .onDisk fun disk => disk.fileNames (root.below relative)
  | .archive handle => do
    let content ← Lookup.archive? handle
    pure ((content.map (·.fileNames relative)).getD [])

/-- The class file with a given path and content. A class in an archive is an entry of it. -/
def classFile (storage : Storage) (relative : String) (bytes : ByteArray)
    (annotations : Option AnnotationPath) : BinaryType :=
  match storage with
  | .folder root =>
    { origin := root.below relative, bytes := bytes, annotations := annotations }
  | .archive handle =>
    { origin := handle.path, entry := some relative, bytes := bytes, annotations := annotations }

def binary? (storage : Storage) (relative : String) (annotations : Option AnnotationPath) :
    Lookup (Option Answer) := do
  let bytes ← storage.read relative
  pure (bytes.map fun bytes => ⟨.binary (storage.classFile relative bytes annotations), none, none⟩)

/-- The source file with a given path and text. -/
def unit (storage : Storage) (relative stem text : String) : SourceUnit :=
  match storage with
  | .folder root => .file (root.below relative) stem
  | .archive handle => .archiveEntry handle.path relative text

/-- The stem of a file that may declare types beside the one it is named after: any source file but
the one named after the wanted type itself. -/
def sourceStem? (type : String) (extensions : List String) (name : String) : Option String :=
  match Slash.cutLast '.' name with
  | some (stem, extension) => if stem ≠ type ∧ extension ∈ extensions then some stem else none
  | none => none

/-- The answer of one file of a package, if it declares the type. -/
def declaring? (storage : Storage) (folder type : String) (extensions : List String)
    (admits : String → Bool) (name : String) : Lookup (Option Answer) :=
  match sourceStem? type extensions name with
  | none => pure none
  | some stem => do
    let relative := Slash.below folder name
    if admits relative then
      match ← storage.readText relative with
      | none => pure none
      | some text =>
        if type ∈ Declaration.declaredTypes text then
          pure (some ⟨.source (storage.unit relative stem text), none, none⟩)
        else pure none
    else pure none

/-- The first file directly in a package folder that declares the type. -/
def secondary? (storage : Storage) (folder type : String) (extensions : List String)
    (admits : String → Bool) : Lookup (Option Answer) := do
  let names ← storage.fileNames folder
  Lookup.firstSome (storage.declaring? folder type extensions admits) names

end ClasspathLookup.Storage
