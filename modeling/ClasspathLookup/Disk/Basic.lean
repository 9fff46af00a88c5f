import ClasspathLookup.Disk.Position
import ClasspathLookup.Keyed
import ClasspathLookup.Text.Sorted

/-!
# The file tree

A disk says which folders and files stand at which positions below the work directory. A path is
walked step by step and every step has to start in a folder, so nothing stands below a file.

Files are put with their missing parents. Putting a file over another one replaces it; removing
something removes all below it.
-/

namespace ClasspathLookup

/-- Bytes are compared in one way, whatever is imported beside this. -/
instance bytesDecidableEq : DecidableEq ByteArray := ByteArray.instDecidableEq

/-- An entry of an archive file; without data it is listed but cannot be read. -/
structure ArchiveEntry where
  name : String
  data : Option ByteArray
deriving DecidableEq

/-- A file that opens as an archive has entries beside its own bytes. -/
inductive FileContent where
  | plain (bytes : ByteArray)
  | archive (entries : List ArchiveEntry) (raw : ByteArray := ByteArray.empty)
deriving DecidableEq

/-- What reading the file itself gives, whether or not it could be opened as an archive. -/
def FileContent.bytes : FileContent → ByteArray
  | .plain bytes => bytes
  | .archive _ raw => raw

inductive Node where
  | folder
  | file (content : FileContent)
deriving DecidableEq

def Node.isFolder : Node → Bool
  | .folder => true
  | .file _ => false

def Node.isFile (node : Node) : Bool :=
  !node.isFolder

structure Disk where
  nodes : Keyed Position Node

namespace Disk

/-- The work directory and nothing else. -/
def empty : Disk :=
  ⟨Keyed.ofList [(.root, .folder)]⟩

def node? (disk : Disk) : Place → Option Node
  | .above => some .folder
  | .at position => disk.nodes.find? position

def isFolderAt (disk : Disk) (place : Place) : Bool :=
  match disk.node? place with
  | some node => node.isFolder
  | none => false

/-- One step of a walk. It starts in a folder and leads to something that exists. -/
def enter? (disk : Disk) (place : Place) (name : String) : Option Place :=
  if disk.isFolderAt place then
    if name = ".." then some place.up
    else (place.child? name).filter fun child => (disk.node? child).isSome
  else none

def walk? (disk : Disk) (steps : List String) : Option Place :=
  steps.foldlM disk.enter? (.at .root)

/-- What a path names, with its place. -/
def find? (disk : Disk) (path : Path) : Option (Place × Node) := do
  let place ← disk.walk? path.steps
  let node ← disk.node? place
  if path.asFolder && node.isFile then none else some (place, node)

def file? (disk : Disk) (path : Path) : Option FileContent :=
  match disk.find? path with
  | some (_, .file content) => some content
  | _ => none

def isFile (disk : Disk) (path : Path) : Bool :=
  (disk.file? path).isSome

def isFolder (disk : Disk) (path : Path) : Bool :=
  match disk.find? path with
  | some (_, node) => node.isFolder
  | none => false

def read? (disk : Disk) (path : Path) : Option ByteArray :=
  (disk.file? path).map FileContent.bytes

/-- The one path of an existing file or folder that takes no detour. -/
def canonical? (disk : Disk) (path : Path) : Option Path :=
  (disk.find? path).map fun found => found.1.path

/-- The sorted names of what stands directly in a folder and passes the test. -/
def names (disk : Disk) (path : Path) (wanted : Node → Bool) : List String :=
  match disk.find? path with
  | some (.at position, .folder) =>
    Text.sorted (disk.nodes.pairs.filterMap fun p =>
      if wanted p.2 then position.nameIn? p.1 else none)
  | _ => []

def fileNames (disk : Disk) (path : Path) : List String :=
  disk.names path Node.isFile

def folderNames (disk : Disk) (path : Path) : List String :=
  disk.names path Node.isFolder

/-- Puts a file, or makes sure that there is a folder. Nothing is put where nothing can stand. -/
def put (disk : Disk) (path : Path) (node : Node) : Disk :=
  match (Position.root.passed? path.steps).map List.reverse with
  | some (position :: parents) =>
    let nodes := parents.foldl (fun m p => m.insertNew p .folder) disk.nodes
    ⟨if node.isFolder then nodes.insertNew position node else nodes.insert position node⟩
  | _ => disk

def remove (disk : Disk) (path : Path) : Disk :=
  match disk.find? path with
  | some (.at position, _) => ⟨disk.nodes.filterKeys fun p => !position.contains p⟩
  | _ => disk

end Disk

end ClasspathLookup
