import ClasspathLookup.Disk.Basic

/-!
# The content of an archive

An archive lists entries by name, taken as they are. A name that ends in a slash is a folder, any
other name a file. Folders are also implied: whatever is named brings in the folder it stands in and
all folders above that one. Names are compared as texts, so `p//Foo` does not stand in `p`.
-/

namespace ClasspathLookup

structure Archive where
  files : Keyed String (Option ByteArray)
  folders : List String

namespace Archive

/-- Adds a folder and what it stands in, up to the first folder that is already there: with it all
above are there as well. -/
def addFolder (folders : List String) (folder : String) : List String :=
  if _h : folder = "" then folders
  else if folder ∈ folders then folders
  else addFolder (folder :: folders) (Slash.parent folder)
termination_by folder.length
decreasing_by exact Slash.length_parent_lt _h

/-- The folder that a name ending in a slash stands for. -/
def folderName? (name : String) : Option String :=
  match Slash.cutLast '/' name with
  | some (folder, "") => some folder
  | _ => none

def isFolderName (name : String) : Bool :=
  (folderName? name).isSome

/-- The folder that an entry brings in first. -/
def folderOf (name : String) : String :=
  (folderName? name).getD (Slash.parent name)

/-- Of two entries with one name the later data is kept. -/
def ofEntries (entries : List ArchiveEntry) : Archive where
  files := Keyed.ofList
    ((entries.filter fun e => !isFolderName e.name).map fun e => (e.name, e.data))
  folders := entries.foldl (fun folders e => addFolder folders (folderOf e.name)) []

def isFile (archive : Archive) (name : String) : Bool :=
  (archive.files.find? name).isSome

/-- Nothing for a name that is not a file, and for a file that cannot be read. -/
def read? (archive : Archive) (name : String) : Option ByteArray :=
  (archive.files.find? name).join

/-- The root is a folder of every archive. -/
def isFolder (archive : Archive) (name : String) : Bool :=
  name = "" || archive.folders.contains name

/-- The sorted last segments of the files directly in a folder. -/
def fileNames (archive : Archive) (folder : String) : List String :=
  Text.sorted ((archive.files.keys.filter fun name => Slash.parent name = folder).map Slash.last)

/-- The sorted folders that stand in no other one. -/
def topFolders (archive : Archive) : List String :=
  Text.sorted (archive.folders.filter fun folder => !folder.contains '/')

/-- The archive in a file, if the path names an archive file. -/
def open? (disk : Disk) (path : Path) : Option Archive :=
  match disk.file? path with
  | some (.archive entries _) => some (ofEntries entries)
  | _ => none

end Archive

end ClasspathLookup
