import ClasspathLookup.Lookup

/-!
# Location sets

A set holds its locations in the order of the search, none twice. It is built from classpath roots:
the name of a root tells whether it is a module image, an archive or a folder, and roots that cannot
be opened are left out. The set also owns what its locations share: the archive handles and the
module lists already read.
-/

namespace ClasspathLookup

inductive RootRole where
  | source
  | binary
deriving DecidableEq, Repr

/-- A resolved root of a project's classpath. -/
structure ClasspathRoot where
  path : Path
  role : RootRole := .binary
  rules : AccessRules := {}
  inclusion : List String := []
  exclusion : List String := []
  annotations : Option AnnotationPath := none
  module : Option String := none

namespace ClasspathRoot

/-- A root without a module is open to every one. -/
def scope (root : ClasspathRoot) : ModuleScope :=
  match root.module with
  | none => .all
  | some m => .named [m]

end ClasspathRoot

/-- A packaged image has an extension of its own; the image of an installed runtime is
`lib/modules`. -/
def Path.namesImage (path : Path) : Bool :=
  path.extension? = some "jimage" ||
    (path.fileName? = some "modules" && path.parent.fileName? = some "lib")

/-- Extensions are compared without regard to ASCII case. -/
def sameExtension (a b : String) : Bool :=
  a.toList.map Char.toLower = b.toList.map Char.toLower

def Path.namesArchive (path : Path) (extensions : List String) : Bool :=
  match path.extension? with
  | some extension => extensions.any (sameExtension extension)
  | none => false

structure LocationSet where
  locations : List Location := []
  archives : ArchiveCache := .empty
  explodedModules : Keyed ModuleImage (List String) := {}
  archiveExtensions : List String := ["jar", "zip"]

namespace LocationSet

/-- A handle from the set's own cache. -/
def handle (set : LocationSet) (disk : Disk) (path : Path) : ArchiveHandle × LocationSet :=
  let (handle, archives) := set.archives.handle disk path
  (handle, { set with archives := archives })

/-- The handle of a file that can be read as an archive. -/
def readable? (set : LocationSet) (disk : Disk) (path : Path) :
    Option ArchiveHandle × LocationSet :=
  if disk.isFile path then
    let (handle, set) := set.handle disk path
    let readable := set.archives.isReadable disk handle
    (if readable then some handle else none,
      { set with archives := set.archives.opened disk handle })
  else (none, set)

/-- The location a root stands for. What is named as an image or archive is never taken for a plain
folder, except that an image may be an exploded one. -/
def locate? (set : LocationSet) (disk : Disk) (root : ClasspathRoot) :
    Option Location × LocationSet :=
  if root.path.namesImage then
    if disk.isFolder root.path then
      (some (.image ⟨.folder root.path, root.annotations⟩), set)
    else
      let (handle, set) := set.readable? disk root.path
      (handle.map fun h => .image ⟨.archive h, root.annotations⟩, set)
  else if root.path.namesArchive set.archiveExtensions then
    let (handle, set) := set.readable? disk root.path
    (handle.map fun h => .archive ⟨h, root.rules, root.annotations, root.scope⟩, set)
  else if disk.isFolder root.path then
    match root.role with
    | .source => (some (.source ⟨root.path, root.inclusion, root.exclusion, root.scope⟩), set)
    | .binary => (some (.classes ⟨root.path, root.rules, root.scope⟩), set)
  else (none, set)

def contains (set : LocationSet) (key : LocationKey) : Bool :=
  set.locations.any (·.key = key)

/-- Appends a location unless one with its key is there. -/
def push (set : LocationSet) (location : Location) : Bool × LocationSet :=
  if set.contains location.key then (false, set)
  else (true, { set with locations := set.locations ++ [location] })

/-- Appends the locations of roots and counts the new ones. -/
def merge (set : LocationSet) (disk : Disk) : List ClasspathRoot → Nat × LocationSet
  | [] => (0, set)
  | root :: roots =>
    let (location, located) := set.locate? disk root
    match location with
    | none => located.merge disk roots
    | some location =>
      let (isNew, pushed) := located.push location
      let (count, merged) := pushed.merge disk roots
      (isNew.toNat + count, merged)

def build (disk : Disk) (roots : List ClasspathRoot) (archiveExtensions : List String) :
    LocationSet :=
  (merge { archiveExtensions := archiveExtensions } disk roots).2

/-- Drops every location, with the module lists of the images, and forgets the handles. What was
opened stays with a handle that is still held elsewhere. -/
def cleanup (set : LocationSet) : LocationSet :=
  { archives := set.archives.clear, archiveExtensions := set.archiveExtensions }

def view (set : LocationSet) (disk : Disk) : View where
  disk := disk
  archive? := set.archives.content? disk
  explodedModules image :=
    (set.explodedModules.find? image).getD (disk.folderNames image.storage.root)

/-- Fixes what was asked for; what has been fixed before stays. -/
def settle (disk : Disk) (set : LocationSet) : Need → LocationSet
  | .archive handle => { set with archives := set.archives.opened disk handle }
  | .explodedModules image =>
    { set with
      explodedModules :=
        set.explodedModules.insertNew image (disk.folderNames image.storage.root) }

/-- Runs a lookup and fixes what it asked for. -/
def run {α : Type} (set : LocationSet) (disk : Disk) (lookup : Lookup α) : α × LocationSet :=
  let (value, needs) := lookup (set.view disk)
  (value, needs.foldl (settle disk) set)

theorem run_eq {α : Type} (set : LocationSet) (disk : Disk) (lookup : Lookup α) :
    set.run disk lookup =
      (lookup.value (set.view disk), (lookup.needs (set.view disk)).foldl (settle disk) set) :=
  rfl

/-- On an unchanged disk it does not show what has been fixed. -/
@[simp] theorem view_settle (set : LocationSet) (disk : Disk) (need : Need) :
    (settle disk set need).view disk = set.view disk := by
  cases need with
  | archive handle => simp [settle, view]
  | explodedModules image =>
    simp only [settle, view, View.mk.injEq, true_and]
    funext other
    rw [Keyed.find?_insertNew]
    split
    · rename_i h
      simp [h]
    · rfl

theorem view_foldl_settle (set : LocationSet) (disk : Disk) (needs : List Need) :
    (needs.foldl (settle disk) set).view disk = set.view disk := by
  induction needs generalizing set with
  | nil => rfl
  | cons need needs ih => rw [List.foldl_cons, ih, view_settle]

/-- A query leaves everything that a query can see as it was. -/
@[simp] theorem view_run {α : Type} (set : LocationSet) (disk : Disk) (lookup : Lookup α) :
    (set.run disk lookup).2.view disk = set.view disk :=
  view_foldl_settle set disk _

end LocationSet

end ClasspathLookup
