import ClasspathLookup.Archive.Index

/-!
# Shared archive handles

Locations that point at one archive share a handle. Handles are kept under the canonical path, or
under the path as given where nothing exists, and compared by its steps. An archive is opened when
it is first needed; the outcome, also a failure, stays with the handle for good and outlives the
file and the cache.
-/

namespace ClasspathLookup

/-- Handles are told apart by their serial number. -/
structure ArchiveHandle where
  serial : Nat
  path : Path
deriving DecidableEq

structure ArchiveCache where
  handles : Keyed (List String) ArchiveHandle := {}
  outcomes : Keyed ArchiveHandle (Option Archive) := {}
  issued : Nat := 0

namespace ArchiveCache

def empty : ArchiveCache := {}

/-- The path under which a handle is kept. -/
def keyPath (disk : Disk) (path : Path) : Path :=
  (disk.canonical? path).getD path

def handle (cache : ArchiveCache) (disk : Disk) (path : Path) : ArchiveHandle × ArchiveCache :=
  let key := keyPath disk path
  match cache.handles.find? key.steps with
  | some handle => (handle, cache)
  | none =>
    let handle : ArchiveHandle := ⟨cache.issued, key⟩
    (handle, { cache with
      handles := cache.handles.insert key.steps handle
      issued := cache.issued + 1 })

/-- The content behind a handle: what was found when it was opened, or else what opening it now
would find. -/
def content? (cache : ArchiveCache) (disk : Disk) (handle : ArchiveHandle) : Option Archive :=
  (cache.outcomes.find? handle).getD (Archive.open? disk handle.path)

/-- Opens the archive if that was not tried before. -/
def opened (cache : ArchiveCache) (disk : Disk) (handle : ArchiveHandle) : ArchiveCache :=
  { cache with outcomes := cache.outcomes.insertNew handle (cache.content? disk handle) }

def isReadable (cache : ArchiveCache) (disk : Disk) (handle : ArchiveHandle) : Bool :=
  (cache.content? disk handle).isSome

/-- Whether the archive was opened with success. -/
def isOpen (cache : ArchiveCache) (handle : ArchiveHandle) : Bool :=
  match cache.outcomes.find? handle with
  | some outcome => outcome.isSome
  | none => false

/-- Forgets the handles; those already given out keep their outcome. -/
def clear (cache : ArchiveCache) : ArchiveCache :=
  { cache with handles := {} }

def size (cache : ArchiveCache) : Nat :=
  cache.handles.size

/-- Once opened, a handle shows the same content whatever happens to the disk. -/
theorem content?_opened_self (cache : ArchiveCache) (disk later : Disk) (handle : ArchiveHandle) :
    (cache.opened disk handle).content? later handle = cache.content? disk handle := by
  unfold opened content?
  rw [Keyed.find?_insertNew, if_pos rfl, Option.getD_some]
  cases cache.outcomes.find? handle <;> rfl

/-- On an unchanged disk it does not show what has been opened. -/
@[simp] theorem content?_opened (cache : ArchiveCache) (disk : Disk) (handle : ArchiveHandle) :
    (cache.opened disk handle).content? disk = cache.content? disk := by
  funext other
  by_cases h : other = handle
  · rw [h, content?_opened_self]
  · unfold opened content?
    rw [Keyed.find?_insertNew, if_neg h]

theorem isOpen_opened (cache : ArchiveCache) (disk : Disk) (handle : ArchiveHandle) :
    (cache.opened disk handle).isOpen handle = cache.isReadable disk handle := by
  unfold opened isOpen isReadable content?
  rw [Keyed.find?_insertNew, if_pos rfl]
  cases cache.outcomes.find? handle <;> rfl

/-- Asking again for the same path gives the same handle and changes nothing. -/
theorem handle_handle (cache : ArchiveCache) (disk : Disk) (path : Path) :
    (cache.handle disk path).2.handle disk path = cache.handle disk path := by
  unfold handle
  dsimp only
  cases h : cache.handles.find? (keyPath disk path).steps with
  | some handle => simp only [h]
  | none => simp only [Keyed.find?_insert_self]

end ArchiveCache

end ClasspathLookup
