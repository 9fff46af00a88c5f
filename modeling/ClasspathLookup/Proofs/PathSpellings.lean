import ClasspathLookup.Proofs.CacheHistories
import ClasspathLookup.Proofs.FileTree

/-!
# Spellings of the path of an archive

Paths of one key share a handle, which goes by the first of them. Where a path exists that does not
matter, because its handle goes by the canonical path. A path that asks for a folder where an archive
stands does not exist, so it is kept as given; its steps are those of the archive all the same. The
two share a handle, and whichever is asked for first decides whether the archive can be read.
-/

namespace ClasspathLookup

/-- The path leads to an archive, but asks for a folder there. -/
def Disk.mistakesForFolder (disk : Disk) (path : Path) : Bool :=
  path.asFolder && (Archive.open? disk { path with asFolder := false }).isSome

/-- Some actions on one disk. -/
def CacheHistory.acting (disk : Disk) (actions : List CacheAction) : CacheHistory :=
  actions.map fun action => (disk, action)

theorem Archive.isSome_open?_iff {disk : Disk} {path : Path} :
    (Archive.open? disk path).isSome = true ↔
      ∃ place entries raw, disk.find? path = some (place, .file (.archive entries raw)) := by
  unfold Archive.open? Disk.file?
  constructor
  · intro h
    split at h
    · rename_i entries raw hfile
      split at hfile
      · rename_i place content hfind
        obtain rfl := Option.some.inj hfile
        exact ⟨place, entries, raw, hfind⟩
      · cases hfile
    · cases h
  · rintro ⟨place, entries, raw, hfind⟩
    rw [hfind]
    rfl

namespace ArchiveCache

/-- Whether the handle of a path can be read. -/
def canRead (cache : ArchiveCache) (disk : Disk) (path : Path) : Bool :=
  let (handle, later) := cache.handle disk path
  later.isReadable disk handle

section NewCache

variable {disk : Disk} {path other : Path}

theorem canRead_eq (cache : ArchiveCache) (disk : Disk) (path : Path) :
    cache.canRead disk path = (cache.content? disk (cache.handle disk path).1).isSome := by
  simp only [canRead, isReadable, content?, outcomes_handle]

/-- A new cache opens what the path names. -/
theorem canRead_empty (disk : Disk) (path : Path) :
    empty.canRead disk path = (Archive.open? disk (keyPath disk path)).isSome :=
  canRead_eq empty disk path

theorem keyPath_of_find? {place : Place} {node : Node} (h : disk.find? path = some (place, node)) :
    keyPath disk path = { steps := (keyPath disk path).steps } := by
  have hkey : keyPath disk path = place.path := by
    rw [keyPath, Disk.canonical?, h]
    rfl
  rw [hkey]
  cases place <;> rfl

theorem keyPath_of_find?_eq_none (h : disk.find? path = none) : keyPath disk path = path := by
  rw [keyPath, Disk.canonical?, h]
  rfl

/-- A path that exists is right about what it leads to. -/
theorem mistakesForFolder_of_find? {place : Place} {node : Node}
    (h : disk.find? path = some (place, node)) : disk.mistakesForFolder path = false := by
  obtain ⟨hwalk, hnode, hkind⟩ := Disk.find?_eq_some_iff.1 h
  rw [Disk.mistakesForFolder, Bool.eq_false_iff, Ne, Bool.and_eq_true, Archive.isSome_open?_iff]
  rintro ⟨hfolder, place', entries, raw, hfind⟩
  obtain ⟨hwalk', hnode', -⟩ := Disk.find?_eq_some_iff.1 hfind
  obtain rfl : place = place' := Option.some.inj (hwalk.symm.trans hwalk')
  obtain rfl : node = .file (.archive entries raw) := Option.some.inj (hnode.symm.trans hnode')
  simp [hfolder, Node.isFile, Node.isFolder] at hkind

/-- A path can be read when an archive stands where its key says, unless it mistakes the archive for
a folder. -/
theorem canRead_empty_eq (disk : Disk) (path : Path) : empty.canRead disk path =
    (!disk.mistakesForFolder path &&
      (Archive.open? disk { steps := (keyPath disk path).steps }).isSome) := by
  rw [canRead_empty]
  cases hfind : disk.find? path with
  | some found =>
    rw [mistakesForFolder_of_find? hfind, ← keyPath_of_find? hfind]
    rfl
  | none =>
    have hnone : Archive.open? disk path = none := by
      rw [Archive.open?, Disk.file?, hfind]
    rw [keyPath_of_find?_eq_none hfind, hnone, Disk.mistakesForFolder]
    obtain ⟨steps, asFolder⟩ := path
    cases asFolder with
    | true => simp
    | false => simp [hnone]

theorem isSome_open?_of_mistakesForFolder (h : disk.mistakesForFolder path = true) :
    (Archive.open? disk { steps := (keyPath disk path).steps }).isSome = true := by
  have hfind : disk.find? path = none := by
    rw [Option.eq_none_iff_forall_ne_some]
    intro found hfind
    rw [mistakesForFolder_of_find? hfind] at h
    cases h
  rw [keyPath_of_find?_eq_none hfind]
  exact (Bool.and_eq_true_iff.1 h).2

/-- Of two paths with one key a new cache can read both or none, unless one of them mistakes the
archive for a folder and the other one does not. -/
theorem canRead_empty_eq_iff (h : (keyPath disk path).steps = (keyPath disk other).steps) :
    empty.canRead disk path = empty.canRead disk other ↔
      disk.mistakesForFolder path = disk.mistakesForFolder other := by
  have hpath := @isSome_open?_of_mistakesForFolder disk path
  have hother := @isSome_open?_of_mistakesForFolder disk other
  rw [canRead_empty_eq, canRead_empty_eq, h]
  rw [h] at hpath
  generalize (Archive.open? disk { steps := (keyPath disk other).steps }).isSome = found
    at hpath hother ⊢
  cases found with
  | true => simp
  | false => simp_all

end NewCache

section OneDisk

/-- What is requested was asked for at some moment of the history. -/
theorem mem_of_mem_requests {history : CacheHistory} {request : Disk × Path}
    (h : request ∈ requests history) : (request.1, .handle request.2) ∈ history := by
  induction history using List.reverseRecOn with
  | nil => cases h
  | append_singleton history moment ih =>
    obtain ⟨disk, action⟩ := moment
    cases action with
    | handle path =>
      rw [requests_concat, List.mem_append, List.mem_singleton] at h
      rcases h with h | rfl
      · exact List.mem_append_left _ (ih h)
      · simp
    | isReadable handle =>
      rw [requests, List.foldl_concat] at h
      exact List.mem_append_left _ (ih h)
    | isOpen handle =>
      rw [requests, List.foldl_concat] at h
      exact List.mem_append_left _ (ih h)
    | clear =>
      rw [requests, List.foldl_concat] at h
      cases h

/-- The path that was asked for first under the key of a path, since the cache was last cleared. -/
def firstSpelling (history : CacheHistory) (disk : Disk) (path : Path) : Path :=
  (((requests history).find? fun request =>
    requestKey request = (keyPath disk path).steps).map Prod.snd).getD path

variable (disk : Disk) (actions : List CacheAction)

theorem fst_of_mem_acting {disk : Disk} {actions : List CacheAction} {moment : Disk × CacheAction}
    (h : moment ∈ CacheHistory.acting disk actions) : moment.1 = disk := by
  obtain ⟨action, -, rfl⟩ := List.mem_map.1 h
  rfl

theorem content?_after_acting (handle : ArchiveHandle) :
    (empty.after (.acting disk actions)).content? disk handle =
      Archive.open? disk handle.path := by
  rw [content?_after]
  cases htrial : firstTrial? (.acting disk actions) handle with
  | none => rfl
  | some first =>
    obtain ⟨earlier, rest, hsplit, -⟩ := exists_firstTrial htrial
    have hmem : (first, .isReadable handle) ∈ CacheHistory.acting disk actions := by simp [hsplit]
    rw [Option.getD_some, show first = disk from fst_of_mem_acting hmem]

/-- The handle of a path goes by the first spelling, under which it is kept. -/
theorem path_handle_after_acting (path : Path) :
    let first := firstSpelling (.acting disk actions) disk path
    ((empty.after (.acting disk actions)).handle disk path).1.path = keyPath disk first ∧
      (keyPath disk first).steps = (keyPath disk path).steps := by
  have hpath := map_find?_after (.acting disk actions) (keyPath disk path).steps
  rw [handle_fst, firstSpelling]
  cases hfind : (requests (.acting disk actions)).find? fun request =>
      requestKey request = (keyPath disk path).steps with
  | none =>
    rw [hfind, Option.map_none, Option.map_eq_none_iff] at hpath
    rw [hpath]
    exact ⟨rfl, rfl⟩
  | some request =>
    obtain ⟨asked, spelling⟩ := request
    obtain rfl : asked = disk :=
      fst_of_mem_acting (mem_of_mem_requests (List.mem_of_find?_eq_some hfind))
    rw [hfind, Option.map_some, Option.map_eq_some_iff] at hpath
    obtain ⟨handle, hhandle, hspelling⟩ := hpath
    rw [hhandle]
    have hkey := List.find?_some hfind
    exact ⟨hspelling, of_decide_eq_true hkey⟩

/-- On one disk a cache reads a path like a new cache would read the first spelling that was asked for
under its key. So what was asked before does not matter, unless one of the two paths takes an archive
for a folder and the other one does not. -/
theorem canRead_after_eq_iff (path : Path) :
    let history : CacheHistory := .acting disk actions
    let first := firstSpelling history disk path
    (empty.after history).canRead disk path = empty.canRead disk first ∧
    ((empty.after history).canRead disk path = empty.canRead disk path ↔
      disk.mistakesForFolder first = disk.mistakesForFolder path) := by
  intro history first
  obtain ⟨hpath, hkey⟩ := path_handle_after_acting disk actions path
  have hfirst : (empty.after history).canRead disk path = empty.canRead disk first := by
    rw [canRead_eq, content?_after_acting, hpath, canRead_empty]
  exact ⟨hfirst, by rw [hfirst, canRead_empty_eq_iff hkey]⟩

end OneDisk

/-- A disk with one archive. -/
def lonelyJarDisk : Disk :=
  Disk.empty.put (.ofText "l.jar") (.file (.archive []))

/-- The archive is asked for as a folder first, and then it cannot be read. -/
theorem not_forall_canRead_after_eq :
    ¬ ∀ disk actions path, (empty.after (.acting disk actions)).canRead disk path =
      empty.canRead disk path := by
  intro hsame
  have hjar := hsame lonelyJarDisk [.handle (.ofText "l.jar/")] (.ofText "l.jar")
  exact absurd hjar (by decide +kernel)

end ArchiveCache

end ClasspathLookup
