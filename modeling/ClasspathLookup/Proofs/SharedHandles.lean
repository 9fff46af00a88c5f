import ClasspathLookup.Proofs.CacheHistories
import ClasspathLookup.Proofs.Snapshots

/-!
# Locations that share an archive

A set is merged, asked and cleaned up, and between two cleanups handles may be asked of it and pushed
back in locations. The steps of a location's path, the key of its handle in the cache and the path of
the handle are then the same everywhere. So all locations in one archive hold one handle, which is
the one in the cache. Whichever of them opens the archive first, opens it for all of them.
-/

namespace ClasspathLookup

namespace ArchiveCache

variable {cache later : ArchiveCache} {handle : ArchiveHandle} {disk : Disk} {path : Path}

/-- The handle is the one that is kept for its path. -/
def Holds (cache : ArchiveCache) (handle : ArchiveHandle) : Prop :=
  cache.handles.find? handle.path.steps = some handle

/-- It was tried to open the archive, with success or not. -/
def HasTried (cache : ArchiveCache) (handle : ArchiveHandle) : Prop :=
  (cache.outcomes.find? handle).isSome = true

theorem Holds.of_keeps (h : cache.Holds handle) (hkeeps : cache.Keeps later) : later.Holds handle :=
  hkeeps.handles _ _ h

theorem IsFiled.holds_handle (h : cache.IsFiled) (disk : Disk) (path : Path) :
    (cache.handle disk path).2.Holds (cache.handle disk path).1 := by
  rw [Holds, find?_handle, if_pos (h.steps_handle disk path)]

/-- A handle that is kept is given out under every path with its key. -/
theorem Holds.handle_eq (h : cache.Holds handle)
    (hkey : (keyPath disk path).steps = handle.path.steps) :
    cache.handle disk path = (handle, cache) := by
  rw [Holds, ← hkey] at h
  exact handle_of_find? h

/-- There is one handle for each path. -/
theorem Holds.eq_of_steps {handle' : ArchiveHandle} (h : cache.Holds handle)
    (h' : cache.Holds handle') (hsteps : handle.path.steps = handle'.path.steps) :
    handle = handle' := by
  rw [Holds, hsteps, h'] at h
  exact (Option.some.inj h).symm

theorem hasTried_opened (cache : ArchiveCache) (disk : Disk) (handle : ArchiveHandle) :
    (cache.opened disk handle).HasTried handle := by
  rw [HasTried, find?_opened_self]
  rfl

theorem HasTried.of_keeps (h : cache.HasTried handle) (hkeeps : cache.Keeps later) :
    later.HasTried handle := by
  obtain ⟨outcome, hfind⟩ := Option.isSome_iff_exists.1 h
  rw [HasTried, hkeeps.outcomes handle outcome hfind]
  rfl

theorem hasTried_of_isOpen (h : cache.isOpen handle = true) : cache.HasTried handle := by
  obtain ⟨archive, hfind⟩ := isOpen_iff.1 h
  rw [HasTried, hfind]
  rfl

/-- A failure is kept like any other outcome. -/
theorem Keeps.content?_of_hasTried (h : cache.Keeps later) (htried : cache.HasTried handle)
    (disk disk' : Disk) : later.content? disk' handle = cache.content? disk handle := by
  obtain ⟨outcome, hfind⟩ := Option.isSome_iff_exists.1 htried
  exact h.content?_of_find? hfind disk disk'

end ArchiveCache

namespace LocationSet

/-- What is done with a set. -/
inductive SessionAction where
  | merge (roots : List ClasspathRoot)
  | handle (path : Path)
  | push (location : Location)
  | query (lookup : Lookup Reply)
  | cleanup

/-- What was done one after the other, each time with the disk as it was then. In between anything
may happen to the disk. -/
abbrev SessionHistory := List (Disk × SessionAction)

/-- A set in use, and the handles that were asked of it since it was last cleaned up. -/
structure Session where
  set : LocationSet
  given : List ArchiveHandle

namespace Session

/-- Nothing was done with the set yet. -/
def start (archiveExtensions : List String) : Session :=
  ⟨.build Disk.empty [] archiveExtensions, []⟩

def act (session : Session) (disk : Disk) : SessionAction → Session
  | .merge roots => { session with set := (session.set.merge disk roots).2 }
  | .handle path =>
    let (handle, set) := session.set.handle disk path
    ⟨set, handle :: session.given⟩
  | .push location => { session with set := (session.set.push location).2 }
  | .query lookup => { session with set := (session.set.run disk lookup).2 }
  | .cleanup => ⟨session.set.cleanup, []⟩

/-- The handle of a location that is pushed was asked of the set since it was last cleaned up. -/
def Permits (session : Session) : SessionAction → Prop
  | .push location => location.OnHandle (· ∈ session.given)
  | .merge _ | .handle _ | .query _ | .cleanup => True

/-- The session at the end of a history. -/
def after (session : Session) (history : SessionHistory) : Session :=
  history.foldl (fun session moment => session.act moment.1 moment.2) session

/-- Every action was permitted when it was done. -/
def Allows (session : Session) : SessionHistory → Prop
  | [] => True
  | (disk, action) :: history =>
    session.Permits action ∧ (session.act disk action).Allows history

theorem after_append (session : Session) (history more : SessionHistory) :
    session.after (history ++ more) = (session.after history).after more :=
  List.foldl_append

theorem allows_append (session : Session) (history more : SessionHistory) :
    session.Allows (history ++ more) ↔
      session.Allows history ∧ (session.after history).Allows more := by
  induction history generalizing session with
  | nil => simp [Allows, after]
  | cons moment history ih =>
    obtain ⟨disk, action⟩ := moment
    rw [List.cons_append, Allows, Allows, ih, and_assoc]
    rfl

/-- All handles that are in use are the ones in the cache, and the archives of all locations are open,
except maybe for those that were pushed. -/
structure IsShared (session : Session) (pushed : Location → Prop) : Prop where
  filed : session.set.archives.IsFiled
  given : ∀ handle ∈ session.given, session.set.archives.Holds handle
  held : ∀ location ∈ session.set.locations, location.OnHandle session.set.archives.Holds
  opened : ∀ location ∈ session.set.locations, session.set.HasOpened location ∨ pushed location

section Invariant

variable {session : Session} {disk : Disk} {pushed : Location → Prop}

theorem isShared_start (archiveExtensions : List String) (pushed : Location → Prop) :
    (start archiveExtensions).IsShared pushed :=
  ⟨ArchiveCache.isFiled_empty, by simp [start], by simp [start, build, merge],
    by simp [start, build, merge]⟩

/-- With more in the cache everything stays as it is. -/
theorem IsShared.of_keeps (h : session.IsShared pushed) {later : LocationSet}
    (hkeeps : session.set.archives.Keeps later.archives) (hfiled : later.archives.IsFiled)
    (hlocations : later.locations = session.set.locations) :
    IsShared { session with set := later } pushed := by
  refine ⟨hfiled, fun handle hgiven => (h.given handle hgiven).of_keeps hkeeps, ?_, ?_⟩
  · intro location hmem handle hstorage
    rw [hlocations] at hmem
    exact (h.held location hmem handle hstorage).of_keeps hkeeps
  · intro location hmem
    rw [hlocations] at hmem
    exact (h.opened location hmem).imp_left fun hopened => hopened.of_keeps hkeeps

theorem IsShared.locate? (h : session.IsShared pushed) (disk : Disk) (root : ClasspathRoot) :
    IsShared { session with set := (session.set.locate? disk root).2 } pushed :=
  h.of_keeps (session.set.grows_locate? disk root).archives.keeps
    ((session.set.grows_locate? disk root).archives.isFiled h.filed)
    (session.set.locations_locate? disk root)

theorem IsShared.push (h : session.IsShared pushed) {location : Location}
    (hheld : location.OnHandle session.set.archives.Holds)
    (hopened : session.set.HasOpened location ∨ pushed location) :
    IsShared { session with set := (session.set.push location).2 } pushed := by
  have harchives := session.set.archives_push location
  refine ⟨harchives ▸ h.filed, harchives ▸ h.given, ?_, ?_⟩
  · intro other hother
    rw [harchives]
    rcases mem_push hother with hmem | rfl
    · exact h.held other hmem
    · exact hheld
  · intro other hother
    rw [HasOpened, harchives]
    rcases mem_push hother with hmem | rfl
    · exact h.opened other hmem
    · exact hopened

/-- The location of a root holds the handle under which its archive was found. -/
theorem IsShared.onHandle_of_locate? (h : session.IsShared pushed) {root : ClasspathRoot}
    {location : Location} (hlocation : (session.set.locate? disk root).1 = some location) :
    location.OnHandle (session.set.locate? disk root).2.archives.Holds := by
  intro handle hstorage
  have hreadable := LocationSet.onHandle_of_locate? hlocation handle hstorage
  obtain ⟨rfl, -, harchives⟩ := handle_of_readable? (congrArg Prod.fst hreadable)
  rw [hreadable] at harchives
  rw [harchives]
  exact h.filed.holds_handle disk root.path

theorem IsShared.merge (h : session.IsShared pushed) (disk : Disk) (roots : List ClasspathRoot) :
    IsShared { session with set := (session.set.merge disk roots).2 } pushed := by
  refine merge_preserves (I := fun set => IsShared { session with set := set } pushed)
    ?_ ?_ h roots
  · intro set root h
    exact h.locate? disk root
  · intro set root location h hlocation
    exact (h.locate? disk root).push (h.onHandle_of_locate? hlocation)
      (Or.inl (hasOpened_of_locate? hlocation))

theorem IsShared.act (h : session.IsShared pushed) (disk : Disk) {action : SessionAction}
    (hpermits : session.Permits action)
    (hpushed : ∀ location, action = .push location → pushed location) :
    (session.act disk action).IsShared pushed := by
  cases action with
  | merge roots => exact h.merge disk roots
  | handle path =>
    have hkeeps := (grows_handle disk session.set path).archives.keeps
    have hlater := h.of_keeps hkeeps (h.filed.handle disk path) rfl
    refine ⟨hlater.filed, ?_, hlater.held, hlater.opened⟩
    intro handle hgiven
    rcases List.mem_cons.1 hgiven with rfl | hgiven
    · exact h.filed.holds_handle disk path
    · exact hlater.given handle hgiven
  | push location =>
    exact h.push (fun handle hstorage => h.given handle (hpermits handle hstorage))
      (Or.inr (hpushed location rfl))
  | query lookup =>
    have hgrows := session.set.grows_run disk lookup
    exact h.of_keeps hgrows.archives.keeps (hgrows.archives.isFiled h.filed)
      (session.set.locations_run disk lookup)
  | cleanup =>
    exact ⟨h.filed.act disk .clear, by simp [Session.act], by simp [Session.act, cleanup],
      by simp [Session.act, cleanup]⟩

theorem IsShared.after (h : session.IsShared pushed) {history : SessionHistory}
    (hallows : session.Allows history)
    (hpushed : ∀ disk location, (disk, .push location) ∈ history → pushed location) :
    (session.after history).IsShared pushed := by
  induction history generalizing session with
  | nil => exact h
  | cons moment history ih =>
    obtain ⟨disk, action⟩ := moment
    have hact : (session.act disk action).IsShared pushed := by
      apply h.act disk hallows.1
      rintro location rfl
      exact hpushed disk location List.mem_cons_self
    exact ih hact hallows.2 fun later location hmem =>
      hpushed later location (List.mem_cons_of_mem _ hmem)

end Invariant

section Growth

variable {session : Session} {disk : Disk}

/-- Until the next cleanup nothing is taken from the cache. -/
theorem keeps_act (session : Session) (disk : Disk) {action : SessionAction}
    (haction : action ≠ .cleanup) :
    session.set.archives.Keeps (session.act disk action).set.archives := by
  cases action with
  | merge roots => exact (session.set.grows_merge disk roots).archives.keeps
  | handle path => exact (grows_handle disk session.set path).archives.keeps
  | push location => exact (grows_push disk session.set location).archives.keeps
  | query lookup => exact (session.set.grows_run disk lookup).archives.keeps
  | cleanup => exact absurd rfl haction

theorem keeps_after (session : Session) {history : SessionHistory}
    (h : ∀ moment ∈ history, moment.2 ≠ .cleanup) :
    session.set.archives.Keeps (session.after history).set.archives := by
  induction history generalizing session with
  | nil => exact .refl _
  | cons moment history ih =>
    have hrest := ih (session.act moment.1 moment.2) fun later hlater =>
      h later (List.mem_cons_of_mem _ hlater)
    exact (session.keeps_act moment.1 (h moment List.mem_cons_self)).trans hrest

/-- What a query asks for has been tried from then on. -/
theorem hasTried_of_mem_needs {set : LocationSet} {handle : ArchiveHandle}
    {lookup : Lookup Reply} (h : .archive handle ∈ lookup.needs (set.view disk)) :
    (set.run disk lookup).2.archives.HasTried handle := by
  obtain ⟨before, rest, hneeds⟩ := List.append_of_mem h
  rw [run_eq, hneeds, List.foldl_append, List.foldl_cons]
  let asked := settle disk (before.foldl (settle disk) set) (.archive handle)
  have htried : asked.archives.HasTried handle := ArchiveCache.hasTried_opened ..
  exact htried.of_keeps (asked.grows_foldl_settle disk rest).archives.keeps

end Growth

/-- All locations in one archive hold one handle. It is the one in the cache, and the one that is
given out when the archive is asked for. On the same disk they list and read the same. From the first
trial to open the archive on they do so on whichever disks, until the set is cleaned up. The archive
was tried when a location in it came with a merge, and it is tried when a query asks for it. -/
theorem locations_share_archives (archiveExtensions : List String) {history more : SessionHistory}
    (hallows : (start archiveExtensions).Allows (history ++ more))
    (hmore : ∀ moment ∈ more, moment.2 ≠ .cleanup) :
    let set := ((start archiveExtensions).after history).set
    let later := ((start archiveExtensions).after (history ++ more)).set
    ∀ location ∈ set.locations, ∀ handle, location.storage = .archive handle →
      later.archives.handles.find? location.root.steps = some handle ∧
      (∀ disk path, (ArchiveCache.keyPath disk path).steps = location.root.steps →
        later.archives.handle disk path = (handle, later.archives)) ∧
      (∀ other ∈ later.locations, other.storage.isPackaged = true →
        other.root.steps = location.root.steps →
          other.storage = .archive handle ∧
          (∀ disk, Storage.Alike (later.view disk) location.storage (later.view disk)
            other.storage) ∧
          (set.archives.HasTried handle → ∀ disk disk',
            Storage.Alike (set.view disk) location.storage (later.view disk') other.storage)) ∧
      (set.archives.HasTried handle ∨ ∃ disk, (disk, .push location) ∈ history) ∧
      ∀ disk (lookup : Lookup Reply), .archive handle ∈ lookup.needs (set.view disk) →
        (set.run disk lookup).2.archives.HasTried handle := by
  intro set later location hmem handle hstorage
  -- Which locations were pushed matters at the first moment only, for the trial of the archive.
  have hfirst : ((start archiveExtensions).after history).IsShared fun location =>
      ∃ disk, (disk, .push location) ∈ history :=
    (isShared_start archiveExtensions _).after ((allows_append ..).1 hallows).1
      fun disk location hmem => ⟨disk, hmem⟩
  have hlast : ((start archiveExtensions).after (history ++ more)).IsShared fun _ => True :=
    (isShared_start archiveExtensions _).after hallows fun _ _ _ => trivial
  have hkeeps : set.archives.Keeps later.archives := by
    simp only [set, later, after_append]
    exact keeps_after _ hmore
  have hheld : later.archives.Holds handle :=
    (hfirst.held location hmem handle hstorage).of_keeps hkeeps
  have hroot : location.root = handle.path := congrArg Storage.root hstorage
  rw [hroot]
  refine ⟨hheld, fun disk path hkey => hheld.handle_eq hkey, ?_, ?_,
    fun disk lookup hneeds => hasTried_of_mem_needs hneeds⟩
  · intro other hother hpackaged hsame
    obtain ⟨handle', hstorage'⟩ : ∃ handle', other.storage = .archive handle' := by
      cases hkind : other.storage with
      | folder root => simp [hkind, Storage.isPackaged] at hpackaged
      | archive handle' => exact ⟨handle', rfl⟩
    obtain rfl : handle' = handle := by
      have hsteps : handle'.path.steps = handle.path.steps := by
        rw [← hsame, Location.root, hstorage']
        rfl
      exact (hlast.held other hother handle' hstorage').eq_of_steps hheld hsteps
    rw [hstorage, hstorage']
    exact ⟨rfl, fun disk => .refl _ _, fun htried disk disk' =>
      .of_archive rfl (hkeeps.content?_of_hasTried htried disk disk').symm⟩
  · exact (hfirst.opened location hmem).imp_left fun hopened =>
      ArchiveCache.hasTried_of_isOpen (hopened handle hstorage)

def oldJar : Location :=
  .archive ⟨⟨0, .ofText "lib.jar"⟩, {}, none, .all⟩

/-- An image packaged in the same archive. -/
def jarImage : Location :=
  .image ⟨.archive ⟨0, .ofText "lib.jar"⟩, none⟩

/-- The archive is replaced, merged once more and pushed as an image as well. All three locations hold
its handle and read what the archive was at first, also when it is gone. -/
theorem locations_share_archives_replaced :
    let old := Environment.jarDisk "old"
    let new := Environment.jarDisk "new"
    let history : SessionHistory := [(old, .merge [{ path := .ofText "lib.jar" }])]
    let more : SessionHistory := [(new, .merge [{ path := .ofText "./lib.jar", module := some "m" }]),
      (new, .handle (.ofText "lib.jar")), (Disk.empty, .push jarImage)]
    let later := ((start ["jar"]).after (history ++ more)).set
    (start ["jar"]).Allows (history ++ more) ∧ (∀ moment ∈ more, moment.2 ≠ .cleanup) ∧
      later.locations.length = 3 ∧
      ∀ other ∈ later.locations, other.storage = .archive ⟨0, .ofText "lib.jar"⟩ ∧
        ∀ disk, (other.storage.read "s/Jar.class").value (later.view disk) =
          some "old".toUTF8 := by
  intro old new history more later
  have hallows : (start ["jar"]).Allows (history ++ more) := by
    refine ⟨trivial, trivial, trivial, ?_, trivial⟩
    intro handle hstorage
    obtain rfl : ⟨0, .ofText "lib.jar"⟩ = handle := Storage.archive.inj hstorage
    decide +kernel
  have hmore : ∀ moment ∈ more, moment.2 ≠ .cleanup := by simp [more]
  have hmem : oldJar ∈ ((start ["jar"]).after history).set.locations := by decide +kernel
  have hlocations : ∀ other ∈ later.locations,
      other.storage.isPackaged = true ∧ other.root.steps = oldJar.root.steps := by decide +kernel
  obtain ⟨-, -, hothers, htried, -⟩ :=
    locations_share_archives ["jar"] hallows hmore oldJar hmem _ rfl
  refine ⟨hallows, hmore, by decide +kernel, ?_⟩
  intro other hother
  obtain ⟨hpackaged, hroot⟩ := hlocations other hother
  obtain ⟨hstorage, -, halike⟩ := hothers other hother hpackaged hroot
  refine ⟨hstorage, ?_⟩
  intro disk
  have hopened : ((start ["jar"]).after history).set.archives.HasTried ⟨0, .ofText "lib.jar"⟩ := by
    rcases htried with htried | ⟨disk, hpushed⟩
    · exact htried
    · simp [history] at hpushed
  rw [← (halike hopened old disk).read]
  decide +kernel

end Session
end LocationSet
end ClasspathLookup
