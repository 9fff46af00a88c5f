import ClasspathLookup.LocationSet

/-!
# Growth of a location set

Whatever is done to a set on one disk, handles, outcomes of opening and keys are only ever added,
and what queries see stays the same. A root therefore stands for the same location for good once it
was located: its archive is found under the same handle and is not opened again. Merging the root a
second time changes nothing.
-/

namespace ClasspathLookup

/-- What the use of a cache on one disk can make of it. -/
inductive ArchiveCache.Grows (disk : Disk) (cache : ArchiveCache) : ArchiveCache → Prop
  | refl : Grows disk cache cache
  | handle {later : ArchiveCache} (path : Path) (h : Grows disk cache later) :
      Grows disk cache (later.handle disk path).2
  | opened {later : ArchiveCache} (handle : ArchiveHandle) (h : Grows disk cache later) :
      Grows disk cache (later.opened disk handle)

/-- The second cache knows at least the handles and the outcomes of the first. -/
structure ArchiveCache.Keeps (cache later : ArchiveCache) : Prop where
  handles : ∀ key handle, cache.handles.find? key = some handle →
    later.handles.find? key = some handle
  outcomes : ∀ handle outcome, cache.outcomes.find? handle = some outcome →
    later.outcomes.find? handle = some outcome

/-- Every handle is kept under the steps of its own path. -/
def ArchiveCache.IsFiled (cache : ArchiveCache) : Prop :=
  ∀ key handle, cache.handles.find? key = some handle → handle.path.steps = key

/-- What the name of a root and the disk say of it before any archive is opened: the location, if
there is one, or how to make it of an archive. -/
inductive RootPlan where
  | settled (location : Option Location)
  | archived (make : ArchiveHandle → Location)

def ClasspathRoot.plan (root : ClasspathRoot) (disk : Disk) (archiveExtensions : List String) :
    RootPlan :=
  if root.path.namesImage then
    if disk.isFolder root.path then
      .settled (some (.image ⟨.folder root.path, root.annotations⟩))
    else .archived fun handle => .image ⟨.archive handle, root.annotations⟩
  else if root.path.namesArchive archiveExtensions then
    .archived fun handle => .archive ⟨handle, root.rules, root.annotations, root.scope⟩
  else if disk.isFolder root.path then
    match root.role with
    | .source => .settled (some (.source ⟨root.path, root.inclusion, root.exclusion, root.scope⟩))
    | .binary => .settled (some (.classes ⟨root.path, root.rules, root.scope⟩))
  else .settled none

/-- The handle of the location has the property, if it is in an archive. -/
def Location.OnHandle (P : ArchiveHandle → Prop) (location : Location) : Prop :=
  ∀ handle, location.storage = .archive handle → P handle

/-- A location that needs no archive is a folder, and any other one is in the archive that it is made
of. -/
def RootPlan.IsAt (path : Path) : RootPlan → Prop
  | .settled location => ∀ found, location = some found → found.storage = .folder path
  | .archived make => ∀ handle, (make handle).storage = .archive handle

theorem ClasspathRoot.plan_isAt (root : ClasspathRoot) (disk : Disk)
    (archiveExtensions : List String) : (root.plan disk archiveExtensions).IsAt root.path := by
  unfold plan
  split
  · split <;> simp [RootPlan.IsAt, Location.storage]
  · split
    · simp [RootPlan.IsAt, Location.storage]
    · split
      · split <;> simp [RootPlan.IsAt, Location.storage]
      · simp [RootPlan.IsAt]

namespace ArchiveCache

variable {cache later : ArchiveCache} {disk : Disk} {path : Path}

theorem Grows.trans {last : ArchiveCache} (h : cache.Grows disk later)
    (h' : later.Grows disk last) : cache.Grows disk last := by
  induction h' with
  | refl => exact h
  | handle path _ ih => exact ih.handle path
  | opened handle _ ih => exact ih.opened handle

theorem Keeps.refl (cache : ArchiveCache) : cache.Keeps cache :=
  ⟨fun _ _ h => h, fun _ _ h => h⟩

theorem Keeps.trans {last : ArchiveCache} (h : cache.Keeps later) (h' : later.Keeps last) :
    cache.Keeps last :=
  ⟨fun key handle hfind => h'.handles key handle (h.handles key handle hfind),
    fun handle outcome hfind => h'.outcomes handle outcome (h.outcomes handle outcome hfind)⟩

theorem handle_fst (cache : ArchiveCache) (disk : Disk) (path : Path) :
    (cache.handle disk path).1 =
      (cache.handles.find? (keyPath disk path).steps).getD ⟨cache.issued, keyPath disk path⟩ := by
  unfold handle
  dsimp only
  cases cache.handles.find? (keyPath disk path).steps <;> rfl

theorem find?_handle (cache : ArchiveCache) (disk : Disk) (path : Path) (key : List String) :
    (cache.handle disk path).2.handles.find? key =
      if key = (keyPath disk path).steps then some (cache.handle disk path).1
      else cache.handles.find? key := by
  unfold handle
  dsimp only
  cases hfind : cache.handles.find? (keyPath disk path).steps with
  | some handle =>
    by_cases hkey : key = (keyPath disk path).steps
    · rw [if_pos hkey, hkey, hfind]
    · rw [if_neg hkey]
  | none => exact Keyed.find?_insert ..

theorem outcomes_handle (cache : ArchiveCache) (disk : Disk) (path : Path) :
    (cache.handle disk path).2.outcomes = cache.outcomes := by
  unfold handle
  dsimp only
  cases cache.handles.find? (keyPath disk path).steps <;> rfl

theorem find?_opened_self (cache : ArchiveCache) (disk : Disk) (handle : ArchiveHandle) :
    (cache.opened disk handle).outcomes.find? handle = some (cache.content? disk handle) := by
  rw [opened, Keyed.find?_insertNew, if_pos rfl, content?]
  cases cache.outcomes.find? handle <;> rfl

theorem keeps_handle (cache : ArchiveCache) (disk : Disk) (path : Path) :
    cache.Keeps (cache.handle disk path).2 := by
  constructor
  · intro key handle h
    rw [find?_handle, handle_fst]
    split
    · rename_i hkey
      rw [← hkey, h, Option.getD_some]
    · exact h
  · intro handle outcome h
    rwa [outcomes_handle]

theorem Grows.keeps (h : cache.Grows disk later) : cache.Keeps later := by
  induction h with
  | refl => exact .refl cache
  | handle path _ ih => exact ih.trans (keeps_handle _ disk path)
  | opened handle _ ih =>
    exact ih.trans ⟨fun _ _ h => h, fun _ _ h => Keyed.find?_insertNew_of_some h handle _⟩

/-- A handle that is new has not been opened, and an opened one shows what it did before. -/
theorem Grows.content? (h : cache.Grows disk later) :
    later.content? disk = cache.content? disk := by
  induction h with
  | refl => rfl
  | @handle later path _ ih =>
    funext handle
    rw [← ih, ArchiveCache.content?, outcomes_handle, ArchiveCache.content?]
  | opened handle _ ih => rw [content?_opened, ih]

theorem IsFiled.handle (h : cache.IsFiled) (disk : Disk) (path : Path) :
    (cache.handle disk path).2.IsFiled := by
  unfold ArchiveCache.handle
  dsimp only
  split
  · exact h
  · intro key handle hfind
    rw [Keyed.find?_insert] at hfind
    split at hfind
    · rename_i hkey
      rw [← Option.some.inj hfind, hkey]
    · exact h key handle hfind

theorem Grows.isFiled (h : cache.Grows disk later) (hfiled : cache.IsFiled) : later.IsFiled := by
  induction h with
  | refl => exact hfiled
  | handle path _ ih => exact ih.handle disk path
  | opened handle _ ih => exact ih

theorem handle_of_find? {handle : ArchiveHandle}
    (h : cache.handles.find? (keyPath disk path).steps = some handle) :
    cache.handle disk path = (handle, cache) := by
  unfold ArchiveCache.handle
  dsimp only
  rw [h]

/-- A handle that was given out and opened is given out again, as it was opened. -/
theorem handle_of_keeps {handle : ArchiveHandle} {opened : ArchiveCache}
    (h : cache.handle disk path = (handle, opened))
    (hkeeps : (opened.opened disk handle).Keeps later) :
    later.handle disk path = (handle, later) ∧
      later.content? disk handle = opened.content? disk handle ∧
      later.opened disk handle = later := by
  have hhandle : opened.handles.find? (keyPath disk path).steps = some handle := by
    have hfind := cache.find?_handle disk path (keyPath disk path).steps
    rwa [if_pos rfl, h] at hfind
  have houtcome := opened.find?_opened_self disk handle
  have hfound := hkeeps.outcomes _ _ houtcome
  refine ⟨handle_of_find? (hkeeps.handles _ _ hhandle), ?_, ?_⟩
  · unfold content?
    rw [hfound]
    rfl
  · unfold ArchiveCache.opened Keyed.insertNew
    rw [if_pos (by simp [hfound])]

end ArchiveCache

namespace LocationSet

/-- The second set has at least the archives and the keys of the first, and queries on the disk see
the same in both. -/
structure Grows (disk : Disk) (set later : LocationSet) : Prop where
  archives : set.archives.Grows disk later.archives
  modules : (later.view disk).explodedModules = (set.view disk).explodedModules
  extensions : later.archiveExtensions = set.archiveExtensions
  contains : ∀ key, set.contains key = true → later.contains key = true

/-- A root is known when locating it again changes nothing and its location is in the set. -/
structure Knows (set : LocationSet) (disk : Disk) (root : ClasspathRoot) : Prop where
  located : (set.locate? disk root).2 = set
  contains : ∀ location, (set.locate? disk root).1 = some location →
    set.contains location.key = true

/-- Only an archive that a root is named as is opened to locate it. -/
theorem locate?_eq (set : LocationSet) (disk : Disk) (root : ClasspathRoot) :
    set.locate? disk root =
      match root.plan disk set.archiveExtensions with
      | .settled location => (location, set)
      | .archived make =>
        ((set.readable? disk root.path).1.map make, (set.readable? disk root.path).2) := by
  unfold locate? ClasspathRoot.plan
  split
  · split <;> rfl
  · split
    · rfl
    · split
      · cases root.role <;> rfl
      · rfl

/-- What is found readable is the handle of the path, which is open from then on. -/
theorem handle_of_readable? {set : LocationSet} {disk : Disk} {path : Path}
    {handle : ArchiveHandle} (h : (set.readable? disk path).1 = some handle) :
    handle = (set.archives.handle disk path).1 ∧
      (set.archives.handle disk path).2.isReadable disk handle = true ∧
      (set.readable? disk path).2.archives =
        (set.archives.handle disk path).2.opened disk handle := by
  unfold readable? at h ⊢
  split at h
  · rename_i hfile
    obtain ⟨hreadable, hhandle⟩ := Option.ite_none_right_eq_some.1 h
    obtain rfl := Option.some.inj hhandle
    rw [if_pos hfile]
    exact ⟨rfl, hreadable, rfl⟩
  · cases h

theorem isSome_readable? (set : LocationSet) (disk : Disk) (path : Path) :
    (set.readable? disk path).1.isSome = (disk.isFile path &&
      (set.archives.handle disk path).2.isReadable disk (set.archives.handle disk path).1) := by
  unfold readable?
  split
  · rename_i hfile
    rw [hfile, Bool.true_and]
    exact Bool.eq_iff_iff.2 Option.isSome_ite
  · rename_i hfile
    simp [hfile]

/-- The handle of a new location is one that was found readable. -/
theorem onHandle_of_locate? {set : LocationSet} {disk : Disk} {root : ClasspathRoot}
    {location : Location} (h : (set.locate? disk root).1 = some location) :
    location.OnHandle fun handle =>
      set.readable? disk root.path = (some handle, (set.locate? disk root).2) := by
  have hplan := root.plan_isAt disk set.archiveExtensions
  rw [locate?_eq] at h ⊢
  intro handle hstorage
  cases hkind : root.plan disk set.archiveExtensions with
  | settled found =>
    rw [hkind] at h hplan
    rw [hplan location h] at hstorage
    cases hstorage
  | archived make =>
    rw [hkind] at h hplan
    obtain ⟨found, hfound, rfl⟩ := Option.map_eq_some_iff.1 h
    rw [hplan found] at hstorage
    obtain rfl : found = handle := Storage.archive.inj hstorage
    exact Prod.ext hfound rfl

theorem archives_push (set : LocationSet) (location : Location) :
    (set.push location).2.archives = set.archives := by
  unfold push
  split <;> rfl

theorem mem_push {set : LocationSet} {location other : Location}
    (h : other ∈ (set.push location).2.locations) : other ∈ set.locations ∨ other = location := by
  unfold push at h
  split at h
  · exact Or.inl h
  · simpa using h

section Merge

variable {set : LocationSet} {disk : Disk} {root : ClasspathRoot}

theorem merge_cons_of_none (h : (set.locate? disk root).1 = none) (roots : List ClasspathRoot) :
    set.merge disk (root :: roots) = (set.locate? disk root).2.merge disk roots := by
  simp only [merge, h]

theorem merge_cons_of_some {location : Location} (h : (set.locate? disk root).1 = some location)
    (roots : List ClasspathRoot) :
    set.merge disk (root :: roots) =
      let (isNew, pushed) := (set.locate? disk root).2.push location
      (isNew.toNat + (pushed.merge disk roots).1, (pushed.merge disk roots).2) := by
  simp only [merge, h]

/-- What locating and pushing preserve is preserved by a merge. -/
theorem merge_preserves {I : LocationSet → Prop}
    (hlocate : ∀ {set} root, I set → I (set.locate? disk root).2)
    (hpush : ∀ {set root location}, I set → (set.locate? disk root).1 = some location →
      I ((set.locate? disk root).2.push location).2)
    (h : I set) (roots : List ClasspathRoot) : I (set.merge disk roots).2 := by
  induction roots generalizing set with
  | nil => exact h
  | cons root roots ih =>
    cases hlocation : (set.locate? disk root).1 with
    | none =>
      rw [merge_cons_of_none hlocation]
      exact ih (hlocate root h)
    | some location =>
      rw [merge_cons_of_some hlocation]
      exact ih (hpush h hlocation)

/-- Merging goes on where it stopped. -/
theorem merge_append (set : LocationSet) (disk : Disk) (roots others : List ClasspathRoot) :
    (set.merge disk (roots ++ others)).2 = ((set.merge disk roots).2.merge disk others).2 := by
  induction roots generalizing set with
  | nil => rfl
  | cons root roots ih =>
    rw [List.cons_append]
    cases hlocation : (set.locate? disk root).1 with
    | none => rw [merge_cons_of_none hlocation, merge_cons_of_none hlocation, ih]
    | some location => rw [merge_cons_of_some hlocation, merge_cons_of_some hlocation, ih]

end Merge

section Growth

variable {set later : LocationSet} {disk : Disk}

theorem Grows.refl (disk : Disk) (set : LocationSet) : Grows disk set set :=
  ⟨.refl, rfl, rfl, fun _ h => h⟩

theorem Grows.trans {last : LocationSet} (h : Grows disk set later) (h' : Grows disk later last) :
    Grows disk set last :=
  ⟨h.archives.trans h'.archives, h'.modules.trans h.modules, h'.extensions.trans h.extensions,
    fun key hkey => h'.contains key (h.contains key hkey)⟩

theorem Grows.view (h : Grows disk set later) : later.view disk = set.view disk := by
  have harchives : (later.view disk).archive? = (set.view disk).archive? := h.archives.content?
  have hmodules := h.modules
  simp only [LocationSet.view, View.mk.injEq, true_and] at harchives hmodules ⊢
  exact ⟨harchives, hmodules⟩

theorem grows_push (disk : Disk) (set : LocationSet) (location : Location) :
    Grows disk set (set.push location).2 := by
  unfold push
  split
  · exact .refl disk set
  · refine ⟨.refl, rfl, rfl, ?_⟩
    intro key hkey
    rw [contains, List.any_append, Bool.or_eq_true]
    exact Or.inl hkey

theorem contains_push (set : LocationSet) (location : Location) :
    (set.push location).2.contains location.key = true := by
  unfold push
  split
  · rename_i hcontains
    exact hcontains
  · simp [contains]

theorem grows_handle (disk : Disk) (set : LocationSet) (path : Path) :
    Grows disk set (set.handle disk path).2 :=
  ⟨.handle path .refl, rfl, rfl, fun _ h => h⟩

theorem grows_readable? (set : LocationSet) (disk : Disk) (path : Path) :
    Grows disk set (set.readable? disk path).2 := by
  unfold readable?
  split
  · exact ⟨.opened _ (.handle path .refl), rfl, rfl, fun _ h => h⟩
  · exact .refl disk set

theorem grows_locate? (set : LocationSet) (disk : Disk) (root : ClasspathRoot) :
    Grows disk set (set.locate? disk root).2 := by
  rw [locate?_eq]
  cases root.plan disk set.archiveExtensions with
  | settled location => exact .refl disk set
  | archived make => exact set.grows_readable? disk root.path

theorem grows_settle (set : LocationSet) (disk : Disk) (need : Need) :
    Grows disk set (settle disk set need) := by
  have hmodules := congrArg View.explodedModules (set.view_settle disk need)
  cases need with
  | archive handle => exact ⟨.opened handle .refl, hmodules, rfl, fun _ h => h⟩
  | explodedModules image => exact ⟨.refl, hmodules, rfl, fun _ h => h⟩

theorem grows_foldl_settle (set : LocationSet) (disk : Disk) (needs : List Need) :
    Grows disk set (needs.foldl (settle disk) set) := by
  induction needs generalizing set with
  | nil => exact .refl disk set
  | cons need needs ih => exact (set.grows_settle disk need).trans (ih _)

theorem grows_run {α : Type} (set : LocationSet) (disk : Disk) (lookup : Lookup α) :
    Grows disk set (set.run disk lookup).2 :=
  set.grows_foldl_settle disk _

theorem grows_merge (set : LocationSet) (disk : Disk) (roots : List ClasspathRoot) :
    Grows disk set (set.merge disk roots).2 := by
  apply merge_preserves _ _ (.refl disk set)
  · intro later root h
    exact h.trans (later.grows_locate? disk root)
  · intro later root location h _
    exact (h.trans (later.grows_locate? disk root)).trans (grows_push disk _ location)

/-- An archive that was tried once is found again with the same outcome. -/
theorem readable?_of_grows {path : Path}
    (h : (set.readable? disk path).2.archives.Keeps later.archives) :
    later.readable? disk path = ((set.readable? disk path).1, later) := by
  unfold readable? at h ⊢
  by_cases hfile : disk.isFile path = true
  · rw [if_pos hfile] at h ⊢
    obtain ⟨hhandle, hcontent, hopened⟩ := ArchiveCache.handle_of_keeps rfl h
    rw [if_pos hfile]
    simp only [LocationSet.handle, hhandle, hopened, ArchiveCache.isReadable, hcontent]
    rfl
  · rw [if_neg hfile, if_neg hfile]

theorem locate?_of_grows {root : ClasspathRoot}
    (h : Grows disk (set.locate? disk root).2 later) :
    later.locate? disk root = ((set.locate? disk root).1, later) := by
  have hextensions : later.archiveExtensions = set.archiveExtensions :=
    h.extensions.trans (set.grows_locate? disk root).extensions
  have harchives := h.archives.keeps
  rw [locate?_eq] at harchives
  rw [locate?_eq, locate?_eq, hextensions]
  cases hplan : root.plan disk set.archiveExtensions with
  | settled location => rfl
  | archived make =>
    rw [hplan] at harchives
    rw [readable?_of_grows harchives]

end Growth

/-- A root stays known as long as the disk stays as it is. -/
theorem Knows.of_grows {set later : LocationSet} {disk : Disk} {root : ClasspathRoot}
    (h : set.Knows disk root) (hgrows : Grows disk set later) : later.Knows disk root := by
  have hagain : later.locate? disk root = ((set.locate? disk root).1, later) :=
    locate?_of_grows (h.located.symm ▸ hgrows)
  refine ⟨by rw [hagain], ?_⟩
  intro location hlocation
  rw [hagain] at hlocation
  exact hgrows.contains _ (h.contains location hlocation)

theorem knows_of_merge (set : LocationSet) (disk : Disk) (roots : List ClasspathRoot) :
    ∀ root ∈ roots, (set.merge disk roots).2.Knows disk root := by
  induction roots generalizing set with
  | nil => simp
  | cons first roots ih =>
    have hfirst : (set.merge disk (first :: roots)).2.Knows disk first := by
      cases hlocation : (set.locate? disk first).1 with
      | none =>
        rw [merge_cons_of_none hlocation]
        have hagain := locate?_of_grows ((set.locate? disk first).2.grows_merge disk roots)
        exact ⟨by rw [hagain], by simp [hagain, hlocation]⟩
      | some location =>
        rw [merge_cons_of_some hlocation]
        have hpushed := grows_merge ((set.locate? disk first).2.push location).2 disk roots
        have hagain := locate?_of_grows ((grows_push disk _ location).trans hpushed)
        refine ⟨by rw [hagain], ?_⟩
        intro other hother
        obtain rfl : location = other := by
          rw [hagain, hlocation] at hother
          exact Option.some.inj hother
        exact hpushed.contains _ (contains_push _ location)
    intro root hroot
    rcases List.mem_cons.1 hroot with rfl | hroot
    · exact hfirst
    · cases hlocation : (set.locate? disk first).1 with
      | none =>
        rw [merge_cons_of_none hlocation]
        exact ih _ root hroot
      | some location =>
        rw [merge_cons_of_some hlocation]
        exact ih _ root hroot

/-- Known roots are merged without any effect. -/
theorem merge_of_knows {set : LocationSet} {disk : Disk} {roots : List ClasspathRoot}
    (h : ∀ root ∈ roots, set.Knows disk root) : set.merge disk roots = (0, set) := by
  induction roots with
  | nil => rfl
  | cons root roots ih =>
    have hroot := h root List.mem_cons_self
    have hrest := ih fun other hother => h other (List.mem_cons_of_mem _ hother)
    cases hlocation : (set.locate? disk root).1 with
    | none => rw [merge_cons_of_none hlocation, hroot.located, hrest]
    | some location =>
      have hpush : set.push location = (false, set) := by
        rw [push, if_pos (hroot.contains location hlocation)]
      rw [merge_cons_of_some hlocation, hroot.located, hpush]
      simp [hrest]

end LocationSet

end ClasspathLookup
