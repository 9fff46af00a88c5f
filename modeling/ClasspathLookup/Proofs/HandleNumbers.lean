import ClasspathLookup.Proofs.HandleNames

/-!
# Numbers of handles

A cache numbers its handles in the order in which it issues them, and a cleanup does not start that
anew. So all handles that a set holds, has given out or has tried to open are told apart from those
that it will issue. A query opens archives of the locations alone, and thus no handle that was not
issued.
-/

namespace ClasspathLookup

/-- Handles with a property stand for themselves. -/
def Renaming.only (P : ArchiveHandle → Prop) : Renaming where
  names handle other := handle = other ∧ P handle
  path_eq h := congrArg ArchiveHandle.path h.1
  eq_iff h h' := by rw [h.1, h'.1]

namespace Location

variable {P : ArchiveHandle → Prop} {location : Location}

theorem OnHandle.imp {Q : ArchiveHandle → Prop} (h : location.OnHandle P)
    (hpq : ∀ handle, P handle → Q handle) : location.OnHandle Q :=
  fun handle hstorage => hpq handle (h handle hstorage)

theorem OnHandle.renamed (h : location.OnHandle P) :
    Location.Renamed (.only P) location location := by
  cases location with
  | source folder => exact .source folder
  | classes folder => exact .classes folder
  | archive archive => exact .archive _ _ _ ⟨rfl, h _ rfl⟩
  | image image =>
    obtain ⟨storage, annotations⟩ := image
    cases storage with
    | folder root => exact .image annotations (.folder root)
    | archive handle => exact .image annotations (.archive ⟨rfl, h handle rfl⟩)

end Location

/-- A query asks for archives of the locations alone. -/
theorem Environment.onHandle_of_mem_needs {P : ArchiveHandle → Prop} {environment : Environment}
    (h : ∀ location ∈ environment.locations.locations, location.OnHandle P) (query : Query)
    (view : View) {handle : ArchiveHandle}
    (hmem : Need.archive handle ∈ (environment.lookup query).needs view) : P handle := by
  have hself : environment.Renamed (.only P) environment :=
    ⟨rfl, rfl, List.forall₂_same.2 fun location hlocation => (h location hlocation).renamed⟩
  have hview : View.Renamed (.only P) view view :=
    ⟨rfl, fun hnames => congrArg view.archive? hnames.1, rfl⟩
  have hneeds := (hself.lookup query hview).2
  cases List.forall₂_same.1 hneeds _ hmem with
  | archive hnames => exact hnames.2

namespace ArchiveCache

/-- All handles that are given out or were opened have been issued. -/
structure Numbered (cache : ArchiveCache) : Prop where
  handles : ∀ key handle, cache.handles.find? key = some handle → handle.serial < cache.issued
  outcomes : ∀ handle outcome, cache.outcomes.find? handle = some outcome →
    handle.serial < cache.issued

variable {cache : ArchiveCache}

theorem issued_le_handle (cache : ArchiveCache) (disk : Disk) (path : Path) :
    cache.issued ≤ (cache.handle disk path).2.issued := by
  unfold handle
  dsimp only
  split
  · exact Nat.le_refl _
  · exact Nat.le_succ _

theorem Numbered.handle (h : cache.Numbered) (disk : Disk) (path : Path) :
    (cache.handle disk path).1.serial < (cache.handle disk path).2.issued ∧
      (cache.handle disk path).2.Numbered := by
  unfold ArchiveCache.handle
  dsimp only
  split
  · rename_i found hfind
    exact ⟨h.handles _ found hfind, h⟩
  · refine ⟨Nat.lt_succ_self _, ?_, ?_⟩
    · intro key handle hfind
      rw [Keyed.find?_insert] at hfind
      split at hfind
      · rw [← Option.some.inj hfind]
        exact Nat.lt_succ_self _
      · exact Nat.lt_succ_of_lt (h.handles key handle hfind)
    · intro handle outcome hfind
      exact Nat.lt_succ_of_lt (h.outcomes handle outcome hfind)

theorem Numbered.opened (h : cache.Numbered) (disk : Disk) {handle : ArchiveHandle}
    (hissued : handle.serial < cache.issued) : (cache.opened disk handle).Numbered := by
  refine ⟨h.handles, ?_⟩
  intro other outcome hfind
  by_cases hother : other = handle
  · rw [hother]
    exact hissued
  · unfold ArchiveCache.opened at hfind
    rw [Keyed.find?_insertNew, if_neg hother] at hfind
    exact h.outcomes other outcome hfind

theorem Numbered.clear (h : cache.Numbered) : cache.clear.Numbered :=
  ⟨by simp [ArchiveCache.clear], h.outcomes⟩

end ArchiveCache

namespace LocationSet

/-- The handles of the locations have been issued by the cache as well. -/
structure Numbered (set : LocationSet) : Prop where
  archives : set.archives.Numbered
  locations : ∀ location ∈ set.locations,
    location.OnHandle fun handle => handle.serial < set.archives.issued

namespace Numbered

variable {set : LocationSet} {disk : Disk}

theorem handle (h : set.Numbered) (disk : Disk) (path : Path) : (set.handle disk path).2.Numbered :=
  ⟨(h.archives.handle disk path).2, fun location hmem => (h.locations location hmem).imp
    fun _ hissued => Nat.lt_of_lt_of_le hissued (set.archives.issued_le_handle disk path)⟩

theorem opened (h : set.Numbered) (disk : Disk) {handle : ArchiveHandle}
    (hissued : handle.serial < set.archives.issued) :
    ({ set with archives := set.archives.opened disk handle } : LocationSet).Numbered :=
  ⟨h.archives.opened disk hissued, h.locations⟩

theorem readable? (h : set.Numbered) (disk : Disk) (path : Path) :
    (set.readable? disk path).2.Numbered ∧
      ∀ handle, (set.readable? disk path).1 = some handle →
        handle.serial < (set.readable? disk path).2.archives.issued := by
  constructor
  · unfold LocationSet.readable?
    split
    · exact (h.handle disk path).opened disk (h.archives.handle disk path).1
    · exact h
  · intro handle hfound
    obtain ⟨rfl, -, harchives⟩ := handle_of_readable? hfound
    rw [harchives]
    exact (h.archives.handle disk path).1

theorem locate? (h : set.Numbered) (disk : Disk) (root : ClasspathRoot) :
    (set.locate? disk root).2.Numbered := by
  rw [locate?_eq]
  cases root.plan disk set.archiveExtensions with
  | settled location => exact h
  | archived make => exact (h.readable? disk root.path).1

theorem of_locate? (h : set.Numbered) {root : ClasspathRoot} {location : Location}
    (hlocation : (set.locate? disk root).1 = some location) :
    location.OnHandle fun handle =>
      handle.serial < (set.locate? disk root).2.archives.issued := by
  intro handle hstorage
  have hreadable := onHandle_of_locate? hlocation handle hstorage
  rw [← congrArg Prod.snd hreadable]
  exact (h.readable? disk root.path).2 handle (congrArg Prod.fst hreadable)

theorem push (h : set.Numbered) {location : Location}
    (hlocation : location.OnHandle fun handle => handle.serial < set.archives.issued) :
    (set.push location).2.Numbered := by
  have harchives := set.archives_push location
  refine ⟨by rw [harchives]; exact h.archives, ?_⟩
  intro other hother
  rw [harchives]
  rcases mem_push hother with hmem | rfl
  · exact h.locations other hmem
  · exact hlocation

theorem merge (h : set.Numbered) (disk : Disk) (roots : List ClasspathRoot) :
    (set.merge disk roots).2.Numbered := by
  apply merge_preserves _ _ h
  · intro set root h
    exact h.locate? disk root
  · intro set root location h hlocation
    exact (h.locate? disk root).push (h.of_locate? hlocation)

theorem build (disk : Disk) (roots : List ClasspathRoot) (extensions : List String) :
    (LocationSet.build disk roots extensions).Numbered :=
  merge ⟨⟨by simp [ArchiveCache.empty], by simp [ArchiveCache.empty]⟩, by simp⟩ disk roots

theorem foldl_settle (h : set.Numbered) (disk : Disk) {needs : List Need}
    (hneeds : ∀ handle, Need.archive handle ∈ needs → handle.serial < set.archives.issued) :
    (needs.foldl (settle disk) set).Numbered := by
  induction needs generalizing set with
  | nil => exact h
  | cons need needs ih =>
    have hrest (handle : ArchiveHandle) (hmem : Need.archive handle ∈ needs) :
        handle.serial < set.archives.issued := hneeds handle (List.mem_cons_of_mem _ hmem)
    cases need with
    | archive handle =>
      exact ih (h.opened disk (hneeds handle List.mem_cons_self)) hrest
    | explodedModules image => exact ih ⟨h.archives, h.locations⟩ hrest

theorem cleanup (h : set.Numbered) : set.cleanup.Numbered :=
  ⟨h.archives.clear, by simp [LocationSet.cleanup]⟩

end Numbered

end LocationSet

namespace Environment

variable {environment : Environment}

/-- Whatever is done with an environment, its handles are those that were issued. -/
theorem numbered_after (h : environment.locations.Numbered) (history : History) :
    (environment.after history).locations.Numbered := by
  refine after_preserves (I := fun later => later.locations.Numbered) ?_ h history
  intro later disk action hlater
  cases action with
  | ask query =>
    apply hlater.foldl_settle disk
    intro handle hmem
    exact onHandle_of_mem_needs hlater.locations query _ hmem
  | addProject projects project =>
    rw [act_addProject]
    exact hlater.merge disk _
  | cleanup => exact hlater.cleanup

end Environment

end ClasspathLookup
