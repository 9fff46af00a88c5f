import ClasspathLookup.Proofs.Histories

/-!
# Archives are indexed from their entries

The content of an archive is never made up: a handle shows what was indexed from the entries that
stood in the file when it was first opened, or else those that stand there now. This holds from the
start and is kept by all that can be done with a set or an environment, so what is true of every
index is true of every archive that a query sees.
-/

namespace ClasspathLookup

/-- Every archive in sight was indexed from its entries. -/
def View.IsIndexed (view : View) : Prop :=
  ∀ handle archive, view.archive? handle = some archive → ∃ entries, archive = .ofEntries entries

/-- The storage is a folder tree, or its archive was indexed from its entries. -/
def Storage.IsIndexed (storage : Storage) (view : View) : Prop :=
  ∀ handle archive, storage = .archive handle → view.archive? handle = some archive →
    ∃ entries, archive = .ofEntries entries

theorem View.IsIndexed.storage {view : View} (h : view.IsIndexed) (storage : Storage) :
    storage.IsIndexed view :=
  fun handle archive _ => h handle archive

theorem Storage.isIndexed_folder (root : Path) (view : View) :
    (Storage.folder root).IsIndexed view :=
  fun _ _ hstorage => Storage.noConfusion hstorage

theorem Archive.eq_ofEntries_of_open? {disk : Disk} {path : Path} {archive : Archive}
    (h : Archive.open? disk path = some archive) : ∃ entries, archive = .ofEntries entries := by
  unfold Archive.open? at h
  split at h
  · exact ⟨_, (Option.some.inj h).symm⟩
  · cases h

namespace ArchiveCache

variable {cache later : ArchiveCache} {disk : Disk}

/-- Every archive that was opened with success was indexed from its entries. -/
def IsIndexed (cache : ArchiveCache) : Prop :=
  ∀ handle archive, cache.outcomes.find? handle = some (some archive) →
    ∃ entries, archive = .ofEntries entries

theorem isIndexed_empty : empty.IsIndexed := by
  intro handle archive hfind
  cases hfind

/-- What is opened only now is indexed as well. -/
theorem IsIndexed.content? (h : cache.IsIndexed) {handle : ArchiveHandle} {archive : Archive}
    (hcontent : cache.content? disk handle = some archive) :
    ∃ entries, archive = .ofEntries entries := by
  unfold ArchiveCache.content? at hcontent
  cases hfind : cache.outcomes.find? handle with
  | none =>
    rw [hfind, Option.getD_none] at hcontent
    exact Archive.eq_ofEntries_of_open? hcontent
  | some outcome =>
    rw [hfind, Option.getD_some] at hcontent
    exact h handle archive (hfind.trans (congrArg some hcontent))

theorem IsIndexed.opened (h : cache.IsIndexed) (disk : Disk) (handle : ArchiveHandle) :
    (cache.opened disk handle).IsIndexed := by
  intro other archive hfind
  by_cases hother : other = handle
  · rw [hother, find?_opened_self, Option.some.injEq] at hfind
    exact h.content? hfind
  · unfold ArchiveCache.opened at hfind
    rw [Keyed.find?_insertNew, if_neg hother] at hfind
    exact h other archive hfind

theorem Grows.isIndexed (h : cache.Grows disk later) (hindexed : cache.IsIndexed) :
    later.IsIndexed := by
  induction h with
  | refl => exact hindexed
  | @handle later path _ ih =>
    intro handle archive hfind
    rw [outcomes_handle] at hfind
    exact ih handle archive hfind
  | opened handle _ ih => exact ih.opened disk handle

end ArchiveCache

namespace LocationSet

variable {set : LocationSet}

theorem isIndexed_view (h : set.archives.IsIndexed) (disk : Disk) : (set.view disk).IsIndexed :=
  fun _ _ => h.content?

/-- Whatever a set is offered and asked on whichever disks, its archives are indexed. -/
theorem Run.isIndexed {disks : Disk → Prop} {start : LocationSet} {offered : List Location}
    (h : Run disks start offered set) (hstart : start.archives.IsIndexed) :
    set.archives.IsIndexed := by
  induction h with
  | start => exact hstart
  | push location _ ih =>
    rw [archives_push]
    exact ih
  | @merge _ later disk roots _ _ ih => exact (later.grows_merge disk roots).archives.isIndexed ih
  | @handle _ later disk path _ _ ih =>
    exact (grows_handle disk later path).archives.isIndexed ih
  | @query _ later disk _ lookup _ _ ih =>
    exact (later.grows_run disk lookup).archives.isIndexed ih

theorem isIndexed_build (disk : Disk) (roots : List ClasspathRoot) (extensions : List String) :
    (build disk roots extensions).archives.IsIndexed := by
  have hrun : Run (· = disk) { archiveExtensions := extensions } _ (build disk roots extensions) :=
    .merge roots rfl .start
  exact hrun.isIndexed ArchiveCache.isIndexed_empty

end LocationSet

/-- Whatever is done with an environment, its archives are indexed. -/
theorem Environment.isIndexed_after {environment : Environment}
    (h : environment.locations.archives.IsIndexed) (history : History) :
    (environment.after history).locations.archives.IsIndexed := by
  refine after_preserves (I := fun later => later.locations.archives.IsIndexed) ?_ h history
  intro later disk action hlater
  cases action with
  | ask query =>
    exact (later.locations.grows_run disk (later.lookup query)).archives.isIndexed hlater
  | addProject projects project =>
    rw [act_addProject]
    exact (later.locations.grows_merge disk _).archives.isIndexed hlater
  | cleanup => exact hlater

end ClasspathLookup
