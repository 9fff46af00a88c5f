import ClasspathLookup.Proofs.HandleNumbers
import Mathlib.Data.List.Dedup
import Mathlib.Data.List.Induction

/-!
# Histories of an archive cache

Handles are asked for and tried, and the cache is cleared, each time on the disk as it then is. What
comes of it can be told from the history alone. Until the cache is cleared a key has one handle,
which has the path of the first request under that key. The outcome of a handle is what was found
when it was tried for the first time, whatever has happened to the cache and to the disk since.
-/

namespace ClasspathLookup

/-- What is done with a cache and with the handles that it gave out. -/
inductive CacheAction where
  | handle (path : Path)
  | isReadable (handle : ArchiveHandle)
  | isOpen (handle : ArchiveHandle)
  | clear
deriving DecidableEq

/-- What was done one after the other, each time with the disk as it was then. In between anything
may happen to the disk. -/
abbrev CacheHistory := List (Disk × CacheAction)

namespace ArchiveCache

def act (cache : ArchiveCache) (disk : Disk) : CacheAction → ArchiveCache
  | .handle path => (cache.handle disk path).2
  | .isReadable handle => cache.opened disk handle
  | .isOpen _ => cache
  | .clear => cache.clear

/-- The cache at the end of a history. -/
def after (cache : ArchiveCache) (history : CacheHistory) : ArchiveCache :=
  history.foldl (fun cache moment => cache.act moment.1 moment.2) cache

/-- The key under which the handle of a path was asked for. -/
def requestKey (request : Disk × Path) : List String :=
  (keyPath request.1 request.2).steps

/-- What was asked for since the cache was last cleared. -/
def requests (history : CacheHistory) : List (Disk × Path) :=
  history.foldl (fun requests moment =>
    match moment.2 with
    | .handle path => requests ++ [(moment.1, path)]
    | .clear => []
    | .isReadable _ | .isOpen _ => requests) []

/-- The disk on which the handle was tried for the first time. -/
def firstTrial? (history : CacheHistory) (handle : ArchiveHandle) : Option Disk :=
  (history.find? fun moment => moment.2 = .isReadable handle).map Prod.fst

theorem after_append (cache : ArchiveCache) (history more : CacheHistory) :
    cache.after (history ++ more) = (cache.after history).after more :=
  List.foldl_append

theorem after_concat (cache : ArchiveCache) (history : CacheHistory) (disk : Disk)
    (action : CacheAction) :
    cache.after (history ++ [(disk, action)]) = (cache.after history).act disk action :=
  List.foldl_concat ..

section Handles

variable {cache : ArchiveCache} {disk : Disk} {path : Path}

theorem IsFiled.act (h : cache.IsFiled) (disk : Disk) (action : CacheAction) :
    (cache.act disk action).IsFiled := by
  cases action with
  | handle path => exact h.handle disk path
  | isReadable handle => exact h
  | isOpen handle => exact h
  | clear => exact fun key handle hfind => by cases hfind

theorem IsFiled.after (h : cache.IsFiled) (history : CacheHistory) :
    (cache.after history).IsFiled := by
  induction history generalizing cache with
  | nil => exact h
  | cons moment history ih => exact ih (h.act moment.1 moment.2)

theorem isFiled_empty : empty.IsFiled :=
  fun key handle hfind => by cases hfind

/-- A handle that is given out has the key of the request. -/
theorem IsFiled.steps_handle (h : cache.IsFiled) (disk : Disk) (path : Path) :
    (cache.handle disk path).1.path.steps = (keyPath disk path).steps := by
  apply h.handle disk path
  rw [find?_handle, if_pos rfl]

/-- Without a clearing, what was given out stays. -/
theorem keeps_act (cache : ArchiveCache) (disk : Disk) {action : CacheAction}
    (h : action ≠ .clear) : cache.Keeps (cache.act disk action) := by
  cases action with
  | handle path => exact keeps_handle cache disk path
  | isReadable handle =>
    have hgrows : cache.Grows disk (cache.opened disk handle) := .opened handle .refl
    exact hgrows.keeps
  | isOpen handle => exact .refl cache
  | clear => exact absurd rfl h

theorem keeps_after (cache : ArchiveCache) {history : CacheHistory}
    (h : ∀ moment ∈ history, moment.2 ≠ .clear) : cache.Keeps (cache.after history) := by
  induction history generalizing cache with
  | nil => exact .refl cache
  | cons moment history ih =>
    have hrest := ih (cache.act moment.1 moment.2) fun later hlater =>
      h later (List.mem_cons_of_mem _ hlater)
    exact (cache.keeps_act moment.1 (h moment List.mem_cons_self)).trans hrest

/-- All handles that are kept have been issued, none of them among the first. -/
structure IssuedFrom (first : Nat) (cache : ArchiveCache) : Prop where
  first_le : first ≤ cache.issued
  handles : ∀ key handle, cache.handles.find? key = some handle →
    first ≤ handle.serial ∧ handle.serial < cache.issued

theorem issuedFrom_clear (cache : ArchiveCache) : IssuedFrom cache.issued cache.clear :=
  ⟨Nat.le_refl _, fun key handle hfind => by cases hfind⟩

theorem issued_le_after (cache : ArchiveCache) (history : CacheHistory) :
    cache.issued ≤ (cache.after history).issued := by
  induction history generalizing cache with
  | nil => exact Nat.le_refl _
  | cons moment history ih =>
    obtain ⟨disk, action⟩ := moment
    refine Nat.le_trans ?_ (ih (cache.act disk action))
    cases action with
    | handle path => exact cache.issued_le_handle disk path
    | isReadable handle => exact Nat.le_refl _
    | isOpen handle => exact Nat.le_refl _
    | clear => exact Nat.le_refl _

variable {first : Nat}

theorem IssuedFrom.handle (h : IssuedFrom first cache) (disk : Disk) (path : Path) :
    IssuedFrom first (cache.handle disk path).2 := by
  unfold ArchiveCache.handle
  dsimp only
  split
  · exact h
  · refine ⟨Nat.le_succ_of_le h.first_le, ?_⟩
    intro key handle hfind
    rw [Keyed.find?_insert] at hfind
    split at hfind
    · obtain rfl := Option.some.inj hfind
      exact ⟨h.first_le, Nat.lt_succ_self _⟩
    · obtain ⟨hfirst, hissued⟩ := h.handles key handle hfind
      exact ⟨hfirst, Nat.lt_succ_of_lt hissued⟩

theorem IssuedFrom.act (h : IssuedFrom first cache) (disk : Disk) (action : CacheAction) :
    IssuedFrom first (cache.act disk action) := by
  cases action with
  | handle path => exact h.handle disk path
  | isReadable handle => exact ⟨h.first_le, h.handles⟩
  | isOpen handle => exact h
  | clear => exact ⟨h.first_le, fun key handle hfind => by cases hfind⟩

theorem IssuedFrom.after (h : IssuedFrom first cache) (history : CacheHistory) :
    IssuedFrom first (cache.after history) := by
  induction history generalizing cache with
  | nil => exact h
  | cons moment history ih => exact ih (h.act moment.1 moment.2)

/-- A handle that is given out is one of those. -/
theorem IssuedFrom.serial_handle (h : IssuedFrom first cache) (disk : Disk) (path : Path) :
    first ≤ (cache.handle disk path).1.serial ∧
      (cache.handle disk path).1.serial < (cache.handle disk path).2.issued := by
  apply (h.handle disk path).handles (keyPath disk path).steps
  rw [find?_handle, if_pos rfl]

end Handles

theorem requests_concat (history : CacheHistory) (disk : Disk) (path : Path) :
    requests (history ++ [(disk, .handle path)]) = requests history ++ [(disk, path)] :=
  List.foldl_concat ..

/-- A key has a handle when it was asked for since the last clearing, and that handle has the path of
the first request. -/
theorem map_find?_after (history : CacheHistory) (key : List String) :
    ((empty.after history).handles.find? key).map ArchiveHandle.path =
      ((requests history).find? fun request => requestKey request = key).map
        fun request => keyPath request.1 request.2 := by
  induction history using List.reverseRecOn with
  | nil => rfl
  | append_singleton history moment ih =>
    obtain ⟨disk, action⟩ := moment
    rw [after_concat]
    cases action with
    | handle path =>
      rw [requests_concat, List.find?_append, Option.map_or, ← ih, act, find?_handle, handle_fst]
      by_cases hkey : key = (keyPath disk path).steps
      · rw [if_pos hkey, hkey]
        cases (empty.after history).handles.find? (keyPath disk path).steps <;> simp [requestKey]
      · rw [if_neg hkey]
        simp [requestKey, Ne.symm hkey]
    | isReadable handle => rwa [requests, List.foldl_concat]
    | isOpen handle => rwa [requests, List.foldl_concat]
    | clear => rw [requests, List.foldl_concat]; rfl

/-- The cache holds one handle for each key that was asked for since it was last cleared. -/
theorem size_after (history : CacheHistory) :
    (empty.after history).size = ((requests history).map requestKey).dedup.length := by
  have hkeys (key : List String) :
      key ∈ (empty.after history).handles.keys ↔ key ∈ (requests history).map requestKey := by
    have hpath := congrArg Option.isSome (map_find?_after history key)
    rw [Option.isSome_map, Option.isSome_map, Bool.eq_iff_iff, Option.isSome_iff_exists,
      List.find?_isSome] at hpath
    simpa [Keyed.mem_keys_iff] using hpath
  have hperm : (empty.after history).handles.keys.Perm ((requests history).map requestKey).dedup := by
    apply (List.perm_ext_iff_of_nodup (empty.after history).handles.nodup (List.nodup_dedup _)).2
    intro key
    rw [List.mem_dedup]
    exact hkeys key
  rw [size, Keyed.size, ← hperm.length_eq, Keyed.keys, List.length_map]

theorem firstTrial?_append (history more : CacheHistory) (handle : ArchiveHandle) :
    firstTrial? (history ++ more) handle =
      (firstTrial? history handle).or (firstTrial? more handle) := by
  rw [firstTrial?, List.find?_append, Option.map_or]
  rfl

theorem firstTrial?_cons_isReadable (disk : Disk) (handle : ArchiveHandle) (more : CacheHistory) :
    firstTrial? ((disk, .isReadable handle) :: more) handle = some disk := by
  simp [firstTrial?]

theorem firstTrial?_singleton_of_ne {handle : ArchiveHandle} {action : CacheAction} (disk : Disk)
    (h : action ≠ .isReadable handle) : firstTrial? [(disk, action)] handle = none := by
  simp [firstTrial?, h]

/-- The outcome of a handle is what was found when it was first tried. -/
theorem find?_outcomes_after (history : CacheHistory) (handle : ArchiveHandle) :
    (empty.after history).outcomes.find? handle =
      (firstTrial? history handle).map fun disk => Archive.open? disk handle.path := by
  induction history using List.reverseRecOn with
  | nil => rfl
  | append_singleton history moment ih =>
    obtain ⟨disk, action⟩ := moment
    rw [after_concat, firstTrial?_append, Option.map_or, ← ih]
    by_cases htried : action = .isReadable handle
    · subst htried
      rw [firstTrial?_cons_isReadable, act, find?_opened_self, content?]
      cases (empty.after history).outcomes.find? handle <;> rfl
    · rw [firstTrial?_singleton_of_ne disk htried, Option.map_none, Option.or_none]
      cases action with
      | handle path => rw [act, outcomes_handle]
      | isReadable tried =>
        rw [act, opened, Keyed.find?_insertNew, if_neg]
        rintro rfl
        exact htried rfl
      | isOpen asked => rfl
      | clear => rfl

/-- A handle shows what its archive was when it was first tried, or else what it is now. -/
theorem content?_after (history : CacheHistory) (disk : Disk) (handle : ArchiveHandle) :
    (empty.after history).content? disk handle =
      Archive.open? ((firstTrial? history handle).getD disk) handle.path := by
  rw [content?, find?_outcomes_after]
  cases firstTrial? history handle <;> rfl

theorem isReadable_after (history : CacheHistory) (disk : Disk) (handle : ArchiveHandle) :
    (empty.after history).isReadable disk handle =
      (Archive.open? ((firstTrial? history handle).getD disk) handle.path).isSome := by
  rw [isReadable, content?_after]

theorem isOpen_after_iff (history : CacheHistory) (handle : ArchiveHandle) :
    (empty.after history).isOpen handle = true ↔
      ∃ disk, firstTrial? history handle = some disk ∧
        (Archive.open? disk handle.path).isSome = true := by
  rw [isOpen, find?_outcomes_after]
  cases firstTrial? history handle <;> simp

/-- The trial that decided stands somewhere in the history, with none of the handle before it. -/
theorem exists_firstTrial {history : CacheHistory} {handle : ArchiveHandle} {disk : Disk}
    (h : firstTrial? history handle = some disk) :
    ∃ earlier rest, history = earlier ++ (disk, .isReadable handle) :: rest ∧
      firstTrial? earlier handle = none := by
  obtain ⟨⟨_, action⟩, hfind, rfl⟩ := Option.map_eq_some_iff.1 h
  obtain ⟨htried, earlier, rest, rfl, hnone⟩ := List.find?_eq_some_iff_append.1 hfind
  obtain rfl : action = .isReadable handle := by simpa using htried
  refine ⟨earlier, rest, rfl, ?_⟩
  rw [firstTrial?, Option.map_eq_none_iff, List.find?_eq_none]
  intro moment hmem
  simpa using hnone moment hmem

section TwoRequests

variable {cache : ArchiveCache} (hfiled : cache.IsFiled) (hissued : IssuedFrom 0 cache)

include hfiled in
/-- Until the cache is cleared, two requests come to one handle exactly when they have one key. -/
theorem handle_eq_iff_of_keeps {later : ArchiveCache} {disk disk' : Disk} {path path' : Path}
    (hlater : later.IsFiled) (hkeeps : (cache.handle disk path).2.Keeps later) :
    (cache.handle disk path).1 = (later.handle disk' path').1 ↔
      (keyPath disk path).steps = (keyPath disk' path').steps := by
  constructor
  · intro h
    rw [← hfiled.steps_handle, ← hlater.steps_handle, h]
  · intro h
    have hfind : later.handles.find? (keyPath disk path).steps = some (cache.handle disk path).1 := by
      apply hkeeps.handles
      rw [find?_handle, if_pos rfl]
    rw [later.handle_fst, ← h, hfind, Option.getD_some]

include hissued in
/-- A cleared cache gives out no handle that it gave out before. -/
theorem handle_ne_of_clear {between : CacheHistory} {disk disk' : Disk} {path path' : Path}
    (hclear : ∃ moment ∈ between, moment.2 = .clear) :
    (cache.handle disk path).1 ≠
      (((cache.handle disk path).2.after between).handle disk' path').1 := by
  obtain ⟨⟨now, _⟩, hmem, rfl⟩ := hclear
  obtain ⟨before, rest, rfl⟩ := List.append_of_mem hmem
  rw [after_append]
  have hfirst := (hissued.serial_handle disk path).2
  have hcleared := (cache.handle disk path).2.issued_le_after before
  have hlater := (issuedFrom_clear ((cache.handle disk path).2.after before)).after rest
  have hsecond := (hlater.serial_handle disk' path').1
  intro h
  have hserial := congrArg ArchiveHandle.serial h
  simp only [after, List.foldl_cons, act] at hserial hsecond hcleared
  omega

end TwoRequests

/-- All that a cache ever tells is settled by its history. Two requests come to one handle exactly
when they have one key and the cache was not cleared in between. It holds as many handles as keys
were asked for since it was last cleared. What is found when a handle is first tried is found
whenever it is tried later, whatever happens to the cache and the disk, and the handle is open exactly
when it was tried with success. -/
theorem outcomes_are_written_once (history : CacheHistory) :
    (∀ disk path (between : CacheHistory) disk' path',
      ((empty.after history).handle disk path).1 =
          ((empty.after (history ++ (disk, .handle path) :: between)).handle disk' path').1 ↔
        (∀ moment ∈ between, moment.2 ≠ .clear) ∧
          (keyPath disk path).steps = (keyPath disk' path').steps) ∧
    (empty.after history).size = ((requests history).map requestKey).dedup.length ∧
    (∀ disk handle (more : CacheHistory) later,
      (empty.after (history ++ (disk, .isReadable handle) :: more)).isReadable later handle =
        (empty.after history).isReadable disk handle) ∧
    (∀ disk handle, (empty.after history).isReadable disk handle =
      (Archive.open? ((firstTrial? history handle).getD disk) handle.path).isSome) ∧
    ∀ handle, (empty.after history).isOpen handle = true ↔
      ∃ earlier disk rest, history = earlier ++ (disk, .isReadable handle) :: rest ∧
        (empty.after earlier).isReadable disk handle = true := by
  have hfiled := isFiled_empty.after history
  have hissued : IssuedFrom 0 (empty.after history) :=
    IssuedFrom.after ⟨Nat.zero_le _, fun key handle hfind => by cases hfind⟩ history
  refine ⟨?_, size_after history, ?_, isReadable_after history, ?_⟩
  · intro disk path between disk' path'
    rw [after_append]
    show _ = ((((empty.after history).handle disk path).2.after between).handle disk' path').1 ↔ _
    by_cases hclear : ∃ moment ∈ between, moment.2 = .clear
    · refine iff_of_false (handle_ne_of_clear hissued hclear) ?_
      rintro ⟨hnone, -⟩
      obtain ⟨moment, hmem, hmoment⟩ := hclear
      exact hnone moment hmem hmoment
    · have hnone : ∀ moment ∈ between, moment.2 ≠ .clear :=
        fun moment hmem hmoment => hclear ⟨moment, hmem, hmoment⟩
      rw [handle_eq_iff_of_keeps hfiled ((hfiled.handle disk path).after between)
        (keeps_after _ hnone), and_iff_right hnone]
  · intro disk handle more later
    rw [isReadable_after, isReadable_after, firstTrial?_append, firstTrial?_cons_isReadable]
    cases firstTrial? history handle <;> rfl
  · intro handle
    rw [isOpen_after_iff]
    constructor
    · rintro ⟨disk, htrial, hopen⟩
      obtain ⟨earlier, rest, rfl, hnone⟩ := exists_firstTrial htrial
      refine ⟨earlier, disk, rest, rfl, ?_⟩
      rw [isReadable_after, hnone]
      exact hopen
    · rintro ⟨earlier, disk, rest, rfl, hopen⟩
      refine ⟨(firstTrial? earlier handle).getD disk, ?_, (isReadable_after ..).symm.trans hopen⟩
      rw [firstTrial?_append, firstTrial?_cons_isReadable]
      cases firstTrial? earlier handle <;> rfl

end ArchiveCache

end ClasspathLookup
