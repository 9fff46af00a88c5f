import ClasspathLookup.Proofs.HandleNumbers

/-!
# A cleanup starts anew

What a cleanup leaves behind is of no use: outcomes of handles that are not given out again, and the
count of the handles that were. The environment therefore goes on like a new one, handle by handle
with higher numbers, and nothing that is done with the two tells them apart.
-/

namespace ClasspathLookup

/-- A handle stands for the one of its path with a number that is less by an amount. -/
def Renaming.ahead (n : Nat) : Renaming where
  names handle other := handle.serial = other.serial + n ∧ handle.path = other.path
  path_eq h := h.2
  eq_iff {handle other handle' other'} h h' := by
    obtain ⟨serial, path⟩ := handle
    obtain ⟨serial', path'⟩ := handle'
    obtain ⟨rfl, rfl⟩ := h
    obtain ⟨rfl, rfl⟩ := h'
    obtain ⟨number, path⟩ := other
    obtain ⟨number', path'⟩ := other'
    simp

namespace ArchiveCache

/-- The first cache is ahead of the other one by some handles, and is like it in all later ones. -/
structure InStep (n : Nat) (cache other : ArchiveCache) : Prop where
  handles : List.Forall₂ (fun p p' => p.1 = p'.1 ∧ (Renaming.ahead n).names p.2 p'.2)
    cache.handles.pairs other.handles.pairs
  outcomes : ∀ {handle handle'}, (Renaming.ahead n).names handle handle' →
    cache.outcomes.find? handle = other.outcomes.find? handle'
  issued : cache.issued = other.issued + n

namespace InStep

variable {n : Nat} {cache other : ArchiveCache}

theorem find? (h : cache.InStep n other) (key : List String) :
    Option.Rel (Renaming.ahead n).names (cache.handles.find? key) (other.handles.find? key) := by
  have hpairs := h.handles
  unfold Keyed.find?
  generalize cache.handles.pairs = pairs at hpairs ⊢
  generalize other.handles.pairs = pairs' at hpairs ⊢
  induction hpairs with
  | nil => exact .none
  | @cons p p' _ _ hp _ ih =>
    obtain ⟨hkey, hnames⟩ := hp
    by_cases hfound : p.1 = key
    · rw [List.find?_cons_of_pos (by simpa using hfound),
        List.find?_cons_of_pos (by simpa using hkey ▸ hfound)]
      exact .some hnames
    · rw [List.find?_cons_of_neg (by simpa using hfound),
        List.find?_cons_of_neg (by simpa using hkey ▸ hfound)]
      exact ih

theorem size (h : cache.InStep n other) : cache.size = other.size :=
  h.handles.length_eq

theorem content? (h : cache.InStep n other) (disk : Disk) {handle handle' : ArchiveHandle}
    (hnames : (Renaming.ahead n).names handle handle') :
    cache.content? disk handle = other.content? disk handle' := by
  rw [ArchiveCache.content?, ArchiveCache.content?, h.outcomes hnames, hnames.2]

theorem handle (h : cache.InStep n other) (disk : Disk) (path : Path) :
    (Renaming.ahead n).names (cache.handle disk path).1 (other.handle disk path).1 ∧
      (cache.handle disk path).2.InStep n (other.handle disk path).2 := by
  have hfind := h.find? (keyPath disk path).steps
  unfold ArchiveCache.handle
  dsimp only
  generalize hfound : cache.handles.find? (keyPath disk path).steps = found at hfind ⊢
  generalize hfound' : other.handles.find? (keyPath disk path).steps = found' at hfind ⊢
  cases hfind with
  | some hnames => exact ⟨hnames, h⟩
  | none =>
    have hnew : (Renaming.ahead n).names ⟨cache.issued, keyPath disk path⟩
        ⟨other.issued, keyPath disk path⟩ := ⟨h.issued, rfl⟩
    refine ⟨hnew, ?_, h.outcomes, ?_⟩
    · refine List.rel_append (List.rel_filter ?_ h.handles) (.cons ⟨rfl, hnew⟩ .nil)
      intro p p' hp
      simp [hp.1]
    · show cache.issued + 1 = other.issued + 1 + n
      rw [h.issued]
      omega

theorem opened (h : cache.InStep n other) (disk : Disk) {handle handle' : ArchiveHandle}
    (hnames : (Renaming.ahead n).names handle handle') :
    (cache.opened disk handle).InStep n (other.opened disk handle') := by
  refine ⟨h.handles, ?_, h.issued⟩
  intro first second hpair
  unfold ArchiveCache.opened
  rw [Keyed.find?_insertNew, Keyed.find?_insertNew, h.outcomes hpair, h.content? disk hnames]
  simp only [(Renaming.ahead n).eq_iff hpair hnames]

theorem clear (h : cache.InStep n other) : cache.clear.InStep n other.clear :=
  ⟨.nil, h.outcomes, h.issued⟩

end InStep

/-- The handle that is given out first after a cleanup has not been opened. -/
theorem Numbered.content?_clear {cache : ArchiveCache} (h : cache.Numbered) (disk : Disk)
    (path : Path) : (cache.clear.handle disk path).2.content? disk (cache.clear.handle disk path).1 =
      Archive.open? disk (keyPath disk path) := by
  have hnone : cache.outcomes.find? ⟨cache.issued, keyPath disk path⟩ = none := by
    rw [Option.eq_none_iff_forall_ne_some]
    intro outcome hfind
    exact Nat.lt_irrefl _ (h.outcomes _ outcome hfind)
  show (cache.outcomes.find? ⟨cache.issued, keyPath disk path⟩).getD _ = _
  rw [hnone]
  rfl

end ArchiveCache

/-- The plan makes the same of a handle and of the one that it stands for. -/
def RootPlan.IsNatural (r : Renaming) : RootPlan → Prop
  | .settled location => Option.Rel (Location.Renamed r) location location
  | .archived make => ∀ handle other, r.names handle other →
      Location.Renamed r (make handle) (make other)

theorem ClasspathRoot.plan_isNatural (r : Renaming) (root : ClasspathRoot) (disk : Disk)
    (archiveExtensions : List String) : (root.plan disk archiveExtensions).IsNatural r := by
  unfold plan
  split
  · split
    · exact .some (.image _ (.folder _))
    · exact fun handle other h => .image _ (.archive h)
  · split
    · exact fun handle other h => .archive _ _ _ h
    · split
      · cases root.role with
        | source => exact .some (.source _)
        | binary => exact .some (.classes _)
      · exact .none

namespace LocationSet

/-- Two sets with the same locations but for the numbers of their handles. -/
structure InStep (n : Nat) (set other : LocationSet) : Prop where
  locations : List.Forall₂ (Location.Renamed (.ahead n)) set.locations other.locations
  archives : set.archives.InStep n other.archives
  explodedModules : set.explodedModules = other.explodedModules
  archiveExtensions : set.archiveExtensions = other.archiveExtensions

namespace InStep

variable {n : Nat} {set other : LocationSet}

theorem view (h : set.InStep n other) (disk : Disk) :
    View.Renamed (.ahead n) (set.view disk) (other.view disk) where
  disk := rfl
  archive? := h.archives.content? disk
  explodedModules := by
    unfold LocationSet.view
    rw [h.explodedModules]

theorem keys (h : set.InStep n other) :
    set.locations.map Location.key = other.locations.map Location.key :=
  h.locations.map_eq Location.Renamed.key

theorem contains (h : set.InStep n other) (key : LocationKey) :
    set.contains key = other.contains key := by
  have hkeys := congrArg (fun keys => keys.any (· = key)) h.keys
  simpa [LocationSet.contains, List.any_map, Function.comp_def] using hkeys

theorem readable? (h : set.InStep n other) (disk : Disk) (path : Path) :
    Option.Rel (Renaming.ahead n).names (set.readable? disk path).1 (other.readable? disk path).1 ∧
      (set.readable? disk path).2.InStep n (other.readable? disk path).2 := by
  unfold LocationSet.readable?
  split
  · obtain ⟨hnames, harchives⟩ := h.archives.handle disk path
    have hreadable : (set.handle disk path).2.archives.isReadable disk (set.handle disk path).1 =
        (other.handle disk path).2.archives.isReadable disk (other.handle disk path).1 :=
      congrArg Option.isSome (harchives.content? disk hnames)
    refine ⟨?_, h.locations, harchives.opened disk hnames, h.explodedModules,
      h.archiveExtensions⟩
    dsimp only
    rw [hreadable]
    split
    · exact .some hnames
    · exact .none
  · exact ⟨.none, h⟩

theorem locate? (h : set.InStep n other) (disk : Disk) (root : ClasspathRoot) :
    Option.Rel (Location.Renamed (.ahead n)) (set.locate? disk root).1
        (other.locate? disk root).1 ∧
      (set.locate? disk root).2.InStep n (other.locate? disk root).2 := by
  have hplan := root.plan_isNatural (.ahead n) disk set.archiveExtensions
  rw [locate?_eq, locate?_eq, ← h.archiveExtensions]
  cases hkind : root.plan disk set.archiveExtensions with
  | settled location =>
    rw [hkind] at hplan
    exact ⟨hplan, h⟩
  | archived make =>
    rw [hkind] at hplan
    obtain ⟨hreadable, hstep⟩ := h.readable? disk root.path
    exact ⟨hreadable.map hplan, hstep⟩

theorem push (h : set.InStep n other) {location location' : Location}
    (hlocation : Location.Renamed (.ahead n) location location') :
    (set.push location).1 = (other.push location').1 ∧
      (set.push location).2.InStep n (other.push location').2 := by
  unfold LocationSet.push
  rw [← hlocation.key, ← h.contains]
  split
  · exact ⟨rfl, h⟩
  · exact ⟨rfl, List.rel_append h.locations (.cons hlocation .nil), h.archives,
      h.explodedModules, h.archiveExtensions⟩

theorem merge (h : set.InStep n other) (disk : Disk) (roots : List ClasspathRoot) :
    (set.merge disk roots).1 = (other.merge disk roots).1 ∧
      (set.merge disk roots).2.InStep n (other.merge disk roots).2 := by
  induction roots generalizing set other with
  | nil => exact ⟨rfl, h⟩
  | cons root roots ih =>
    obtain ⟨hlocation, hlocated⟩ := h.locate? disk root
    generalize hfound : (set.locate? disk root).1 = found at hlocation
    generalize hfound' : (other.locate? disk root).1 = found' at hlocation
    cases hlocation with
    | none =>
      rw [merge_cons_of_none hfound, merge_cons_of_none hfound']
      exact ih hlocated
    | some hlocation =>
      obtain ⟨hnew, hpushed⟩ := hlocated.push hlocation
      obtain ⟨hcount, hmerged⟩ := ih hpushed
      rw [merge_cons_of_some hfound, merge_cons_of_some hfound']
      exact ⟨by dsimp only; rw [hnew, hcount], hmerged⟩

theorem settle (h : set.InStep n other) (disk : Disk) {need need' : Need}
    (hneed : Need.Renamed (.ahead n) need need') :
    (LocationSet.settle disk set need).InStep n (LocationSet.settle disk other need') := by
  cases hneed with
  | archive hnames =>
    exact ⟨h.locations, h.archives.opened disk hnames, h.explodedModules, h.archiveExtensions⟩
  | explodedModules image =>
    refine ⟨h.locations, h.archives, ?_, h.archiveExtensions⟩
    simp only [LocationSet.settle, h.explodedModules]

theorem foldl_settle (h : set.InStep n other) (disk : Disk) {needs needs' : List Need}
    (hneeds : List.Forall₂ (Need.Renamed (.ahead n)) needs needs') :
    (needs.foldl (LocationSet.settle disk) set).InStep n
      (needs'.foldl (LocationSet.settle disk) other) := by
  induction hneeds generalizing set other with
  | nil => exact h
  | cons hneed _ ih => exact ih (h.settle disk hneed)

theorem cleanup (h : set.InStep n other) : set.cleanup.InStep n other.cleanup :=
  ⟨.nil, h.archives.clear, rfl, h.archiveExtensions⟩

/-- A set whose handles have all been issued goes on from a cleanup like a new one. -/
theorem of_cleanup (h : set.Numbered) (disk : Disk) :
    set.cleanup.InStep set.archives.issued (.build disk [] set.archiveExtensions) := by
  refine ⟨.nil, ⟨.nil, ?_, ?_⟩, rfl, rfl⟩
  · -- A handle that stands for one of the new set was not issued before, and thus never opened.
    intro handle handle' hnames
    cases hfind : set.archives.outcomes.find? handle with
    | none => exact hfind
    | some outcome =>
      have hissued := h.archives.outcomes handle outcome hfind
      have hserial := hnames.1
      omega
  · exact (Nat.zero_add _).symm

end InStep

/-- After a cleanup an archive is tried anew. -/
theorem Numbered.readable?_cleanup {set : LocationSet} (h : set.Numbered) (disk : Disk)
    (path : Path) :
    (set.cleanup.readable? disk path).1.isSome =
        (disk.isFile path && (Archive.open? disk (ArchiveCache.keyPath disk path)).isSome) ∧
      ∀ handle, (set.cleanup.readable? disk path).1 = some handle → ∀ later,
        (set.cleanup.readable? disk path).2.archives.content? later handle =
          Archive.open? disk (ArchiveCache.keyPath disk path) := by
  have hcontent := h.archives.content?_clear disk path
  constructor
  · rw [isSome_readable?]
    exact congrArg (disk.isFile path && Option.isSome ·) hcontent
  · intro handle hfound later
    obtain ⟨rfl, -, harchives⟩ := handle_of_readable? hfound
    rw [harchives, ArchiveCache.content?_opened_self]
    exact hcontent

end LocationSet

namespace Environment

structure InStep (n : Nat) (environment other : Environment) : Prop where
  overlay : environment.overlay = other.overlay
  options : environment.options = other.options
  locations : environment.locations.InStep n other.locations

namespace InStep

variable {n : Nat} {environment other : Environment}

theorem renamed (h : environment.InStep n other) : environment.Renamed (.ahead n) other :=
  ⟨h.overlay, h.options, h.locations.locations⟩

theorem reply (h : environment.InStep n other) (disk : Disk) (query : Query) :
    environment.reply disk query = other.reply disk query :=
  (h.renamed.lookup query (h.locations.view disk)).1

/-- Whatever is done with both, the same is reported, and they stay in step. -/
theorem act (h : environment.InStep n other) (disk : Disk) (action : Action) :
    (environment.act disk action).1 = (other.act disk action).1 ∧
      (environment.act disk action).2.InStep n (other.act disk action).2 := by
  cases action with
  | ask query =>
    have hneeds := (h.renamed.lookup query (h.locations.view disk)).2
    exact ⟨congrArg Report.replied (h.reply disk query), h.overlay, h.options,
      h.locations.foldl_settle disk hneeds⟩
  | addProject projects project =>
    obtain ⟨hcount, hmerged⟩ := h.locations.merge disk ((projects project).getD [])
    rw [act_addProject, act_addProject]
    exact ⟨congrArg Report.added hcount, h.overlay, h.options, hmerged⟩
  | cleanup => exact ⟨rfl, h.overlay, h.options, h.locations.cleanup⟩

theorem after (h : environment.InStep n other) (history : History) :
    environment.reports history = other.reports history ∧
      (environment.after history).InStep n (other.after history) := by
  induction history generalizing environment other with
  | nil => exact ⟨rfl, h⟩
  | cons step history ih =>
    obtain ⟨hreport, hstep⟩ := h.act step.1 step.2
    obtain ⟨hreports, hafter⟩ := ih hstep
    refine ⟨?_, hafter⟩
    rw [Environment.reports, Environment.reports, hreport, hreports]

end InStep

theorem reply_of_no_locations {environment : Environment}
    (h : environment.locations.locations = []) (disk : Disk) :
    (∀ name filter, environment.reply disk (.findType name filter) = .found none) ∧
      ∀ package filter, environment.reply disk (.isPackage package filter) = .truth false := by
  constructor
  · intro name filter
    have hfallback : environment.asksSourceFolder filter = false := by
      rw [asksSourceFolder, h]
      rfl
    simp only [reply_eq, lookup, findType, scan, h, ScanPolicy.scan, Outcome.ofSuggestion,
      hfallback, Bool.and_false, Lookup.value_bind, Lookup.value_pure, Bool.false_eq_true,
      if_false]
  · intro package filter
    simp only [reply_eq, lookup, isPackage, h, Lookup.any, Lookup.value_bind, Lookup.value_pure]

/-- A cleanup is a full reset. Whatever was done with an environment on whichever disks, after a
cleanup nothing is found in it and nothing is a package, and all that is done with it from then on is
reported as it would be of a new environment without roots; the two have the same keys in the same
order, as many archives, and the same replies. An archive is opened as it then is, whether it could be
opened before or not. -/
theorem cleanup_starts_anew {set : LocationSet} (h : set.Numbered) (copies : List WorkingCopy)
    (options : Options) (history : History) (disk : Disk) :
    let cleaned := ((create set copies options).after history).cleanup
    let fresh := create (.build disk [] set.archiveExtensions) copies options
    (∀ now name filter, cleaned.reply now (.findType name filter) = .found none) ∧
    (∀ now package filter, cleaned.reply now (.isPackage package filter) = .truth false) ∧
    (∀ more : History, cleaned.reports more = fresh.reports more ∧
      (cleaned.after more).locations.locations.map Location.key =
        (fresh.after more).locations.locations.map Location.key ∧
      (cleaned.after more).locations.archives.size = (fresh.after more).locations.archives.size ∧
      ∀ now query, (cleaned.after more).reply now query = (fresh.after more).reply now query) ∧
    ∀ now path, (cleaned.locations.readable? now path).1.isSome =
        (now.isFile path && (Archive.open? now (ArchiveCache.keyPath now path)).isSome) ∧
      ∀ handle, (cleaned.locations.readable? now path).1 = some handle → ∀ later,
        (cleaned.locations.readable? now path).2.archives.content? later handle =
          Archive.open? now (ArchiveCache.keyPath now path) := by
  intro cleaned fresh
  have hnumbered : ((create set copies options).after history).locations.Numbered :=
    numbered_after h history
  have hsetup := (create set copies options).keepsSetup_after history
  have hstep : cleaned.InStep ((create set copies options).after history).locations.archives.issued
      fresh := by
    refine ⟨hsetup.overlay, hsetup.options, ?_⟩
    rw [show fresh.locations = .build disk [] set.archiveExtensions from rfl]
    exact hsetup.archiveExtensions ▸ LocationSet.InStep.of_cleanup hnumbered disk
  refine ⟨fun now => (reply_of_no_locations rfl now).1, fun now => (reply_of_no_locations rfl now).2,
    ?_, hnumbered.readable?_cleanup⟩
  intro more
  obtain ⟨hreports, hlater⟩ := hstep.after more
  exact ⟨hreports, hlater.locations.keys, hlater.locations.archives.size, hlater.reply⟩

/-- Two archives with one class each. -/
def twoJarDisk (first : FileContent) (bytes : String) : Disk :=
  (Disk.empty.put (.ofText "first.jar") (.file first)).put (.ofText "last.jar")
    (.file (.archive [⟨"u/Last.class", some bytes.toUTF8⟩]))

/-- The first archive is broken. -/
def brokenDisk : Disk :=
  twoJarDisk (.plain "".toUTF8) "old"

/-- The first archive is there and the last one has been replaced. -/
def mendedDisk : Disk :=
  twoJarDisk (.archive [⟨"t/First.class", some "first".toUTF8⟩]) "new"

def twoJarProjects : Projects := fun _ =>
  some [{ path := .ofText "first.jar" }, { path := .ofText "last.jar" }]

def brokenSet : LocationSet :=
  .build brokenDisk [{ path := .ofText "first.jar" }, { path := .ofText "last.jar" }] ["jar"]

def firstName : TypeName :=
  ⟨["t"], "First", by decide, by decide⟩

def lastName : TypeName :=
  ⟨["u"], "Last", by decide, by decide⟩

def twoJarReport (path entry bytes : String) : Report :=
  .replied (.found (some ⟨.binary
    { origin := .ofText path, entry := some entry, bytes := bytes.toUTF8 }, none, none⟩))

/-- On the mended disk the class of the broken archive is not found and the other one is found as it
was. After a cleanup both archives are located and both classes are found as they are. -/
theorem cleanup_starts_anew_mended :
    let environment := create brokenSet [] {}
    let asked : History := .querying
      [(brokenDisk, .findType lastName .all), (mendedDisk, .findType firstName .all),
        (mendedDisk, .findType lastName .all)]
    let cleaned := (environment.after asked).cleanup
    let more : History := (mendedDisk, .addProject twoJarProjects "project") ::
      History.asking mendedDisk [.findType firstName .all, .findType lastName .all]
    brokenSet.Numbered ∧
      environment.reports asked = [twoJarReport "last.jar" "u/Last.class" "old",
        .replied (.found none), twoJarReport "last.jar" "u/Last.class" "old"] ∧
      cleaned.reply mendedDisk (.findType lastName .all) = .found none ∧
      cleaned.reports more = [.added 2, twoJarReport "first.jar" "t/First.class" "first",
        twoJarReport "last.jar" "u/Last.class" "new"] ∧
      (cleaned.after more).locations.archives.size = 2 := by
  intro environment asked cleaned more
  have hnumbered : brokenSet.Numbered := .build _ _ _
  obtain ⟨hnone, -, hlater, -⟩ := cleanup_starts_anew hnumbered [] {} asked mendedDisk
  obtain ⟨hreports, -, hsize, -⟩ := hlater more
  refine ⟨hnumbered, by decide +kernel, hnone _ _ _, ?_, ?_⟩
  · rw [hreports]
    decide +kernel
  · rw [hsize]
    decide +kernel

end Environment

end ClasspathLookup
