import ClasspathLookup.Proofs.Histories
import ClasspathLookup.Proofs.Ineligible

/-!
# Archives are read as they were opened

A root that is named as an archive is opened when it is located, and there is a location for it only
if that succeeds. From then on its content is that of the handle. A set that was built from archives
and packaged images alone therefore never goes back to the disk: whatever happens to the files, every
query is told what it would have been told when the set was built.
-/

namespace ClasspathLookup

namespace ArchiveCache

variable {cache later : ArchiveCache} {handle : ArchiveHandle}

theorem isOpen_iff : cache.isOpen handle = true ↔
    ∃ archive, cache.outcomes.find? handle = some (some archive) := by
  unfold isOpen
  cases cache.outcomes.find? handle with
  | none => simp
  | some outcome => simp [Option.isSome_iff_exists]

theorem Keeps.isOpen (h : cache.Keeps later) (hopen : cache.isOpen handle = true) :
    later.isOpen handle = true := by
  obtain ⟨archive, hfind⟩ := isOpen_iff.1 hopen
  exact isOpen_iff.2 ⟨archive, h.outcomes handle _ hfind⟩

/-- What was found when an archive was opened is found for good, whatever is on the disk. -/
theorem Keeps.content?_of_find? (h : cache.Keeps later) {outcome : Option Archive}
    (hfind : cache.outcomes.find? handle = some outcome) (disk disk' : Disk) :
    later.content? disk' handle = cache.content? disk handle := by
  rw [content?, content?, hfind, h.outcomes handle outcome hfind]
  rfl

/-- An open archive has one content. -/
theorem Keeps.content?_of_isOpen (h : cache.Keeps later) (hopen : cache.isOpen handle = true)
    (disk disk' : Disk) : later.content? disk' handle = cache.content? disk handle := by
  obtain ⟨archive, hfind⟩ := isOpen_iff.1 hopen
  exact h.content?_of_find? hfind disk disk'

end ArchiveCache

namespace LocationSet

variable {set later : LocationSet} {disk : Disk} {location : Location}

/-- The archive of the location is open, if it is in one. -/
def HasOpened (set : LocationSet) (location : Location) : Prop :=
  location.OnHandle fun handle => set.archives.isOpen handle = true

/-- The archives of all locations are open. -/
def IsOpened (set : LocationSet) : Prop :=
  ∀ location ∈ set.locations, set.HasOpened location

/-- Sets that are built and merged from roots, each time on the disk as it then is, and asked in
between. -/
inductive Built : LocationSet → Prop
  | build (disk : Disk) (roots : List ClasspathRoot) (extensions : List String) :
      Built (build disk roots extensions)
  | merge {set : LocationSet} (disk : Disk) (roots : List ClasspathRoot) (h : Built set) :
      Built (set.merge disk roots).2
  | query {set : LocationSet} {α : Type} (disk : Disk) (lookup : Lookup α) (h : Built set) :
      Built (set.run disk lookup).2

theorem HasOpened.of_keeps (h : set.HasOpened location)
    (hkeeps : set.archives.Keeps later.archives) : later.HasOpened location :=
  fun handle hstorage => hkeeps.isOpen (h handle hstorage)

theorem isOpen_of_readable? {path : Path} {handle : ArchiveHandle}
    (h : (set.readable? disk path).1 = some handle) :
    (set.readable? disk path).2.archives.isOpen handle = true := by
  obtain ⟨rfl, hreadable, harchives⟩ := handle_of_readable? h
  rw [harchives, ArchiveCache.isOpen_opened]
  exact hreadable

/-- An archive that cannot be opened gives no location. -/
theorem hasOpened_of_locate? {root : ClasspathRoot}
    (h : (set.locate? disk root).1 = some location) :
    (set.locate? disk root).2.HasOpened location := by
  intro handle hstorage
  have hreadable := onHandle_of_locate? h handle hstorage
  rw [← congrArg Prod.snd hreadable]
  exact isOpen_of_readable? (congrArg Prod.fst hreadable)

theorem IsOpened.locate? (h : set.IsOpened) (root : ClasspathRoot) :
    (set.locate? disk root).2.IsOpened := by
  intro location hmem
  rw [locations_locate?] at hmem
  exact (h location hmem).of_keeps (set.grows_locate? disk root).archives.keeps

theorem IsOpened.push (h : set.IsOpened) (hlocation : set.HasOpened location) :
    (set.push location).2.IsOpened := by
  intro other hother
  rw [HasOpened, archives_push]
  rcases mem_push hother with hmem | rfl
  · exact h other hmem
  · exact hlocation

/-- The locations that were there stay open, and those that come are open. -/
theorem IsOpened.merge (h : set.IsOpened) (roots : List ClasspathRoot) :
    (set.merge disk roots).2.IsOpened := by
  apply merge_preserves _ _ h
  · intro set root h
    exact h.locate? root
  · intro set root location h hlocation
    exact (h.locate? root).push (hasOpened_of_locate? hlocation)

theorem Built.isOpened (h : set.Built) : set.IsOpened := by
  induction h with
  | build disk roots extensions => exact IsOpened.merge (by simp [IsOpened]) roots
  | merge disk roots _ ih => exact ih.merge roots
  | @query set _ disk lookup _ ih =>
    intro location hmem
    rw [locations_run] at hmem
    exact (ih location hmem).of_keeps (set.grows_run disk lookup).archives.keeps

/-- Two sets that share open archives see the same in them, each on a disk of its own. -/
theorem HasOpened.alike (h : set.HasOpened location)
    (hpackaged : location.storage.isPackaged = true)
    (hkeeps : set.archives.Keeps later.archives) (disk disk' : Disk) :
    Location.Alike (set.view disk) (later.view disk') location location := by
  have hcontent {handle : ArchiveHandle} (hstorage : location.storage = .archive handle) :
      (set.view disk).archive? handle = (later.view disk').archive? handle :=
    (hkeeps.content?_of_isOpen (h handle hstorage) disk disk').symm
  cases location with
  | source folder => cases hpackaged
  | classes folder => cases hpackaged
  | archive archive => exact .archive (.of_archive rfl (hcontent rfl))
  | image image =>
    obtain ⟨storage, annotations⟩ := image
    cases storage with
    | folder root => cases hpackaged
    | archive handle =>
      refine .image (.of_archive rfl (hcontent rfl)) ?_
      simp only [ModuleImage.modules, Lookup.value_bind, Lookup.value_archive?, hcontent rfl,
        Lookup.value_pure]

end LocationSet

namespace Environment

variable {environment later : Environment}

/-- Environments that differ in nothing but alike locations give the same reply. -/
theorem value_lookup_of_alike {view view' : View} (hoverlay : later.overlay = environment.overlay)
    (hoptions : later.options = environment.options)
    (h : List.Forall₂ (Location.Alike view view') environment.locations.locations
      later.locations.locations) (query : Query) :
    (later.lookup query).value view' = (environment.lookup query).value view := by
  have hmatches : environment.Matches (.views view view') later :=
    ⟨hoverlay.symm, hoptions.symm, h.imp fun _ _ halike => halike.matching⟩
  exact (Sides.views_agree_iff.1 (hmatches.lookup query)).symm

/-- The later environment has the same locations and still has what was opened of them. -/
structure Retains (environment later : Environment) : Prop where
  overlay : later.overlay = environment.overlay
  options : later.options = environment.options
  locations : later.locations.locations = environment.locations.locations
  archives : environment.locations.archives.Keeps later.locations.archives

namespace Retains

theorem refl (environment : Environment) : environment.Retains environment :=
  ⟨rfl, rfl, rfl, .refl _⟩

/-- A query opens more, on whichever disk. -/
theorem ask (h : environment.Retains later) (disk : Disk) (query : Query) :
    environment.Retains (later.act disk (.ask query)).2 := by
  have hgrows := later.locations.grows_run disk (later.lookup query)
  rw [act_ask]
  exact ⟨h.overlay, h.options, (later.locations.locations_run disk _).trans h.locations,
    h.archives.trans hgrows.archives.keeps⟩

theorem reply (h : environment.Retains later)
    (hopened : environment.locations.IsOpened)
    (hpackaged : ∀ location ∈ environment.locations.locations,
      location.storage.isPackaged = true) (disk disk' : Disk) (query : Query) :
    later.reply disk' query = environment.reply disk query := by
  rw [reply_eq, reply_eq]
  apply value_lookup_of_alike h.overlay h.options
  rw [h.locations, List.forall₂_same]
  intro location hmem
  exact (hopened location hmem).alike (hpackaged location hmem) h.archives disk disk'

end Retains

/-- A set that was built from roots which are all archives or packaged images is a snapshot. Whatever
happens to the disk while it is asked, every query is told what it would have been told when the set
was built. -/
theorem replies_of_built {set : LocationSet} (h : set.Built)
    (hpackaged : ∀ location ∈ set.locations, location.storage.isPackaged = true)
    (overlay : Overlay) (options : Options) (disk : Disk) (moments : List (Disk × Query)) :
    let environment : Environment := ⟨set, overlay, options⟩
    environment.reports (.querying moments) =
        moments.map (fun moment => .replied (environment.reply disk moment.2)) ∧
      ∀ last query, (environment.after (.querying moments)).reply last query =
        environment.reply disk query := by
  intro environment
  -- Along the history the environment is another one, but it retains what the first one has.
  suffices hlater : ∀ later, environment.Retains later →
      later.reports (.querying moments) =
          moments.map (fun moment => .replied (environment.reply disk moment.2)) ∧
        environment.Retains (later.after (.querying moments)) by
    obtain ⟨hreports, hretains⟩ := hlater environment (.refl environment)
    exact ⟨hreports, fun last query => hretains.reply h.isOpened hpackaged disk last query⟩
  induction moments with
  | nil => exact fun later hretains => ⟨rfl, hretains⟩
  | cons moment moments ih =>
    intro later hretains
    obtain ⟨hreports, hafter⟩ := ih _ (hretains.ask moment.1 moment.2)
    have hfirst := hretains.reply h.isOpened hpackaged disk moment.1 moment.2
    refine ⟨?_, hafter⟩
    rw [List.map_cons, ← hfirst, ← hreports]
    rfl

/-- One archive with a class in it. -/
def jarDisk (bytes : String) : Disk :=
  Disk.empty.put (.ofText "lib.jar") (.file (.archive [⟨"s/Jar.class", some bytes.toUTF8⟩]))

def jarSet (bytes : String) : LocationSet :=
  .build (jarDisk bytes) [{ path := .ofText "lib.jar" }] ["jar"]

def jarName : TypeName :=
  ⟨["s"], "Jar", by decide, by decide⟩

def jarAnswer (bytes : String) : Answer :=
  ⟨.binary { origin := .ofText "lib.jar", entry := some "s/Jar.class", bytes := bytes.toUTF8 },
    none, none⟩

/-- The archive is replaced and then removed, and its class is found as it was. On a set that is built
after the replacement it is found as it then is. -/
theorem replies_of_built_jar :
    let environment : Environment := ⟨jarSet "old", {}, {}⟩
    let moments : List (Disk × Query) :=
      [(jarDisk "new", .findType jarName .all), (Disk.empty, .isPackage "s" .all)]
    (jarSet "old").Built ∧
      (∀ location ∈ (jarSet "old").locations, location.storage.isPackaged = true) ∧
      environment.reports (.querying moments) =
        [.replied (.found (some (jarAnswer "old"))), .replied (.truth true)] ∧
      (environment.after (.querying moments)).reply Disk.empty (.findType jarName .all) =
        .found (some (jarAnswer "old")) ∧
      (⟨jarSet "new", {}, {}⟩ : Environment).reply (jarDisk "new") (.findType jarName .all) =
        .found (some (jarAnswer "new")) := by
  intro environment moments
  have hbuilt : (jarSet "old").Built := .build _ _ _
  have hpackaged : ∀ location ∈ (jarSet "old").locations, location.storage.isPackaged = true := by
    decide +kernel
  have hfound : environment.reply (jarDisk "old") (.findType jarName .all) =
      .found (some (jarAnswer "old")) := by
    decide +kernel
  have hpackage : environment.reply (jarDisk "old") (.isPackage "s" .all) = .truth true := by
    decide +kernel
  obtain ⟨hreports, hafter⟩ := replies_of_built hbuilt hpackaged {} {} (jarDisk "old") moments
  refine ⟨hbuilt, hpackaged, hreports.trans ?_, (hafter _ _).trans hfound, by decide +kernel⟩
  exact congrArg₂ (fun first second => [Report.replied first, Report.replied second]) hfound hpackage

end Environment

end ClasspathLookup
