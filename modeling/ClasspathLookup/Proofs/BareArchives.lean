import ClasspathLookup.Proofs.OpenUnits

/-!
# Archives with nothing in them

An archive without entries answers no question, wherever it stands in the search order, so no scan
notices it. It is still a location. The search of other source files asks only the first location
that is open to a single module, and where an empty archive comes to be that one, it ends there.
-/

namespace ClasspathLookup

/-- The archive cannot be read or has no entries. -/
def ClassArchive.IsBare (archive : ClassArchive) (view : View) : Prop :=
  view.archive? archive.handle = none ∨ view.archive? archive.handle = some (.ofEntries [])

namespace ClassArchive.IsBare

variable {archive : ClassArchive} {view : View}

theorem read (h : archive.IsBare view) (relative : String) :
    ((Storage.archive archive.handle).read relative).value view = none := by
  simp only [Storage.read, Lookup.value_bind, Lookup.value_archive?, Lookup.value_pure]
  rcases h with hnone | hempty
  · rw [hnone]
    rfl
  · rw [hempty]
    rfl

theorem fileNames (h : archive.IsBare view) (folder : String) :
    ((Storage.archive archive.handle).fileNames folder).value view = [] := by
  simp only [Storage.fileNames, Lookup.value_bind, Lookup.value_archive?, Lookup.value_pure]
  rcases h with hnone | hempty
  · rw [hnone]
    rfl
  · rw [hempty]
    rfl

theorem type? (h : archive.IsBare view) (paths : TypePaths) (m : Option ModuleDescriptor)
    (extensions : List String) :
    ((Location.archive archive).type? paths m extensions).value view = none := by
  simp [Location.type?, Storage.binary?, h.read]

theorem secondary? (h : archive.IsBare view) (type package : String) (m : Option ModuleDescriptor)
    (extensions : List String) :
    ((Location.archive archive).secondary? type package m extensions).value view = none := by
  simp [Location.secondary?, Storage.secondary?, h.fileNames]

end ClassArchive.IsBare

namespace Environment

/-- Puts a location at a position of the search order, or at its end. -/
def insertLocation (environment : Environment) (position : Nat) (location : Location) :
    Environment :=
  let locations := environment.locations.locations
  { environment with
    locations := { environment.locations with
      locations := locations.take position ++ location :: locations.drop position } }

/-- A location put there would be the first one that is open to the single module of a filter. -/
def LeadsSingle (environment : Environment) (position : Nat) (location : Location)
    (filter : ModuleFilter) (view : View) : Prop :=
  ∃ m, filter.single? = some m ∧ (location.servesModule m.name).value view = true ∧
    ∀ earlier ∈ environment.locations.locations.take position,
      (earlier.servesModule m.name).value view = false

variable {environment : Environment} {name : TypeName} {filter : ModuleFilter} {view : View}
  {archive : ClassArchive} {position : Nat}

theorem locations_insertLocation (location : Location) :
    (environment.insertLocation position location).locations.locations =
      environment.locations.locations.take position ++
        location :: environment.locations.locations.drop position :=
  rfl

theorem value_probe_bare (h : archive.IsBare view) :
    (environment.probe name filter (.archive archive)).value view = none := by
  rw [environment.value_probe_of_not_open name filter view (by simp [Location.kind])]
  simp [h.type?]

theorem value_scan_insertLocation (h : archive.IsBare view) :
    ((environment.insertLocation position (.archive archive)).scan name filter).value view =
      (environment.scan name filter).value view := by
  have hprobe : ∀ location,
      ((environment.insertLocation position (.archive archive)).probe name filter location).value
        view = (environment.probe name filter location).value view := fun _ => rfl
  unfold scan
  rw [ScanPolicy.value_scan, ScanPolicy.value_scan, locations_insertLocation]
  simp only [hprobe]
  rw [List.filterMap_append, List.filterMap_cons, value_probe_bare h, ← List.filterMap_append,
    List.take_append_drop]
  rfl

theorem asksSourceFolder_insertLocation :
    (environment.insertLocation position (.archive archive)).asksSourceFolder filter =
      environment.asksSourceFolder filter := by
  unfold asksSourceFolder
  rw [locations_insertLocation, List.any_append, List.any_cons]
  cases filter <;> rw [Bool.false_or, ← List.any_append, List.take_append_drop]

theorem value_secondary?_insertLocation (h : archive.IsBare view)
    (hleads : ¬ environment.LeadsSingle position (.archive archive) filter view) :
    ((environment.insertLocation position (.archive archive)).secondary? name filter).value view =
      (environment.secondary? name filter).value view := by
  cases hsingle : filter.single? with
  | some m =>
    rw [value_secondary?_of_single hsingle, value_secondary?_of_single hsingle,
      locations_insertLocation, List.find?_append_cons, List.take_append_drop]
    · rfl
    · intro hserves
      apply Classical.byContradiction
      intro hnone
      exact hleads ⟨m, hsingle, hserves, by simpa using hnone⟩
  | none =>
    have hbare : ∀ extensions, (((Location.archive archive).admitted filter).value view).findSome?
        (fun m => ((Location.archive archive).secondary? name.simple name.packagePath m
          extensions).value view) = none := by
      intro extensions
      rw [List.findSome?_eq_none_iff]
      intro m _
      exact h.secondary? _ _ m extensions
    rw [value_secondary?_of_single_eq_none hsingle, value_secondary?_of_single_eq_none hsingle,
      locations_insertLocation, List.findSome?_append, List.findSome?_cons, hbare,
      ← List.findSome?_append, List.take_append_drop]
    rfl

/-- The search ends at the archive. -/
theorem value_secondary?_of_leads (h : archive.IsBare view)
    (hleads : environment.LeadsSingle position (.archive archive) filter view) :
    ((environment.insertLocation position (.archive archive)).secondary? name filter).value view =
      none := by
  obtain ⟨m, hsingle, hserves, hearlier⟩ := hleads
  have hfind : (environment.insertLocation position (.archive archive)).locations.locations.find?
      (fun location => (location.servesModule m.name).value view) = some (.archive archive) := by
    have hnone : (environment.locations.locations.take position).find?
        (fun location => (location.servesModule m.name).value view) = none := by
      simpa using hearlier
    rw [locations_insertLocation, List.find?_append, hnone, Option.none_or]
    exact List.find?_cons_of_pos hserves
  rw [value_secondary?_of_single hsingle, hfind, Option.bind_some]
  exact h.secondary? _ _ _ _

/-- An archive with nothing in it does not show in the scan, wherever it is put, and leaves every query
as it was, except that the search of other source files ends at it when it becomes the first location
open to a single module. What is left then is the outcome of the scan. -/
theorem findType_insertLocation (h : archive.IsBare view) :
    ((environment.insertLocation position (.archive archive)).scan name filter).value view =
      (environment.scan name filter).value view ∧
    (¬ environment.LeadsSingle position (.archive archive) filter view →
      ((environment.insertLocation position (.archive archive)).findType name filter).value view =
        (environment.findType name filter).value view) ∧
    (environment.LeadsSingle position (.archive archive) filter view →
      ((environment.insertLocation position (.archive archive)).findType name filter).value view =
        ((environment.scan name filter).value view).answer?) := by
  refine ⟨value_scan_insertLocation h, ?_, ?_⟩
  · intro hleads
    have hfallback : (environment.insertLocation position (.archive archive)).fallback name filter
        view = environment.fallback name filter view := by
      unfold fallback
      rw [asksSourceFolder_insertLocation, value_secondary?_insertLocation h hleads]
      rfl
    rw [value_findType, value_findType, value_scan_insertLocation h, hfallback]
  · intro hleads
    have hfallback : (environment.insertLocation position (.archive archive)).fallback name filter
        view = none := by
      unfold fallback
      rw [value_secondary?_of_leads h hleads, ite_self]
    rw [value_findType, value_scan_insertLocation h, hfallback]
    cases (environment.scan name filter).value view <;> rfl

/-- A source folder, and beside it an archive without entries. -/
def bareJarDisk : Disk :=
  twoTypesDisk.put (.ofText "lib.jar") (.file (.archive []))

def bareJar : ClassArchive :=
  { handle := ⟨0, .ofText "lib.jar"⟩ }

def bazInSource : Environment :=
  .create (.build bareJarDisk [{ path := .ofText "src", role := .source }] ["jar"]) [] {}

def bareJarView : View :=
  bazInSource.locations.view bareJarDisk

theorem bareJar_content : bareJarView.archive? bareJar.handle = some (.ofEntries []) :=
  rfl

/-- Behind the source folder the archive changes nothing; before it, it hides a type that is
declared in a file named after another one. -/
theorem findType_insertLocation_bareJar :
    ((bazInSource.insertLocation 1 (.archive bareJar)).findType bazName (.only [⟨"m", []⟩])).value
        bareJarView =
      some ⟨.source (.file ⟨["src", "p", "Container.java"], false⟩ "Container"), none, none⟩ ∧
    ((bazInSource.insertLocation 0 (.archive bareJar)).findType bazName (.only [⟨"m", []⟩])).value
        bareJarView = none := by
  have hbare : bareJar.IsBare bareJarView := Or.inr bareJar_content
  constructor
  · rw [(findType_insertLocation hbare).2.1]
    · decide +kernel
    · rintro ⟨m, hsingle, -, hearlier⟩
      obtain rfl := Option.some.inj hsingle
      have hsource := hearlier (.source ⟨⟨["src"], false⟩, [], [], .all⟩) (by decide +kernel)
      simp [Location.servesModule, ModuleScope.serves] at hsource
  · rw [(findType_insertLocation hbare).2.2]
    · decide +kernel
    · exact ⟨⟨"m", []⟩, rfl, rfl, by simp⟩

theorem not_forall_findType_insertLocation :
    ¬ ∀ (environment : Environment) (name : TypeName) (filter : ModuleFilter) (view : View)
        (position : Nat) (archive : ClassArchive),
      view.archive? archive.handle = some (.ofEntries []) →
      ((environment.insertLocation position (.archive archive)).findType name filter).value view =
        (environment.findType name filter).value view := by
  intro hunchanged
  have hsame := hunchanged bazInSource bazName (.only [⟨"m", []⟩]) bareJarView 0 bareJar
    bareJar_content
  exact absurd hsame (by decide +kernel)

end Environment

end ClasspathLookup
