import ClasspathLookup.Environment.Basic
import ClasspathLookup.Proofs.Outcome

/-!
# A query by its answers

The filter makes some locations eligible, and a scan depends only on what these answer, in the order
of the set. The value of a query is given here in these terms, so that nothing later has to look at
how a scan goes from location to location.
-/

namespace ClasspathLookup

/-- The answer that an open unit stands for. -/
def WorkingCopy.answer (copy : WorkingCopy) : Answer :=
  ⟨.source (.workingCopy copy), none, none⟩

theorem ModuleFilter.eq_only_of_single? {filter : ModuleFilter} {m : ModuleDescriptor}
    (h : filter.single? = some m) : filter = .only [m] := by
  unfold single? at h
  split at h
  · rw [Option.some.inj h]
  · simp at h

namespace Location

/-- Whether some module of the filter is served. -/
def isEligible (location : Location) (filter : ModuleFilter) (view : View) : Bool :=
  match filter with
  | .all => true
  | .only modules => modules.any fun m => (location.servesModule m.name).value view

/-- The paths of a type in the style of the location. -/
def paths (location : Location) (name : TypeName) : TypePaths :=
  match location with
  | .source _ => .source name
  | .classes _ | .archive _ | .image _ => .binary name

variable (location : Location) (filter : ModuleFilter) (view : View)

theorem value_admitted : (location.admitted filter).value view =
    match filter with
    | .all => [none]
    | .only modules =>
      (modules.filter fun m => (location.servesModule m.name).value view).map some := by
  cases filter <;> simp [admitted]

theorem isEmpty_admitted :
    ((location.admitted filter).value view).isEmpty = !location.isEligible filter view := by
  rw [value_admitted, Bool.eq_iff_iff]
  cases filter <;> simp [isEligible, List.filter_eq_nil_iff]

theorem isEligible_of_mem_admitted {m : Option ModuleDescriptor}
    (hm : m ∈ (location.admitted filter).value view) : location.isEligible filter view = true := by
  have hne := List.isEmpty_eq_false_iff.2 (List.ne_nil_of_mem hm)
  rw [isEmpty_admitted] at hne
  simpa using hne

end Location

namespace Environment

variable (environment : Environment) (name : TypeName) (filter : ModuleFilter) (view : View)

def eligible : List Location :=
  environment.locations.locations.filter (·.isEligible filter view)

/-- What the eligible locations answer, in order. -/
def answers : List Answer :=
  (environment.eligible filter view).filterMap fun location =>
    (environment.probe name filter location).value view

/-- What the search of other source files finds, where it takes place. -/
def fallback : Option Answer :=
  if environment.options.secondary && environment.asksSourceFolder filter then
    (environment.secondary? name filter).value view
  else none

/-- The environment with other locations. -/
def withLocations (locations : List Location) : Environment :=
  { environment with locations := { environment.locations with locations := locations } }

def withPolicy (policy : ScanPolicy) : Environment :=
  { environment with options := { environment.options with scanPolicy := policy } }

/-- An open unit stands for its type in every eligible source folder. -/
theorem value_probe_of_open {copy : WorkingCopy} {folder : SourceFolder}
    (h : environment.overlay.find? name.path = some copy) :
    (environment.probe name filter (.source folder)).value view =
      if (Location.source folder).isEligible filter view then some copy.answer else none := by
  unfold probe
  rw [h]
  simp only [Lookup.value_bind, Lookup.value_pure, Location.isEmpty_admitted]
  cases (Location.source folder).isEligible filter view <;> rfl

theorem value_probe_of_not_open {location : Location}
    (h : location.kind = .sourceFolder → environment.overlay.find? name.path = none) :
    (environment.probe name filter location).value view =
      ((location.admitted filter).value view).findSome? fun m =>
        (location.type? (location.paths name) m environment.options.sourceExtensions).value
          view := by
  unfold probe
  cases location with
  | source folder =>
    rw [h rfl]
    simp [Location.paths]
  | classes folder => simp [Location.paths]
  | archive archive => simp [Location.paths]
  | image image => simp [Location.paths]

/-- Either an open unit answers or the location itself. -/
theorem probe_cases (location : Location) :
    (∃ folder copy, location = .source folder ∧ environment.overlay.find? name.path = some copy) ∨
      (location.kind = .sourceFolder → environment.overlay.find? name.path = none) := by
  cases location with
  | source folder =>
    cases h : environment.overlay.find? name.path with
    | none => exact Or.inr fun _ => rfl
    | some copy => exact Or.inl ⟨folder, copy, rfl, rfl⟩
  | classes folder => exact Or.inr fun h => by cases h
  | archive archive => exact Or.inr fun h => by cases h
  | image image => exact Or.inr fun h => by cases h

theorem value_probe_of_not_eligible {location : Location}
    (h : location.isEligible filter view = false) :
    (environment.probe name filter location).value view = none := by
  rcases environment.probe_cases name location with ⟨folder, copy, rfl, hcopy⟩ | hopen
  · rw [environment.value_probe_of_open name filter view hcopy, if_neg (by simp [h])]
  · have hnone : (location.admitted filter).value view = [] := by
      simpa [h] using location.isEmpty_admitted filter view
    rw [environment.value_probe_of_not_open name filter view hopen, hnone]
    rfl

/-- The outcome of a scan is the outcome on the answers. -/
theorem value_scan : (environment.scan name filter).value view =
    environment.options.scanPolicy.outcome none (environment.answers name filter view) := by
  unfold scan answers eligible
  rw [ScanPolicy.value_scan, List.filterMap_filter]
  congr 2
  funext location
  cases h : location.isEligible filter view with
  | true => simp
  | false => simp [environment.value_probe_of_not_eligible name filter view h]

/-- What the scan finds is the answer; a suggestion comes after what the other source files of the
package declare. -/
theorem value_findType : (environment.findType name filter).value view =
    match (environment.scan name filter).value view with
    | .found answer => some answer
    | .suggested answer => (environment.fallback name filter view).or (some answer)
    | .missing => environment.fallback name filter view := by
  unfold findType fallback
  simp only [Lookup.value_bind]
  cases (environment.scan name filter).value view with
  | found answer => rfl
  | suggested answer =>
    simp only [Lookup.value_ite, Lookup.value_bind, Lookup.value_pure]
    split
    · cases (environment.secondary? name filter).value view <;> rfl
    · rfl
  | missing =>
    simp only [Lookup.value_ite, Lookup.value_bind, Lookup.value_pure]
    split
    · cases (environment.secondary? name filter).value view <;> rfl
    · rfl

/-- A source folder takes part when one is eligible. -/
theorem asksSourceFolder_iff : environment.asksSourceFolder filter = true ↔
    ∃ folder, Location.source folder ∈ environment.eligible filter view := by
  unfold asksSourceFolder eligible
  simp only [List.any_eq_true, List.mem_filter]
  constructor
  · rintro ⟨location, hmem, h⟩
    cases location with
    | source folder => exact ⟨folder, hmem, by cases filter <;> exact h⟩
    | classes folder => cases filter <;> cases h
    | archive archive => cases filter <;> cases h
    | image image => cases filter <;> cases h
  · rintro ⟨folder, hmem, h⟩
    exact ⟨.source folder, hmem, by cases filter <;> exact h⟩

variable {environment name filter view}

theorem findType_of_found {a : Answer} (h : (environment.scan name filter).value view = .found a) :
    (environment.findType name filter).value view = some a := by
  rw [value_findType, h]

theorem findType_of_not_found
    (h : ∀ a, (environment.scan name filter).value view ≠ .found a) :
    (environment.findType name filter).value view =
      (environment.fallback name filter view).or
        ((environment.scan name filter).value view).answer? := by
  rw [value_findType]
  cases ho : (environment.scan name filter).value view with
  | found a => exact absurd ho (h a)
  | suggested a => rfl
  | missing => exact Option.or_none.symm

/-- Where the answer to a query comes from. -/
theorem findType_cases {a : Answer}
    (h : (environment.findType name filter).value view = some a) :
    (environment.scan name filter).value view = .found a ∨
      (∀ b, (environment.scan name filter).value view ≠ .found b) ∧
        (environment.fallback name filter view = some a ∨
          ((environment.scan name filter).value view).answer? = some a) := by
  by_cases hfound : ∃ b, (environment.scan name filter).value view = .found b
  · obtain ⟨b, hb⟩ := hfound
    rw [findType_of_found hb] at h
    exact Or.inl (Option.some.inj h ▸ hb)
  · have hnot : ∀ b, (environment.scan name filter).value view ≠ .found b :=
      fun b hb => hfound ⟨b, hb⟩
    rw [findType_of_not_found hnot, Option.or_eq_some_iff] at h
    exact Or.inr ⟨hnot, h.imp_right And.right⟩

theorem mem_answers {a : Answer} : a ∈ environment.answers name filter view ↔
    ∃ location ∈ environment.eligible filter view,
      (environment.probe name filter location).value view = some a :=
  List.mem_filterMap

theorem exists_probe_of_scan {a : Answer}
    (h : ((environment.scan name filter).value view).answer? = some a) :
    ∃ location ∈ environment.eligible filter view,
      (environment.probe name filter location).value view = some a := by
  rw [value_scan] at h
  exact mem_answers.1 (ScanPolicy.mem_of_outcome h)

theorem scan_or_fallback_of_findType {a : Answer}
    (h : (environment.findType name filter).value view = some a) :
    ((environment.scan name filter).value view).answer? = some a ∨
      environment.fallback name filter view = some a := by
  rcases findType_cases h with hfound | ⟨-, hfallback | hsuggested⟩
  · exact Or.inl (by rw [hfound]; rfl)
  · exact Or.inr hfallback
  · exact Or.inl hsuggested

theorem value_secondary?_of_single {m : ModuleDescriptor} (h : filter.single? = some m) :
    (environment.secondary? name filter).value view =
      (environment.locations.locations.find? fun location =>
        (location.servesModule m.name).value view).bind fun location =>
          (location.secondary? name.simple name.packagePath (some m)
            environment.options.sourceExtensions).value view := by
  unfold secondary?
  simp only [h, Lookup.value_bind, Lookup.value_find?]
  cases environment.locations.locations.find? fun location =>
    (location.servesModule m.name).value view with
  | none => rfl
  | some location => rfl

theorem value_secondary?_of_single_eq_none (h : filter.single? = none) :
    (environment.secondary? name filter).value view =
      environment.locations.locations.findSome? fun location =>
        ((location.admitted filter).value view).findSome? fun m =>
          (location.secondary? name.simple name.packagePath m
            environment.options.sourceExtensions).value view := by
  unfold secondary?
  simp only [h, Lookup.value_firstSome, Lookup.value_bind]

theorem exists_secondary_of_fallback {a : Answer}
    (h : environment.fallback name filter view = some a) :
    ∃ location ∈ environment.locations.locations, ∃ m ∈ (location.admitted filter).value view,
      (location.secondary? name.simple name.packagePath m
        environment.options.sourceExtensions).value view = some a := by
  unfold fallback at h
  split at h
  · cases hsingle : filter.single? with
    | some m =>
      rw [value_secondary?_of_single hsingle, Option.bind_eq_some_iff] at h
      obtain ⟨location, hfind, h⟩ := h
      obtain rfl := ModuleFilter.eq_only_of_single? hsingle
      have hserves := List.find?_some hfind
      refine ⟨location, List.mem_of_find?_eq_some hfind, some m, ?_, h⟩
      simp [Location.value_admitted, hserves]
    | none =>
      rw [value_secondary?_of_single_eq_none hsingle] at h
      obtain ⟨location, hmem, h⟩ := List.exists_of_findSome?_eq_some h
      obtain ⟨m, hm, h⟩ := List.exists_of_findSome?_eq_some h
      exact ⟨location, hmem, m, hm, h⟩
  · simp at h

theorem exists_eligible_secondary_of_fallback {a : Answer}
    (h : environment.fallback name filter view = some a) :
    ∃ location ∈ environment.eligible filter view, ∃ m ∈ (location.admitted filter).value view,
      (location.secondary? name.simple name.packagePath m
        environment.options.sourceExtensions).value view = some a := by
  obtain ⟨location, hmem, m, hm, hsecondary⟩ := exists_secondary_of_fallback h
  have heligible := location.isEligible_of_mem_admitted filter view hm
  exact ⟨location, List.mem_filter.2 ⟨hmem, heligible⟩, m, hm, hsecondary⟩

end Environment

end ClasspathLookup
