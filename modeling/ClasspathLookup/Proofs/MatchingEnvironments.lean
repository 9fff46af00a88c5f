import ClasspathLookup.Proofs.Histories
import ClasspathLookup.Proofs.MatchingLocations

/-!
# Matching environments

Two environments with the same open units and the same options, whose locations match one by one, are
asked with the same result, and what the one asks for is what the other asks for. A query is put
together from what its locations say, so this holds whichever way the two are seen.
-/

namespace ClasspathLookup

/-- The environments differ in their locations at most, and these match in order. -/
structure Environment.Matches (sides : Sides) (environment other : Environment) : Prop where
  overlay : environment.overlay = other.overlay
  options : environment.options = other.options
  locations : List.Forall₂ (Location.Matches (.exact sides)) environment.locations.locations
    other.locations.locations

open Sides

variable {sides : Sides} {environment other : Environment}

theorem Location.Matches.probe {location location' : Location}
    (h : location.Matches (.exact sides) location')
    (hoverlay : environment.overlay = other.overlay) (hoptions : environment.options = other.options)
    (name : TypeName) (filter : ModuleFilter) :
    sides.Agree Eq (environment.probe name filter location) (other.probe name filter location') := by
  unfold Environment.probe
  rw [← hoverlay, ← hoptions]
  apply (h.admitted filter).bind_eq
  intro descriptors
  have htype (paths : TypePaths) : sides.Agree Eq
      (Lookup.firstSome (fun m => location.type? paths m environment.options.sourceExtensions)
        descriptors)
      (Lookup.firstSome (fun m => location'.type? paths m environment.options.sourceExtensions)
        descriptors) :=
    .firstSome_eq (List.forall₂_same.2 fun m _ => h.type?_of_exact paths m _)
  -- Only a source folder is asked for open units, and it matches no other kind of location.
  cases h with
  | source h =>
    cases environment.overlay.find? name.path with
    | none => exact htype _
    | some copy => exact .pure rfl
  | classes h => exact htype _
  | archive h => exact htype _
  | packed h => exact htype _
  | image h modules => exact htype _

namespace Environment.Matches

theorem scan (h : environment.Matches sides other) (name : TypeName) (filter : ModuleFilter) :
    sides.Agree Eq (environment.scan name filter) (other.scan name filter) := by
  unfold Environment.scan
  rw [← h.options]
  apply Agree.scan
  exact h.locations.imp fun _ _ hlocation => hlocation.probe h.overlay h.options name filter

theorem asksSourceFolder (h : environment.Matches sides other) (filter : ModuleFilter) :
    environment.asksSourceFolder filter = other.asksSourceFolder filter := by
  unfold Environment.asksSourceFolder
  have hlocations := h.locations
  -- The induction is on the two lists of locations, so these are made free of the environments.
  generalize environment.locations.locations = locations at hlocations ⊢
  generalize other.locations.locations = locations' at hlocations ⊢
  induction hlocations with
  | nil => rfl
  | cons hlocation _ ih =>
    rw [List.any_cons, List.any_cons, ih]
    cases hlocation <;> cases filter <;> rfl

theorem secondary? (h : environment.Matches sides other) (name : TypeName)
    (filter : ModuleFilter) :
    sides.Agree Eq (environment.secondary? name filter) (other.secondary? name filter) := by
  unfold Environment.secondary?
  rw [← h.options]
  dsimp only
  cases filter.single? with
  | some m =>
    apply (Agree.find? (fun _ _ hlocation => hlocation.servesModule m.name) h.locations).bind
    rintro _ _ (hlocation | _)
    · exact hlocation.secondary?_of_exact _ _ _ _
    · exact .pure rfl
  | none =>
    apply Agree.firstSome_eq
    refine h.locations.imp fun location location' hlocation => ?_
    apply (hlocation.admitted filter).bind_eq
    intro descriptors
    apply Agree.firstSome_eq
    exact List.forall₂_same.2 fun m _ => hlocation.secondary?_of_exact _ _ m _

theorem findType (h : environment.Matches sides other) (name : TypeName) (filter : ModuleFilter) :
    sides.Agree Eq (environment.findType name filter) (other.findType name filter) := by
  unfold Environment.findType
  rw [← h.options, ← h.asksSourceFolder filter]
  apply (h.scan name filter).bind_eq
  rintro (answer | answer | _)
  · exact .pure rfl
  all_goals
    apply Agree.ite _ (.pure rfl)
    apply (h.secondary? name filter).bind_eq
    rintro (_ | second)
    · exact .pure rfl
    · exact .pure rfl

theorem isPackage (h : environment.Matches sides other) (package : String)
    (filter : ModuleFilter) :
    sides.Agree Eq (environment.isPackage package filter) (other.isPackage package filter) := by
  apply Agree.any
  refine h.locations.imp fun location location' hlocation => ?_
  apply (hlocation.admitted filter).bind_eq
  intro descriptors
  apply Agree.any
  exact List.forall₂_same.2 fun m _ => hlocation.isPackage_of_exact package m

theorem askLocation (h : environment.Matches sides other) (index : Nat)
    {ask : Location → Lookup Reply}
    (hask : ∀ location location', Location.Matches (.exact sides) location location' →
      sides.Agree Eq (ask location) (ask location')) :
    sides.Agree Eq (environment.askLocation index ask) (other.askLocation index ask) := by
  have hindex := h.locations.getElem? index
  unfold Environment.askLocation
  generalize environment.locations.locations[index]? = found at hindex ⊢
  generalize other.locations.locations[index]? = found' at hindex ⊢
  cases hindex with
  | none => exact .pure rfl
  | some hlocation => exact hask _ _ hlocation

/-- Whatever is asked, both environments reply the same. -/
theorem lookup (h : environment.Matches sides other) (query : Query) :
    sides.Agree Eq (environment.lookup query) (other.lookup query) := by
  cases query with
  | findType name filter => exact (h.findType name filter).bind_eq fun _ => .pure rfl
  | isPackage package filter => exact (h.isPackage package filter).bind_eq fun _ => .pure rfl
  | servesModule index module =>
    apply h.askLocation
    intro location location' hlocation
    exact (hlocation.servesModule module).bind_eq fun _ => .pure rfl
  | imageModules index =>
    apply h.askLocation
    intro location location' hlocation
    exact hlocation.imageModules_of_exact.bind_eq fun _ => .pure rfl

end Environment.Matches

end ClasspathLookup
