import ClasspathLookup.Proofs.Agreement

/-!
# Locations that are left out

The engine passes over a location that no module of the filter is open to, and a search for a single
module, which walks the whole set, stops only at a location that is open to it. A query is therefore
what it would be with the eligible locations alone, and queries agree as soon as these are alike,
whatever else stands between them and whatever that holds.
-/

namespace ClasspathLookup

theorem Location.admitted_eq_nil {location : Location} {filter : ModuleFilter} {view : View}
    (h : location.isEligible filter view = false) : (location.admitted filter).value view = [] := by
  simpa [h] using location.isEmpty_admitted filter view

namespace Environment

section Cut

variable (environment : Environment) (name : TypeName) (package : String) (filter : ModuleFilter)
  (view : View)

/-- The environment with its eligible locations alone. -/
def cut : Environment :=
  environment.withLocations (environment.eligible filter view)

theorem locations_cut : (environment.cut filter view).locations.locations =
    environment.locations.locations.filter (·.isEligible filter view) :=
  rfl

theorem eligible_cut :
    (environment.cut filter view).eligible filter view = environment.eligible filter view := by
  rw [eligible, locations_cut, List.filter_filter]
  simp only [Bool.and_self]
  rfl

theorem value_scan_cut : ((environment.cut filter view).scan name filter).value view =
    (environment.scan name filter).value view := by
  rw [value_scan, value_scan, answers, eligible_cut]
  rfl

theorem asksSourceFolder_cut :
    (environment.cut filter view).asksSourceFolder filter = environment.asksSourceFolder filter := by
  rw [Bool.eq_iff_iff, asksSourceFolder_iff _ filter view, asksSourceFolder_iff _ filter view,
    eligible_cut]

theorem value_secondary?_cut : ((environment.cut filter view).secondary? name filter).value view =
    (environment.secondary? name filter).value view := by
  cases hsingle : filter.single? with
  | some m =>
    have heligible (location : Location) : location.isEligible filter view =
        (location.servesModule m.name).value view := by
      obtain rfl := ModuleFilter.eq_only_of_single? hsingle
      simp [Location.isEligible]
    rw [value_secondary?_of_single hsingle, value_secondary?_of_single hsingle, locations_cut,
      List.find?_filter]
    simp only [heligible, and_self, Bool.decide_eq_true]
    rfl
  | none =>
    rw [value_secondary?_of_single_eq_none hsingle, value_secondary?_of_single_eq_none hsingle,
      locations_cut, List.findSome?_filter_of_none]
    · rfl
    · intro location hnot
      simp [Location.admitted_eq_nil hnot]

theorem value_findType_cut : ((environment.cut filter view).findType name filter).value view =
    (environment.findType name filter).value view := by
  have hfallback : (environment.cut filter view).fallback name filter view =
      environment.fallback name filter view := by
    unfold fallback
    rw [asksSourceFolder_cut, value_secondary?_cut]
    rfl
  rw [value_findType, value_findType, value_scan_cut, hfallback]

theorem value_isPackage_cut : ((environment.cut filter view).isPackage package filter).value view =
    (environment.isPackage package filter).value view := by
  simp only [isPackage, Lookup.value_any, Lookup.value_bind, locations_cut, List.any_filter]
  congr 1
  funext location
  cases h : location.isEligible filter view with
  | true => rfl
  | false =>
    rw [Location.admitted_eq_nil h]
    rfl

end Cut

variable {environment environment' : Environment} {filter : ModuleFilter} {view view' : View}

/-- Two environments with one overlay and the same options, whose eligible locations are alike in
order, give the same result to every query under the filter. -/
theorem findType_isPackage_of_eligible_alike
    (hoverlay : environment'.overlay = environment.overlay)
    (hoptions : environment'.options = environment.options)
    (h : List.Forall₂ (Location.Alike view view') (environment.eligible filter view)
      (environment'.eligible filter view')) :
    (∀ name, (environment'.findType name filter).value view' =
      (environment.findType name filter).value view) ∧
    ∀ package, (environment'.isPackage package filter).value view' =
      (environment.isPackage package filter).value view := by
  have hmatches : (environment.cut filter view).Matches (.views view view')
      (environment'.cut filter view') :=
    ⟨hoverlay.symm, hoptions.symm, h.imp fun _ _ halike => halike.matching⟩
  constructor
  · intro name
    rw [← environment.value_findType_cut name filter view,
      ← environment'.value_findType_cut name filter view']
    exact (Sides.views_agree_iff.1 (hmatches.findType name filter)).symm
  · intro package
    rw [← environment.value_isPackage_cut package filter view,
      ← environment'.value_isPackage_cut package filter view']
    exact (Sides.views_agree_iff.1 (hmatches.isPackage package filter)).symm

/-- An archive of one module, behind a class folder of another one. -/
def behindFolderDisk : Disk :=
  (Disk.empty.put (.ofText "lib.jar") (.file (.archive [⟨"p/Foo.class", some "jar".toUTF8⟩]))).put
    (.ofText "bin/p/Foo.class") (.file (.plain "bin".toUTF8))

def behindFolder : Environment :=
  .create
    (.build behindFolderDisk
      [{ path := .ofText "bin", module := some "other" },
        { path := .ofText "lib.jar", module := some "app" }] ["jar"]) [] {}

/-- The same archive, before a source folder and behind another archive of that module. -/
def betweenOthersDisk : Disk :=
  ((Disk.empty.put (.ofText "lib.jar") (.file (.archive [⟨"p/Foo.class", some "jar".toUTF8⟩]))).put
    (.ofText "other.jar") (.file (.archive [⟨"q/Bar.class", some "bar".toUTF8⟩]))).put
    (.ofText "src/p/Foo.java") (.file (.plain "class Foo".toUTF8))

def betweenOthers : Environment :=
  .create
    (.build betweenOthersDisk
      [{ path := .ofText "other.jar", module := some "other" },
        { path := .ofText "lib.jar", module := some "app" },
        { path := .ofText "src", role := .source, module := some "other" }] ["jar"]) [] {}

/-- The two disks agree in the archive alone, and it has another handle in each environment. -/
theorem findType_isPackage_of_eligible_alike_lib :
    let app : ModuleFilter := .only [⟨"app", []⟩]
    let foo : TypeName := ⟨["p"], "Foo", by decide, by decide⟩
    let view := behindFolder.locations.view behindFolderDisk
    let view' := betweenOthers.locations.view betweenOthersDisk
    behindFolder.locations.locations.length = 2 ∧ betweenOthers.locations.locations.length = 3 ∧
      List.Forall₂ (Location.Alike view view') (behindFolder.eligible app view)
        (betweenOthers.eligible app view') ∧
      (behindFolder.findType foo app).value view ≠ none ∧
      (betweenOthers.findType foo app).value view' =
        (behindFolder.findType foo app).value view := by
  intro app foo view view'
  have heligible : behindFolder.eligible app view =
      [.archive { handle := ⟨0, .ofText "lib.jar"⟩, scope := .named ["app"] }] := by
    decide +kernel
  have heligible' : betweenOthers.eligible app view' =
      [.archive { handle := ⟨1, .ofText "lib.jar"⟩, scope := .named ["app"] }] := by
    decide +kernel
  have hcontent : view.archive? ⟨0, .ofText "lib.jar"⟩ =
      some (.ofEntries [⟨"p/Foo.class", some "jar".toUTF8⟩]) := rfl
  have hcontent' : view'.archive? ⟨1, .ofText "lib.jar"⟩ =
      some (.ofEntries [⟨"p/Foo.class", some "jar".toUTF8⟩]) := rfl
  have halike : List.Forall₂ (Location.Alike view view') (behindFolder.eligible app view)
      (betweenOthers.eligible app view') := by
    rw [heligible, heligible']
    exact .cons (.archive (.of_archive rfl (hcontent.trans hcontent'.symm))) .nil
  have hagree : (∀ name, (betweenOthers.findType name app).value view' =
      (behindFolder.findType name app).value view) ∧
      ∀ package, (betweenOthers.isPackage package app).value view' =
        (behindFolder.isPackage package app).value view :=
    findType_isPackage_of_eligible_alike rfl rfl halike
  exact ⟨by decide +kernel, by decide +kernel, halike, by decide +kernel, hagree.1 foo⟩

end Environment

end ClasspathLookup
