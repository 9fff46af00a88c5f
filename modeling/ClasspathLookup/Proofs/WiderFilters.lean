import ClasspathLookup.Proofs.NotFound
import ClasspathLookup.Proofs.OpenUnits
import Mathlib.Tactic.ByContra

/-!
# Wider filters

A filter with more modules, or no filter at all, admits every location under the same descriptors
and possibly under others, or under none. What a location answers under a descriptor it also answers
without one, so a wider filter still finds something, though perhaps another answer. The search of a
single module asks one location only; no filter is narrower than that and still finds something.
-/

namespace ClasspathLookup

/-- The second filter has the modules of the first and possibly more between them, or is open to
all. -/
inductive ModuleFilter.Widens : ModuleFilter → ModuleFilter → Prop
  | all (modules : List ModuleDescriptor) : Widens (.only modules) .all
  | only {modules more : List ModuleDescriptor} (h : modules.Sublist more) :
      Widens (.only modules) (.only more)

namespace ModuleImage

theorem mem_modules_of_mem_modulesFor {image : ModuleImage} {view : View} {module : String}
    {m : Option ModuleDescriptor} (h : module ∈ (image.modulesFor m).value view) :
    module ∈ (image.modulesFor none).value view := by
  rw [value_modulesFor, List.mem_filter] at h ⊢
  exact ⟨h.1, rfl⟩

end ModuleImage

namespace Location

variable {location : Location} {view : View} {name : TypeName} {m : Option ModuleDescriptor}
  {extensions : List String} {type package : String} {narrow wide : ModuleFilter}

theorem HoldsType.without_descriptor (h : location.HoldsType name m extensions view) :
    location.HoldsType name none extensions view := by
  cases location with
  | source l => exact h
  | classes l => exact h
  | archive l => exact h
  | image l =>
    obtain ⟨module, hmem, hread⟩ := h
    exact ⟨module, ModuleImage.mem_modules_of_mem_modulesFor hmem, hread⟩

theorem mem_packageFolders_without_descriptor {folder : String}
    (h : folder ∈ location.packageFolders package m view) :
    folder ∈ location.packageFolders package none view := by
  cases location with
  | source l => exact h
  | classes l => exact h
  | archive l => exact h
  | image l =>
    obtain ⟨module, hmem, rfl⟩ := List.mem_map.1 h
    exact List.mem_map_of_mem (ModuleImage.mem_modules_of_mem_modulesFor hmem)

theorem type?_without_descriptor
    (h : (location.type? (location.paths name) m extensions).value view ≠ none) :
    (location.type? (location.paths name) none extensions).value view ≠ none :=
  type?_ne_none_iff.2 ⟨rfl, (type?_ne_none_iff.1 h).2.without_descriptor⟩

theorem secondary?_without_descriptor
    (h : (location.secondary? type package m extensions).value view ≠ none) :
    (location.secondary? type package none extensions).value view ≠ none := by
  obtain ⟨-, folder, hfolder, hdeclares⟩ := secondary?_ne_none_iff.1 h
  exact secondary?_ne_none_iff.2
    ⟨rfl, folder, mem_packageFolders_without_descriptor hfolder, hdeclares⟩

theorem isPackage_without_descriptor (h : (location.isPackage package m).value view = true) :
    (location.isPackage package none).value view = true := by
  simp only [isPackage, Lookup.value_ite, Lookup.value_pure] at h
  split at h
  · simp only [isPackage, Option.all_none, if_true]
    cases location with
    | source l => exact h
    | classes l => exact h
    | archive l => exact h
    | image l =>
      simp only [Lookup.value_bind, Lookup.value_any, List.any_eq_true] at h ⊢
      obtain ⟨module, hmem, hfolder⟩ := h
      exact ⟨module, ModuleImage.mem_modules_of_mem_modulesFor hmem, hfolder⟩
  · cases h

/-- A wider filter admits a location under the same descriptor or under none. -/
theorem exists_admitted_of_widens (h : narrow.Widens wide)
    (hm : m ∈ (location.admitted narrow).value view) :
    ∃ other ∈ (location.admitted wide).value view, other = m ∨ other = none := by
  cases h with
  | all modules => exact ⟨none, List.mem_singleton_self none, Or.inr rfl⟩
  | @only modules more h =>
    rw [value_admitted] at hm
    obtain ⟨descriptor, hserved, rfl⟩ := List.mem_map.1 hm
    obtain ⟨hmem, hserves⟩ := List.mem_filter.1 hserved
    refine ⟨some descriptor, ?_, Or.inl rfl⟩
    rw [value_admitted]
    exact List.mem_map_of_mem (List.mem_filter.2 ⟨h.subset hmem, hserves⟩)

theorem isEligible_of_widens (h : narrow.Widens wide)
    (heligible : location.isEligible narrow view = true) :
    location.isEligible wide view = true := by
  cases h with
  | all modules => rfl
  | only h =>
    obtain ⟨descriptor, hmem, hserves⟩ := List.any_eq_true.1 heligible
    exact List.any_eq_true.2 ⟨descriptor, h.subset hmem, hserves⟩

/-- What is answered under some descriptor of a filter is answered under some of a wider one. -/
theorem findSome?_admitted_of_widens {ask : Option ModuleDescriptor → Option Answer}
    (h : narrow.Widens wide) (hm : m ∈ (location.admitted narrow).value view)
    (hanswer : ask m ≠ none) (hask : ask m ≠ none → ask none ≠ none) :
    ((location.admitted wide).value view).findSome? ask ≠ none := by
  obtain ⟨other, hmem, hother⟩ := exists_admitted_of_widens h hm
  rw [ne_eq, List.findSome?_eq_none_iff]
  intro hnone
  rcases hother with rfl | rfl
  · exact hanswer (hnone other hmem)
  · exact hask hanswer (hnone none hmem)

end Location

namespace Environment

variable {environment : Environment} {name : TypeName} {package : String} {view : View}
  {narrow wide : ModuleFilter} {modules more : List ModuleDescriptor}

theorem probe_ne_none_of_widens (h : narrow.Widens wide) {location : Location}
    (hprobe : (environment.probe name narrow location).value view ≠ none) :
    (environment.probe name wide location).value view ≠ none := by
  rcases environment.probe_cases name location with ⟨folder, copy, rfl, hcopy⟩ | hopen
  · rw [environment.value_probe_of_open name _ view hcopy] at hprobe ⊢
    have heligible : (Location.source folder).isEligible narrow view = true := by
      by_contra hnot
      rw [if_neg hnot] at hprobe
      exact hprobe rfl
    rw [if_pos (Location.isEligible_of_widens h heligible)]
    exact Option.some_ne_none _
  · rw [environment.value_probe_of_not_open name _ view hopen] at hprobe ⊢
    rw [ne_eq, List.findSome?_eq_none_iff] at hprobe
    simp only [not_forall] at hprobe
    obtain ⟨m, hm, hanswer⟩ := hprobe
    exact Location.findSome?_admitted_of_widens h hm hanswer Location.type?_without_descriptor

theorem eligible_subset_of_widens (h : narrow.Widens wide) :
    environment.eligible narrow view ⊆ environment.eligible wide view := by
  intro location hlocation
  obtain ⟨hmem, heligible⟩ := List.mem_filter.1 hlocation
  exact List.mem_filter.2 ⟨hmem, Location.isEligible_of_widens h heligible⟩

/-- A filter that the single module of another widens to is that filter, or admits nothing. -/
theorem eq_or_admitted_eq_nil_of_single {m : ModuleDescriptor} (h : narrow.Widens wide)
    (hsingle : wide.single? = some m) :
    narrow = wide ∨ ∀ location : Location, (location.admitted narrow).value view = [] := by
  obtain rfl := ModuleFilter.eq_only_of_single? hsingle
  cases h with
  | only h =>
    rcases List.sublist_cons_iff.1 h with hnil | ⟨rest, rfl, hnil⟩
    · rw [List.sublist_nil.1 hnil]
      exact Or.inr fun location => location.value_admitted _ view
    · rw [List.sublist_nil.1 hnil]
      exact Or.inl rfl

theorem fallback_ne_none_of_widens (h : narrow.Widens wide)
    (hfallback : environment.fallback name narrow view ≠ none) :
    environment.fallback name wide view ≠ none := by
  obtain ⟨a, ha⟩ := Option.ne_none_iff_exists'.1 hfallback
  obtain ⟨location, hmem, m, hm, hanswer⟩ := exists_secondary_of_fallback ha
  unfold fallback at hfallback ⊢
  rw [ne_eq, ite_eq_right_iff, Classical.not_imp, Bool.and_eq_true] at hfallback ⊢
  obtain ⟨⟨hwanted, hasks⟩, hnarrow⟩ := hfallback
  obtain ⟨folder, hfolder⟩ := (environment.asksSourceFolder_iff narrow view).1 hasks
  refine ⟨⟨hwanted, (environment.asksSourceFolder_iff wide view).2
    ⟨folder, eligible_subset_of_widens h hfolder⟩⟩, ?_⟩
  cases hsingle : wide.single? with
  | some single =>
    rcases eq_or_admitted_eq_nil_of_single h hsingle with rfl | hnothing
    · exact hnarrow
    · rw [hnothing location] at hm
      cases hm
  | none =>
    have hsome := Option.ne_none_iff_exists'.2 ⟨a, hanswer⟩
    rw [value_secondary?_of_single_eq_none hsingle, List.findSome?_eq_none_iff]
    intro hnone
    exact Location.findSome?_admitted_of_widens h hm hsome Location.secondary?_without_descriptor
      (hnone location hmem)

theorem findType_ne_none_of_widens (h : narrow.Widens wide)
    (hfind : (environment.findType name narrow).value view ≠ none) :
    (environment.findType name wide).value view ≠ none := by
  intro hnone
  obtain ⟨hprobe, hfallback⟩ := findType_eq_none_iff.1 hnone
  apply hfind
  rw [findType_eq_none_iff]
  constructor
  · intro location hlocation
    by_contra hanswer
    exact probe_ne_none_of_widens h hanswer
      (hprobe location (eligible_subset_of_widens h hlocation))
  · by_contra hanswer
    exact fallback_ne_none_of_widens h hanswer hfallback

theorem isPackage_iff {filter : ModuleFilter} :
    (environment.isPackage package filter).value view = true ↔
      ∃ location ∈ environment.locations.locations, ∃ m ∈ (location.admitted filter).value view,
        (location.isPackage package m).value view = true := by
  simp only [isPackage, Lookup.value_any, Lookup.value_bind, List.any_eq_true]

theorem isPackage_of_widens (h : narrow.Widens wide)
    (hpackage : (environment.isPackage package narrow).value view = true) :
    (environment.isPackage package wide).value view = true := by
  rw [isPackage_iff] at hpackage ⊢
  obtain ⟨location, hmem, m, hm, hpackage⟩ := hpackage
  obtain ⟨other, hother, heq | hnone⟩ := Location.exists_admitted_of_widens h hm
  · exact ⟨location, hmem, other, hother, heq ▸ hpackage⟩
  · exact ⟨location, hmem, other, hother,
      hnone ▸ Location.isPackage_without_descriptor hpackage⟩

/-- A query that finds something, or a package, under some modules does so under more modules and
without a filter. -/
theorem findType_isPackage_of_sublist (h : modules.Sublist more) :
    ((environment.findType name (.only modules)).value view ≠ none →
      (environment.findType name (.only more)).value view ≠ none ∧
        (environment.findType name .all).value view ≠ none) ∧
    ((environment.isPackage package (.only modules)).value view = true →
      (environment.isPackage package (.only more)).value view = true ∧
        (environment.isPackage package .all).value view = true) := by
  constructor
  · intro hfind
    exact ⟨findType_ne_none_of_widens (.only h) hfind,
      findType_ne_none_of_widens (.all modules) hfind⟩
  · intro hpackage
    exact ⟨isPackage_of_widens (.only h) hpackage, isPackage_of_widens (.all modules) hpackage⟩

/-- A source folder of one module, in which a file declares a second type. -/
def bazInModule : Environment :=
  .create
    (.build twoTypesDisk [{ path := .ofText "src", role := .source, module := some "app" }] ["jar"])
    [] {}

theorem findType_isPackage_of_sublist_baz :
    let view := bazInModule.locations.view twoTypesDisk
    let app : ModuleDescriptor := ⟨"app", ["p"]⟩
    let more : List ModuleDescriptor := [⟨"lib", []⟩, app]
    [app].Sublist more ∧ (bazInModule.findType bazName (.only [app])).value view ≠ none ∧
      (bazInModule.isPackage "p" (.only [app])).value view = true ∧
      (bazInModule.findType bazName (.only more)).value view ≠ none ∧
      (bazInModule.isPackage "p" (.only more)).value view = true := by
  intro view app more
  have hsublist : [app].Sublist more := List.sublist_cons_self _ _
  have hfind : (bazInModule.findType bazName (.only [app])).value view ≠ none := by
    decide +kernel
  have hpackage : (bazInModule.isPackage "p" (.only [app])).value view = true := by
    decide +kernel
  have hwide : ((bazInModule.findType bazName (.only [app])).value view ≠ none →
      (bazInModule.findType bazName (.only more)).value view ≠ none ∧
        (bazInModule.findType bazName .all).value view ≠ none) ∧
      ((bazInModule.isPackage "p" (.only [app])).value view = true →
        (bazInModule.isPackage "p" (.only more)).value view = true ∧
          (bazInModule.isPackage "p" .all).value view = true) :=
    findType_isPackage_of_sublist hsublist
  exact ⟨hsublist, hfind, hpackage, (hwide.1 hfind).1, (hwide.2 hpackage).1⟩

end Environment

end ClasspathLookup
