import ClasspathLookup.Proofs.OpenPrecedence

/-!
# Modules and the packages they serve

Both lookups of a location ask the descriptor they run under for the package, so a query for some
modules stays in the packages that these serve. An open unit is given without asking: in a source
folder that is open to one of the modules it stands for its type even where none of them serves the
package.
-/

namespace ClasspathLookup

namespace Location

variable {location : Location} {view : View} {m : Option ModuleDescriptor} {a : Answer}

theorem package_paths (location : Location) (name : TypeName) :
    (location.paths name).package = name.packagePath := by
  cases location <;> rfl

theorem mem_admitted_only {modules : List ModuleDescriptor} :
    m ∈ (location.admitted (.only modules)).value view ↔
      ∃ descriptor ∈ modules, (location.servesModule descriptor.name).value view = true ∧
        some descriptor = m := by
  simp [value_admitted, and_assoc]

theorem serves_of_type? {paths : TypePaths} {extensions : List String}
    (h : (location.type? paths m extensions).value view = some a) :
    m.all (·.serves paths.package) = true := by
  by_contra hserves
  simp [type?, hserves] at h

theorem serves_of_secondary? {type package : String} {extensions : List String}
    (h : (location.secondary? type package m extensions).value view = some a) :
    m.all (·.serves package) = true := by
  by_contra hserves
  simp [secondary?, hserves] at h

end Location

namespace Environment

variable (environment : Environment) (name : TypeName) (modules : List ModuleDescriptor)
  (view : View)

/-- A location answers under a module that it is open to and that serves the package. -/
def AnswersUnder (m : ModuleDescriptor) (a : Answer) : Prop :=
  m.serves name.packagePath = true ∧
    ∃ location ∈ environment.locations.locations,
      (location.servesModule m.name).value view = true ∧
      ((location.type? (location.paths name) (some m)
          environment.options.sourceExtensions).value view = some a ∨
        (location.secondary? name.simple name.packagePath (some m)
          environment.options.sourceExtensions).value view = some a)

/-- The unit of the type is open and stands in an eligible source folder. -/
def IsOpenAnswer (filter : ModuleFilter) (a : Answer) : Prop :=
  ∃ copy folder, environment.overlay.find? name.path = some copy ∧
    .source folder ∈ environment.eligible filter view ∧ a = copy.answer

/-- What a query for some modules finds is in a package that one of them serves. -/
def ConfinesPackages : Prop :=
  ∀ a, (environment.findType name (.only modules)).value view = some a →
    ∃ m ∈ modules, m.serves name.packagePath = true

variable {environment name modules view} {a : Answer}

theorem answersUnder_of_admitted {location : Location} {m : Option ModuleDescriptor}
    (hlocation : location ∈ environment.locations.locations)
    (hm : m ∈ (location.admitted (.only modules)).value view)
    (h : (location.type? (location.paths name) m
        environment.options.sourceExtensions).value view = some a ∨
      (location.secondary? name.simple name.packagePath m
        environment.options.sourceExtensions).value view = some a) :
    ∃ descriptor ∈ modules, environment.AnswersUnder name view descriptor a := by
  obtain ⟨descriptor, hmem, hserves, rfl⟩ := Location.mem_admitted_only.1 hm
  have hpackage : descriptor.serves name.packagePath = true := by
    rcases h with htype | hsecondary
    · rw [← location.package_paths name]
      exact Location.serves_of_type? htype
    · exact Location.serves_of_secondary? hsecondary
  exact ⟨descriptor, hmem, hpackage, location, hlocation, hserves, h⟩

theorem answersUnder_of_probe {location : Location}
    (hlocation : location ∈ environment.eligible (.only modules) view)
    (h : (environment.probe name (.only modules) location).value view = some a) :
    (∃ m ∈ modules, environment.AnswersUnder name view m a) ∨
      environment.IsOpenAnswer name view (.only modules) a := by
  rcases environment.probe_cases name location with ⟨folder, copy, rfl, hcopy⟩ | hopen
  · rw [environment.value_probe_of_open name _ view hcopy, if_pos (List.mem_filter.1 hlocation).2]
      at h
    exact Or.inr ⟨copy, folder, hcopy, hlocation, (Option.some.inj h).symm⟩
  · rw [environment.value_probe_of_not_open name _ view hopen] at h
    obtain ⟨m, hm, htype⟩ := List.exists_of_findSome?_eq_some h
    exact Or.inl (answersUnder_of_admitted (List.mem_filter.1 hlocation).1 hm (Or.inl htype))

/-- Every route but that of the open unit goes through a module that serves the package. -/
theorem answersUnder_of_findType
    (h : (environment.findType name (.only modules)).value view = some a) :
    (∃ m ∈ modules, environment.AnswersUnder name view m a) ∨
      environment.IsOpenAnswer name view (.only modules) a := by
  rcases scan_or_fallback_of_findType h with hscan | hfallback
  · obtain ⟨location, hlocation, hprobe⟩ := exists_probe_of_scan hscan
    exact answersUnder_of_probe hlocation hprobe
  · obtain ⟨location, hlocation, m, hm, hsecondary⟩ := exists_secondary_of_fallback hfallback
    exact Or.inl (answersUnder_of_admitted hlocation hm (Or.inr hsecondary))

/-- Where no module serves the package, nothing but the open unit is found. -/
theorem findType_eq_some_iff_of_not_serves
    (hnone : ¬ ∃ m ∈ modules, m.serves name.packagePath = true) :
    (environment.findType name (.only modules)).value view = some a ↔
      environment.IsOpenAnswer name view (.only modules) a := by
  have honly : ∀ b, (environment.findType name (.only modules)).value view = some b →
      environment.IsOpenAnswer name view (.only modules) b := by
    intro b hfind
    rcases answersUnder_of_findType hfind with ⟨m, hmem, hunder⟩ | hopen
    · exact absurd ⟨m, hmem, hunder.1⟩ hnone
    · exact hopen
  refine ⟨honly a, ?_⟩
  rintro ⟨copy, folder, hcopy, hfolder, rfl⟩
  obtain ⟨b, hscan, -⟩ := exists_found_of_open hcopy ⟨folder, hfolder⟩
  have hfind := findType_of_found hscan
  -- The open unit is the only answer there can be.
  obtain ⟨copy', -, hcopy', -, rfl⟩ := honly b hfind
  rw [hfind, Option.some.inj (hcopy.symm.trans hcopy')]

/-- A query is confined to the packages of its modules, by whichever lookup it finds its answer,
unless the unit of the type is open in an eligible source folder. -/
theorem confinesPackages_iff :
    (∀ a, (environment.findType name (.only modules)).value view = some a →
      (∃ m ∈ modules, environment.AnswersUnder name view m a) ∨
        environment.IsOpenAnswer name view (.only modules) a) ∧
    (environment.ConfinesPackages name modules view ↔
      (∃ m ∈ modules, m.serves name.packagePath = true) ∨
        ∀ a, ¬ environment.IsOpenAnswer name view (.only modules) a) := by
  refine ⟨fun a => answersUnder_of_findType, ?_, ?_⟩
  · intro hconfines
    by_contra hnot
    obtain ⟨hnone, hopen⟩ := not_or.1 hnot
    obtain ⟨a, ha⟩ := not_forall_not.1 hopen
    exact hnone (hconfines a ((findType_eq_some_iff_of_not_serves hnone).2 ha))
  · rintro (hserves | hnever) a hfind
    · exact hserves
    · rcases answersUnder_of_findType hfind with ⟨m, hmem, hunder⟩ | hopen
      · exact ⟨m, hmem, hunder.1⟩
      · exact absurd hopen (hnever a)

/-- A source folder of one module, with an open unit. -/
def fooInModule : Environment :=
  .create
    (.build fooDisk [{ path := .ofText "src", role := .source, module := some "app" }] ["jar"])
    [fooCopy] {}

/-- The open unit in `q` is found under a descriptor that lists `p` only. -/
theorem not_forall_confinesPackages :
    ¬ ∀ environment name modules view, ConfinesPackages environment name modules view := by
  intro hconfines
  have hfind : (fooInModule.findType fooName (.only [⟨"app", ["p"]⟩])).value
      (fooInModule.locations.view fooDisk) = some fooCopy.answer := by
    decide +kernel
  obtain ⟨m, hmem, hserves⟩ := hconfines fooInModule fooName _ _ _ hfind
  rw [List.mem_singleton.1 hmem] at hserves
  exact absurd hserves (by decide +kernel)

end Environment

end ClasspathLookup
