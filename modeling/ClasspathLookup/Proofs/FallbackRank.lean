import ClasspathLookup.Proofs.OpenUnits

/-!
# The rank of what is given after a suggestion

A source file that declares the type is given before the suggestion of the scan, and without
comparing the two. Source folders and images put no restriction on it, so it outranks any
suggestion. Class folders and archives put their own rules on the source files that they hold. Only
such an answer can stand below the suggestion that it takes the place of.
-/

namespace ClasspathLookup

namespace Location

variable {location : Location} {view : View} {name : TypeName} {m : Option ModuleDescriptor}
  {extensions : List String} {a : Answer}

/-- The rules that a location puts on its answers; source folders and images have none. -/
def rules : Location → AccessRules
  | .classes l => l.rules
  | .archive l => l.rules
  | .source _ | .image _ => {}

/-- A file of the package is restricted by the rule for the type and not by one for itself. -/
theorem restriction_of_secondary?
    (h : (location.secondary? name.simple name.packagePath m extensions).value view = some a) :
    a.restriction = location.rules.restriction? name.path := by
  simp only [secondary?, Lookup.value_ite, Lookup.value_pure, ← name.path_eq_below] at h
  split at h
  · cases location with
    | source folder =>
      obtain ⟨file, stem, text, -, rfl⟩ := Storage.exists_declares_of_secondary? h
      rfl
    | classes folder =>
      simp only [Lookup.value_bind, Lookup.value_pure, Option.map_eq_some_iff] at h
      obtain ⟨b, -, rfl⟩ := h
      rfl
    | archive archive =>
      simp only [Lookup.value_bind, Lookup.value_pure, Option.map_eq_some_iff] at h
      obtain ⟨b, -, rfl⟩ := h
      rfl
    | image image =>
      simp only [Lookup.value_bind, Lookup.value_firstSome] at h
      obtain ⟨module, -, h⟩ := List.exists_of_findSome?_eq_some h
      simp only [ModuleImage.secondaryIn?, Lookup.value_bind, Lookup.value_pure,
        Option.map_eq_some_iff] at h
      obtain ⟨b, hb, rfl⟩ := h
      obtain ⟨file, stem, text, -, rfl⟩ := Storage.exists_declares_of_secondary? hb
      rfl
  · simp at h

/-- Only class folders and archives restrict anything. -/
theorem kind_of_restricted (h : location.rules.restriction? name.path ≠ none) :
    location.kind = .classFolder ∨ location.kind = .archive := by
  cases location with
  | source folder => exact absurd rfl h
  | classes folder => exact Or.inl rfl
  | archive archive => exact Or.inr rfl
  | image image => exact absurd rfl h

end Location

theorem Answer.restriction_ne_none_of_height_lt {a b : Answer} (h : a.height < b.height) :
    a.restriction ≠ none := by
  intro hnone
  have htop := Answer.height_of_unrestricted hnone
  have hle := b.height_le
  omega

namespace Environment

variable (environment : Environment) (name : TypeName) (filter : ModuleFilter) (view : View)

/-- An answer of the search of other source files from an eligible class folder or archive, whose
rules restrict the type. -/
def IsRestrictedUnit (a : Answer) : Prop :=
  environment.fallback name filter view = some a ∧
    ∃ location ∈ environment.eligible filter view,
      (location.kind = .classFolder ∨ location.kind = .archive) ∧
      (∃ m ∈ (location.admitted filter).value view,
        (location.secondary? name.simple name.packagePath m
          environment.options.sourceExtensions).value view = some a) ∧
      location.rules.restriction? name.path = a.restriction ∧ a.restriction ≠ none

/-- A query never gives less than the scan ended with. -/
def NeverWorse : Prop :=
  ∀ b, ((environment.scan name filter).value view).answer? = some b →
    ∃ a, (environment.findType name filter).value view = some a ∧ b.height ≤ a.height

variable {environment name filter view} {a b : Answer}

theorem isRestrictedUnit_of_fallback (h : environment.fallback name filter view = some a)
    (hrestricted : a.restriction ≠ none) : environment.IsRestrictedUnit name filter view a := by
  obtain ⟨location, heligible, m, hm, hsecondary⟩ := exists_eligible_secondary_of_fallback h
  have hrules := Location.restriction_of_secondary? hsecondary
  refine ⟨h, location, heligible, ?_, ⟨m, hm, hsecondary⟩, hrules.symm, hrestricted⟩
  exact Location.kind_of_restricted (hrules ▸ hrestricted)

theorem findType_of_suggested
    (h : (environment.scan name filter).value view = .suggested b) :
    (environment.findType name filter).value view =
      some ((environment.fallback name filter view).getD b) := by
  rw [value_findType, h]
  cases environment.fallback name filter view <;> rfl

theorem isRestrictedUnit_of_height_lt
    (hlt : ((environment.fallback name filter view).getD b).height < b.height) :
    environment.IsRestrictedUnit name filter view
      ((environment.fallback name filter view).getD b) := by
  cases hfallback : environment.fallback name filter view with
  | none => simp [hfallback] at hlt
  | some a =>
    rw [hfallback, Option.getD_some] at hlt
    exact isRestrictedUnit_of_fallback hfallback (Answer.restriction_ne_none_of_height_lt hlt)

/-- What a scan found is given as it is. A suggestion gives way to the first source file that
declares the type, whatever its rank, and to nothing else. The query then gives less than the scan
exactly when that file stands below the suggestion, and it does so only under the rules of the class
folder or archive that holds it. -/
theorem findType_height_of_scan :
    (∀ b, (environment.scan name filter).value view = .found b →
      (environment.findType name filter).value view = some b) ∧
    (∀ b, (environment.scan name filter).value view = .suggested b →
      ∃ a, (environment.findType name filter).value view = some a ∧
        (environment.fallback name filter view = some a ∨
          environment.fallback name filter view = none ∧ a = b) ∧
        (b.height ≤ a.height ∨ environment.IsRestrictedUnit name filter view a)) ∧
    (environment.NeverWorse name filter view ↔
      ∀ a b, (environment.scan name filter).value view = .suggested b →
        environment.IsRestrictedUnit name filter view a → b.height ≤ a.height) := by
  have hsuggested : ∀ b, (environment.scan name filter).value view = .suggested b →
      ∃ a, (environment.findType name filter).value view = some a ∧
        (environment.fallback name filter view = some a ∨
          environment.fallback name filter view = none ∧ a = b) ∧
        (b.height ≤ a.height ∨ environment.IsRestrictedUnit name filter view a) := by
    intro b hscan
    refine ⟨_, findType_of_suggested hscan, ?_, ?_⟩
    · cases environment.fallback name filter view with
      | none => exact Or.inr ⟨rfl, rfl⟩
      | some a => exact Or.inl rfl
    · by_cases hle : b.height ≤ ((environment.fallback name filter view).getD b).height
      · exact Or.inl hle
      · exact Or.inr (isRestrictedUnit_of_height_lt (Nat.not_le.1 hle))
  refine ⟨fun b => findType_of_found, hsuggested, ?_, ?_⟩
  · intro hnever a b hscan hrestricted
    obtain ⟨c, hfind, hle⟩ := hnever b (by rw [hscan]; rfl)
    rw [findType_of_suggested hscan, hrestricted.1, Option.getD_some] at hfind
    rwa [Option.some.inj hfind]
  · intro h b hanswer
    cases hscan : (environment.scan name filter).value view with
    | found c =>
      rw [hscan] at hanswer
      obtain rfl := Option.some.inj hanswer
      exact ⟨c, findType_of_found hscan, Nat.le_refl _⟩
    | suggested c =>
      rw [hscan] at hanswer
      obtain rfl := Option.some.inj hanswer
      obtain ⟨a, hfind, -, hle | hrestricted⟩ := hsuggested c hscan
      · exact ⟨a, hfind, hle⟩
      · exact ⟨a, hfind, h a c hscan hrestricted⟩
    | missing =>
      rw [hscan] at hanswer
      simp [Outcome.answer?] at hanswer

/-- A class file under a mild rule, and a source file that declares the same type under a hard
one. -/
def mildThenHardDisk : Disk :=
  ((Disk.empty.put (.ofText "src") .folder).put (.ofText "mild/p/Baz.class")
    (.file (.plain "mild".toUTF8))).put (.ofText "hard/p/Container.java")
      (.file (.plain "class Container \x7b\x7d class Baz \x7b\x7d".toUTF8))

def mildThenHard : Environment :=
  .create
    (.build mildThenHardDisk
      [{ path := .ofText "src", role := .source },
        { path := .ofText "mild", rules := ⟨[⟨"p/*", .discouraged, true⟩], "mild"⟩ },
        { path := .ofText "hard", rules := ⟨[⟨"p/*", .forbidden, false⟩], "hard"⟩ }] ["jar"])
    [] {}

/-- The forbidden source file is given in place of the discouraged class file. -/
theorem not_forall_neverWorse :
    ¬ ∀ environment name filter view, NeverWorse environment name filter view := by
  intro hnever
  have hscan : (((mildThenHard.scan bazName .all).value
      (mildThenHard.locations.view mildThenHardDisk)).answer?).map Answer.height = some 2 := by
    decide +kernel
  have hfind : ((mildThenHard.findType bazName .all).value
      (mildThenHard.locations.view mildThenHardDisk)).map Answer.height = some 1 := by
    decide +kernel
  obtain ⟨b, hb, hheight⟩ := Option.map_eq_some_iff.1 hscan
  obtain ⟨a, ha, hle⟩ := hnever mildThenHard bazName .all _ b hb
  rw [ha, Option.map_some, Option.some.injEq] at hfind
  omega

end Environment

end ClasspathLookup
