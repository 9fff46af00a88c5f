import ClasspathLookup.Proofs.FallbackRank
import ClasspathLookup.Proofs.ModuleTags

/-!
# Access rules are imposed on every answer

Class folders and archives ask their rules about the slashed name of the type. The one lookup takes
it back out of the path of the class file, the other puts it together from package and simple name,
and both come to the name that was asked for. The engine then hands an answer on as it is. So the
restriction on an answer is always the one that the rules of its location impose on the type, and
only an answer from a class folder or an archive has any.
-/

namespace ClasspathLookup

namespace AccessRules

variable {rules : AccessRules} {typeName : String} {rule : AccessRule} {r : Option Restriction}

/-- The rule covers the type, and no rule before it does. -/
def IsFirst (rules : AccessRules) (typeName : String) (rule : AccessRule) : Prop :=
  ∃ before after, rules.rules = before ++ rule :: after ∧
    (∀ other ∈ before, other.covers typeName = false) ∧ rule.covers typeName = true

/-- What rules put on a type: the first one that covers it, under the name of their entry, unless
that one makes the type accessible. -/
inductive Imposes (rules : AccessRules) (typeName : String) : Option Restriction → Prop
  | uncovered (h : ∀ rule ∈ rules.rules, rule.covers typeName = false) :
      Imposes rules typeName none
  | accessible {rule : AccessRule} (hfirst : rules.IsFirst typeName rule)
      (h : rule.kind = .accessible) : Imposes rules typeName none
  | restricted {rule : AccessRule} (hfirst : rules.IsFirst typeName rule)
      (h : rule.kind ≠ .accessible) : Imposes rules typeName (some ⟨rule, rules.entryName⟩)

theorem deciding?_eq_some_iff : rules.deciding? typeName = some rule ↔
    rules.IsFirst typeName rule := by
  rw [deciding?, List.find?_eq_some_iff_append]
  constructor
  · rintro ⟨hcovers, before, after, hrules, hbefore⟩
    exact ⟨before, after, hrules, by simpa using hbefore, hcovers⟩
  · rintro ⟨before, after, hrules, hbefore, hcovers⟩
    exact ⟨hcovers, before, after, hrules, by simpa using hbefore⟩

theorem deciding?_eq_none_iff : rules.deciding? typeName = none ↔
    ∀ rule ∈ rules.rules, rule.covers typeName = false := by
  simp [deciding?]

theorem imposes_restriction? (rules : AccessRules) (typeName : String) :
    rules.Imposes typeName (rules.restriction? typeName) := by
  unfold restriction?
  cases hdeciding : rules.deciding? typeName with
  | none => exact .uncovered (deciding?_eq_none_iff.1 hdeciding)
  | some rule =>
    have hfirst := deciding?_eq_some_iff.1 hdeciding
    by_cases hkind : rule.kind = .accessible
    · simp only [hkind, if_true]
      exact .accessible hfirst hkind
    · simp only [hkind, if_false]
      exact .restricted hfirst hkind

/-- Rules impose one thing only. -/
theorem Imposes.eq_restriction? (h : rules.Imposes typeName r) :
    r = rules.restriction? typeName := by
  unfold restriction?
  cases h with
  | uncovered h => rw [deciding?_eq_none_iff.2 h]
  | accessible hfirst h =>
    rw [deciding?_eq_some_iff.2 hfirst]
    simp [h]
  | restricted hfirst h =>
    rw [deciding?_eq_some_iff.2 hfirst]
    simp [h]

theorem imposes_iff : rules.Imposes typeName r ↔ r = rules.restriction? typeName :=
  ⟨Imposes.eq_restriction?, fun h => h ▸ rules.imposes_restriction? typeName⟩

end AccessRules

theorem Storage.restriction_of_binary? {storage : Storage} {view : View} {relative : String}
    {annotations : Option AnnotationPath} {a : Answer}
    (h : (storage.binary? relative annotations).value view = some a) : a.restriction = none := by
  obtain ⟨type, rfl⟩ := exists_binary_of_binary? h
  rfl

namespace Location

variable {location : Location} {view : View} {paths : TypePaths} {name : TypeName}
  {m : Option ModuleDescriptor} {extensions : List String} {a : Answer}

/-- A class file is restricted by the rule for the type that its path spells. -/
theorem restriction_of_type? (h : (location.type? paths m extensions).value view = some a) :
    a.restriction = location.rules.restriction? paths.typeName := by
  simp only [type?, Lookup.value_ite, Lookup.value_pure] at h
  split at h
  · cases location with
    | source folder =>
      obtain ⟨extension, -, -, rfl⟩ := SourceFolder.eq_of_type? h
      rfl
    | classes folder =>
      simp only [Lookup.value_bind, Lookup.value_pure, Option.map_eq_some_iff] at h
      obtain ⟨b, -, rfl⟩ := h
      rfl
    | archive archive =>
      simp only [Lookup.value_bind, Lookup.value_pure, Option.map_eq_some_iff] at h
      obtain ⟨b, -, rfl⟩ := h
      rfl
    | image image =>
      obtain ⟨module, -, -, hin⟩ := ModuleImage.exists_typeIn?_of_type? h
      simp only [ModuleImage.typeIn?, Lookup.value_bind, Lookup.value_pure,
        Option.map_eq_some_iff] at hin
      obtain ⟨b, hb, rfl⟩ := hin
      have hnone := Storage.restriction_of_binary? hb
      exact hnone
  · cases h

/-- The two lookups ask the rules about the same name. -/
theorem imposes_of_answer
    (h : (location.type? (.binary name) m extensions).value view = some a ∨
      (location.secondary? name.simple name.packagePath m extensions).value view = some a) :
    location.rules.Imposes name.path a.restriction := by
  rw [AccessRules.imposes_iff]
  rcases h with htype | hsecondary
  · rw [restriction_of_type? htype, TypePaths.typeName_binary]
  · exact restriction_of_secondary? hsecondary

/-- Class folders and archives put a restriction on an answer if their rules do, all others never
put any. -/
def Restricts (location : Location) (name : TypeName) (r : Option Restriction) : Prop :=
  match location with
  | .classes l => l.rules.Imposes name.path r
  | .archive l => l.rules.Imposes name.path r
  | .source _ | .image _ => r = none

theorem restricts_iff {r : Option Restriction} :
    location.Restricts name r ↔ r = location.rules.restriction? name.path := by
  cases location with
  | source folder => exact Iff.rfl
  | classes folder => exact AccessRules.imposes_iff
  | archive archive => exact AccessRules.imposes_iff
  | image image => exact Iff.rfl

theorem restricts_of_type?
    (h : (location.type? (location.paths name) m extensions).value view = some a) :
    location.Restricts name a.restriction := by
  rw [restricts_iff, restriction_of_type? h]
  -- A source folder has other paths, and no rules to ask.
  cases location with
  | source folder => rfl
  | classes folder => rw [paths, TypePaths.typeName_binary]
  | archive archive => rw [paths, TypePaths.typeName_binary]
  | image image => rfl

end Location

namespace Environment

variable {environment : Environment} {name : TypeName} {filter : ModuleFilter} {view : View}
  {location : Location} {a : Answer}

/-- By whatever route a location gives an answer, the answer is restricted as the location has it;
an open unit is given by a source folder. -/
theorem restricts_of_gives (h : environment.Gives name filter view location a) :
    location.Restricts name a.restriction := by
  rcases h with hprobe | ⟨m, -, hsecondary⟩
  · rcases environment.probe_cases name location with ⟨folder, copy, rfl, hcopy⟩ | hopen
    · rw [environment.value_probe_of_open name filter view hcopy,
        Option.ite_none_right_eq_some] at hprobe
      rw [← Option.some.inj hprobe.2]
      exact rfl
    · rw [environment.value_probe_of_not_open name filter view hopen] at hprobe
      obtain ⟨m, -, htype⟩ := List.exists_of_findSome?_eq_some hprobe
      exact Location.restricts_of_type? htype
  · rw [Location.restricts_iff]
    exact Location.restriction_of_secondary? hsecondary

/-- Both lookups of a class folder or an archive restrict their answers by the first rule that
covers the type, whatever the descriptor. Every answer of a query is one that a location gives, and
it has the restriction that its location imposes: none, if that is a source folder or an image. -/
theorem findType_restricts (name : TypeName) :
    (∀ (folder : ClassFolder) m extensions view a,
      ((Location.classes folder).type? (.binary name) m extensions).value view = some a ∨
        ((Location.classes folder).secondary? name.simple name.packagePath m extensions).value
          view = some a →
      folder.rules.Imposes name.path a.restriction) ∧
    (∀ (archive : ClassArchive) m extensions view a,
      ((Location.archive archive).type? (.binary name) m extensions).value view = some a ∨
        ((Location.archive archive).secondary? name.simple name.packagePath m extensions).value
          view = some a →
      archive.rules.Imposes name.path a.restriction) ∧
    ∀ environment filter view a, (findType environment name filter).value view = some a →
      (∃ location ∈ environment.eligible filter view,
        environment.Gives name filter view location a) ∧
      ∀ location, environment.Gives name filter view location a →
        location.Restricts name a.restriction := by
  refine ⟨?_, ?_, ?_⟩
  · intro folder m extensions view a h
    exact Location.imposes_of_answer h
  · intro archive m extensions view a h
    exact Location.imposes_of_answer h
  · intro environment filter view a h
    exact ⟨exists_gives_of_findType h, fun location => restricts_of_gives⟩

/-- The source file that declares the type is forbidden by the rule for the type. -/
theorem findType_restricts_hard :
    let rule : AccessRule := ⟨"p/*", .forbidden, false⟩
    let hard : ClassFolder := ⟨.ofText "hard", ⟨[rule], "hard"⟩, .all⟩
    let view := mildThenHard.locations.view mildThenHardDisk
    ∃ a, (mildThenHard.findType bazName .all).value view = some a ∧
      ((Location.classes hard).secondary? "Baz" "p" none ["java"]).value view = some a ∧
      a.restriction = some ⟨rule, "hard"⟩ ∧ hard.rules.Imposes "p/Baz" a.restriction ∧
      ∃ location ∈ mildThenHard.eligible .all view,
        mildThenHard.Gives bazName .all view location a ∧
        location.Restricts bazName a.restriction := by
  intro rule hard view
  let a : Answer := ⟨.source (.file (.ofText "hard/p/Container.java") "Container"),
    some ⟨rule, "hard"⟩, none⟩
  have hfind : (mildThenHard.findType bazName .all).value view = some a := by decide +kernel
  have hsecondary : ((Location.classes hard).secondary? "Baz" "p" none ["java"]).value view =
      some a := by
    decide +kernel
  obtain ⟨hfolder, -, hquery⟩ := findType_restricts bazName
  obtain ⟨⟨location, heligible, hgives⟩, hrestricts⟩ := hquery mildThenHard .all view a hfind
  exact ⟨a, hfind, hsecondary, rfl, hfolder hard none ["java"] view a (Or.inr hsecondary),
    location, heligible, hgives, hrestricts location hgives⟩

end Environment

end ClasspathLookup
