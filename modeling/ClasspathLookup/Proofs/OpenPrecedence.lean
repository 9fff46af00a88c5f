import ClasspathLookup.Proofs.Agreement
import ClasspathLookup.Proofs.LocationAnswers
import Mathlib.Data.List.TakeWhile

/-!
# An open unit and what precedes it

An open unit answers at the first eligible source folder, without a restriction. Nothing later can
outrank it, so only the locations before that folder take part in the result, and what they answer
are class files. Neither the source folders nor anything after the first of them is of any
influence.
-/

namespace ClasspathLookup.Environment

variable (environment : Environment) (name : TypeName) (filter : ModuleFilter) (view : View)

/-- The eligible locations before the first source folder. -/
def leading : List Location :=
  (environment.eligible filter view).takeWhile fun location => location.kind ≠ .sourceFolder

def leadingAnswers : List Answer :=
  (environment.leading filter view).filterMap fun location =>
    (environment.probe name filter location).value view

variable {environment name filter view}

theorem eligible_eq_leading_append
    (hsource : ∃ folder, Location.source folder ∈ environment.eligible filter view) :
    ∃ folder after, environment.eligible filter view =
      environment.leading filter view ++ .source folder :: after := by
  obtain ⟨folder, hmem⟩ := hsource
  have hne : (environment.eligible filter view).dropWhile
      (fun location => location.kind ≠ .sourceFolder) ≠ [] := by
    intro h
    have hall := List.dropWhile_eq_nil_iff.1 h _ hmem
    simp [Location.kind] at hall
  have hhead := List.head_dropWhile_not _ hne
  obtain ⟨location, after, hdrop⟩ := List.exists_cons_of_ne_nil hne
  simp only [hdrop, List.head_cons, decide_eq_false_iff_not, not_not] at hhead
  obtain ⟨first, rfl⟩ := Location.exists_source_of_kind hhead
  refine ⟨first, after, ?_⟩
  rw [leading, ← hdrop, List.takeWhile_append_dropWhile]

theorem kind_of_mem_leading {location : Location}
    (h : location ∈ environment.leading filter view) : location.kind ≠ .sourceFolder := by
  simpa using List.mem_takeWhile_imp h

/-- The open unit comes right after the answers of the leading locations. -/
theorem answers_of_open {copy : WorkingCopy}
    (hopen : environment.overlay.find? name.path = some copy)
    (hsource : ∃ folder, Location.source folder ∈ environment.eligible filter view) :
    ∃ more, environment.answers name filter view =
      environment.leadingAnswers name filter view ++ [copy.answer] ++ more := by
  obtain ⟨folder, after, he⟩ := eligible_eq_leading_append hsource
  have heligible : (Location.source folder).isEligible filter view = true := by
    have hmem : Location.source folder ∈ environment.eligible filter view := by simp [he]
    exact (List.mem_filter.1 hmem).2
  refine ⟨after.filterMap fun location => (environment.probe name filter location).value view, ?_⟩
  rw [answers, he, List.filterMap_append, List.filterMap_cons,
    environment.value_probe_of_open name filter view hopen, if_pos heligible]
  simp [leadingAnswers]

theorem exists_binary_of_mem_leadingAnswers {a : Answer}
    (h : a ∈ environment.leadingAnswers name filter view) : ∃ type, a.found = .binary type := by
  obtain ⟨location, hmem, hprobe⟩ := List.mem_filterMap.1 h
  have hkind := kind_of_mem_leading hmem
  rw [environment.value_probe_of_not_open name filter view fun hsource => absurd hsource hkind]
    at hprobe
  obtain ⟨m, -, htype⟩ := List.exists_of_findSome?_eq_some hprobe
  exact Location.exists_binary_of_type? hkind htype

theorem leadingAnswers_eq_of_alike {environment' : Environment} {view' : View}
    (hoverlay : environment'.overlay = environment.overlay)
    (hoptions : environment'.options = environment.options)
    (h : List.Forall₂ (Location.Alike view view') (environment.leading filter view)
      (environment'.leading filter view')) :
    environment'.leadingAnswers name filter view' =
      environment.leadingAnswers name filter view := by
  unfold leadingAnswers
  generalize environment.leading filter view = before at h ⊢
  generalize environment'.leading filter view' = before' at h ⊢
  induction h with
  | nil => rfl
  | cons halike _ ih =>
    rw [List.filterMap_cons, List.filterMap_cons, ih, halike.probe hoverlay hoptions]

/-- What comes after the open unit does not change the outcome. -/
theorem scan_of_open {copy : WorkingCopy}
    (hopen : environment.overlay.find? name.path = some copy)
    (hsource : ∃ folder, Location.source folder ∈ environment.eligible filter view) :
    (environment.scan name filter).value view =
      environment.options.scanPolicy.outcome none
        (environment.leadingAnswers name filter view ++ [copy.answer]) := by
  obtain ⟨more, hanswers⟩ := answers_of_open hopen hsource
  rw [value_scan, hanswers]
  exact ScanPolicy.outcome_append_eq _ List.mem_concat_self rfl more

/-- The scan ends at the open unit or before it, with a definitive answer. -/
theorem exists_found_of_open {copy : WorkingCopy}
    (hopen : environment.overlay.find? name.path = some copy)
    (hsource : ∃ folder, Location.source folder ∈ environment.eligible filter view) :
    ∃ a, (environment.scan name filter).value view = .found a ∧
      (a = copy.answer ∨ a ∈ environment.leadingAnswers name filter view) ∧
      a.isAdvisory = false ∧
      (environment.options.scanPolicy = .exhaustive → a.restriction = none) := by
  have hlast : copy.answer ∈ environment.leadingAnswers name filter view ++ [copy.answer] :=
    List.mem_concat_self
  obtain ⟨a, hmem, hdefinitive, hfree, hfound⟩ :=
    environment.options.scanPolicy.outcome_append_of_unrestricted hlast rfl
  refine ⟨a, ?_, by simpa [or_comm] using hmem, hdefinitive, hfree⟩
  rw [scan_of_open hopen hsource]
  simpa using hfound []

theorem isWorkingCopy_of_leading {copy : WorkingCopy} {a : Answer} {unit : SourceUnit}
    (h : a = copy.answer ∨ a ∈ environment.leadingAnswers name filter view)
    (hunit : a.found = .source unit) : unit.isWorkingCopy = true := by
  rcases h with rfl | h
  · rw [← Found.source.inj hunit]
    rfl
  · obtain ⟨type, hbinary⟩ := exists_binary_of_mem_leadingAnswers h
    simp [hbinary] at hunit

/-- With the unit of a type open and a source folder taking part, a query gives the open unit or a
class file of a location before that folder, and depends on nothing behind these. -/
theorem findType_of_open {copy : WorkingCopy}
    (hopen : environment.overlay.find? name.path = some copy)
    (hsource : ∃ folder, Location.source folder ∈ environment.eligible filter view) :
    (∃ a, (environment.findType name filter).value view = some a ∧
      (a = copy.answer ∨
        (∃ location ∈ environment.leading filter view, location.kind ≠ .sourceFolder ∧
          (environment.probe name filter location).value view = some a) ∧
        a.isAdvisory = false ∧
        (environment.options.scanPolicy = .exhaustive → a.restriction = none)) ∧
      (∀ path main, a.found ≠ .source (.file path main)) ∧
      ∀ (location : Location) (m : Option ModuleDescriptor),
        (location.secondary? name.simple name.packagePath m
          environment.options.sourceExtensions).value view ≠ some a) ∧
    ∀ (environment' : Environment) (view' : View),
      environment'.overlay = environment.overlay →
      environment'.options = environment.options →
      (∃ folder, Location.source folder ∈ environment'.eligible filter view') →
      List.Forall₂ (Location.Alike view view') (environment.leading filter view)
        (environment'.leading filter view') →
      (environment'.findType name filter).value view' =
        (environment.findType name filter).value view := by
  obtain ⟨a, hscan, hfound, hdefinitive, hfree⟩ := exists_found_of_open hopen hsource
  constructor
  · refine ⟨a, findType_of_found hscan, ?_, ?_, ?_⟩
    · rcases hfound with rfl | hleading
      · exact Or.inl rfl
      · obtain ⟨location, hmem, hprobe⟩ := List.mem_filterMap.1 hleading
        exact Or.inr ⟨⟨location, hmem, kind_of_mem_leading hmem, hprobe⟩, hdefinitive, hfree⟩
    · intro path main hfile
      have hcopy := isWorkingCopy_of_leading hfound hfile
      exact Bool.noConfusion hcopy
    · intro location m hsecondary
      obtain ⟨folder, entry, stem, text, -, hunit⟩ :=
        Location.exists_declares_of_secondary? hsecondary
      have hcopy := isWorkingCopy_of_leading hfound hunit
      rw [Storage.isWorkingCopy_unit] at hcopy
      exact Bool.noConfusion hcopy
  · intro environment' view' hoverlay hoptions hsource' halike
    have hsame : (environment'.scan name filter).value view' =
        (environment.scan name filter).value view := by
      rw [scan_of_open hopen hsource, scan_of_open (hoverlay ▸ hopen) hsource', hoptions,
        leadingAnswers_eq_of_alike hoverlay hoptions halike]
    rw [findType_of_found hscan]
    exact findType_of_found (hsame.trans hscan)

def fooCopy : WorkingCopy :=
  ⟨"q", "Foo.java", "class Foo"⟩

def fooName : TypeName :=
  ⟨["q"], "Foo", by decide, by decide⟩

/-- A class file and a source file of one type. -/
def fooDisk : Disk :=
  (Disk.empty.put (.ofText "bin/q/Foo.class") (.file (.plain "class".toUTF8))).put
    (.ofText "src/q/Foo.java") (.file (.plain "class Foo".toUTF8))

/-- The source file is open; the class file before it is only suggested. -/
def fooOpen (later : List ClasspathRoot) : Environment :=
  .create
    (.build fooDisk
      ({ path := .ofText "bin", rules := ⟨[⟨"**", .discouraged, true⟩], "bin"⟩ } ::
        { path := .ofText "src", role := .source } :: later) ["jar"])
    [fooCopy] {}

def fooView : View :=
  (fooOpen []).locations.view fooDisk

/-- The open unit is the answer, with or without a class folder after the source folder. -/
theorem findType_of_open_foo :
    ((fooOpen []).findType fooName .all).value fooView = some fooCopy.answer ∧
      ((fooOpen [{ path := .ofText "bin/q" }]).findType fooName .all).value fooView =
        some fooCopy.answer := by
  have hopen : (fooOpen []).overlay.find? fooName.path = some fooCopy := by decide +kernel
  have hsource : ∃ folder, Location.source folder ∈ (fooOpen []).eligible .all fooView :=
    ⟨⟨⟨["src"], false⟩, [], [], .all⟩, by decide +kernel⟩
  have hsource' : ∃ folder, Location.source folder ∈
      (fooOpen [{ path := .ofText "bin/q" }]).eligible .all fooView :=
    ⟨⟨⟨["src"], false⟩, [], [], .all⟩, by decide +kernel⟩
  have hleading : List.Forall₂ (Location.Alike fooView fooView)
      ((fooOpen []).leading .all fooView)
      ((fooOpen [{ path := .ofText "bin/q" }]).leading .all fooView) := by
    rw [show (fooOpen [{ path := .ofText "bin/q" }]).leading .all fooView =
      (fooOpen []).leading .all fooView by decide +kernel]
    exact List.forall₂_same.2 fun location _ => .refl fooView location
  have hvalue : ((fooOpen []).findType fooName .all).value fooView = some fooCopy.answer := by
    decide +kernel
  obtain ⟨-, hsame⟩ := findType_of_open hopen hsource
  exact ⟨hvalue, (hsame (fooOpen [{ path := .ofText "bin/q" }]) fooView rfl rfl hsource'
    hleading).trans hvalue⟩

end ClasspathLookup.Environment
