import ClasspathLookup.Proofs.Eligible
import ClasspathLookup.Proofs.Histories

/-!
# Roots of other projects come last

The roots of a dependency are appended, and what is there already is neither moved nor opened again.
The answers to a query are then followed by new ones. A decisive answer stays the first one, the
best answer is only replaced by one that outranks it, and a package does not disappear.
-/

namespace ClasspathLookup

namespace LocationSet

theorem locations_prefix_push (set : LocationSet) (location : Location) :
    set.locations <+: (set.push location).2.locations := by
  unfold push
  split
  · exact List.prefix_refl _
  · exact List.prefix_append _ _

/-- A merge only appends. -/
theorem locations_prefix_merge (set : LocationSet) (disk : Disk) (roots : List ClasspathRoot) :
    set.locations <+: (set.merge disk roots).2.locations := by
  refine merge_preserves (I := fun later => set.locations <+: later.locations) ?_ ?_
    (List.prefix_refl _) roots
  · intro later root h
    rwa [locations_locate?]
  · intro later root location h _
    rw [← later.locations_locate? disk root] at h
    exact h.trans (locations_prefix_push _ location)

end LocationSet

namespace ScanPolicy

/-- What was decided is not decided anew. -/
theorem outcome_firstDefinitive_append {answers : List Answer} {a : Answer}
    (h : firstDefinitive.outcome none answers = .found a) (more : List Answer) :
    firstDefinitive.outcome none (answers ++ more) = .found a := by
  rw [outcome_firstDefinitive_eq_found_iff] at h ⊢
  exact h.append more

/-- More answers can only raise the rank; where they do not the outcome stays. -/
theorem outcome_exhaustive_append {answers : List Answer} {a : Answer}
    (h : (exhaustive.outcome none answers).answer? = some a) (more : List Answer) :
    ∃ b, (exhaustive.outcome none (answers ++ more)).answer? = some b ∧ a.height ≤ b.height ∧
      (b.rank = a.rank →
        exhaustive.outcome none (answers ++ more) = exhaustive.outcome none answers) := by
  obtain ⟨last, hlast, ho⟩ := outcome_exhaustive answers
  obtain ⟨full, hfull, hofull⟩ := outcome_exhaustive (answers ++ more)
  rw [ho, Outcome.answer?_ofSuggestion] at h
  have ha : EarliestBest answers a := hlast.eq_some_iff.1 h
  have hne : answers ++ more ≠ [] := List.ne_nil_of_mem (List.mem_append_left more ha.mem)
  obtain ⟨b, rfl⟩ := Option.ne_none_iff_exists'.1 (mt hfull.eq_none_iff.1 hne)
  have hb : EarliestBest (answers ++ more) b := hfull
  refine ⟨b, by rw [hofull, Outcome.answer?_ofSuggestion],
    hb.height_le a (List.mem_append_left more ha.mem), ?_⟩
  intro hrank
  have hheight : b.height = a.height := congrArg Rank.height hrank
  have hfirst : EarliestBest (answers ++ more) a := by
    apply ha.append
    intro c hc
    have hle := hb.height_le c (List.mem_append_right answers hc)
    omega
  rw [ho, hofull, h, hb.unique hfirst]

end ScanPolicy

namespace Environment

/-- On the disk the later environment sees what the first one sees, in the same places and with more
behind them. -/
structure Grows (disk : Disk) (environment later : Environment) : Prop where
  overlay : later.overlay = environment.overlay
  options : later.options = environment.options
  view : later.locations.view disk = environment.locations.view disk
  locations : environment.locations.locations <+: later.locations.locations

namespace Grows

variable {disk : Disk} {environment later : Environment}

theorem refl (disk : Disk) (environment : Environment) : Grows disk environment environment :=
  ⟨rfl, rfl, rfl, List.prefix_refl _⟩

theorem trans {last : Environment} (h : Grows disk environment later)
    (h' : Grows disk later last) : Grows disk environment last :=
  ⟨h'.overlay.trans h.overlay, h'.options.trans h.options, h'.view.trans h.view,
    h.locations.trans h'.locations⟩

/-- Everything but a cleanup leaves what is there. -/
theorem act (disk : Disk) (environment : Environment) {action : Action}
    (h : action ≠ .cleanup) : Grows disk environment (environment.act disk action).2 := by
  cases action with
  | ask query =>
    have hlocations := environment.locations.locations_run disk (environment.lookup query)
    exact ⟨rfl, rfl, environment.locations.view_run disk _,
      hlocations.symm ▸ List.prefix_refl environment.locations.locations⟩
  | addProject projects project =>
    rw [act_addProject]
    exact ⟨rfl, rfl, (environment.locations.grows_merge disk _).view,
      environment.locations.locations_prefix_merge disk _⟩
  | cleanup => exact absurd rfl h

theorem after (disk : Disk) (environment : Environment) {actions : List Action}
    (h : .cleanup ∉ actions) :
    Grows disk environment (environment.after (actions.map fun action => (disk, action))) := by
  induction actions generalizing environment with
  | nil => exact refl disk environment
  | cons action actions ih =>
    rw [List.mem_cons, not_or] at h
    exact (act disk environment (Ne.symm h.1)).trans (ih _ h.2)

theorem probe (h : Grows disk environment later) (name : TypeName) (filter : ModuleFilter) :
    later.probe name filter = environment.probe name filter := by
  unfold Environment.probe
  rw [h.overlay, h.options]

/-- The new answers come after the others. -/
theorem answers (h : Grows disk environment later) (name : TypeName) (filter : ModuleFilter) :
    environment.answers name filter (environment.locations.view disk) <+:
      later.answers name filter (later.locations.view disk) := by
  unfold Environment.answers Environment.eligible
  rw [h.view, h.probe]
  exact (h.locations.filter _).filterMap _

end Grows

/-- Queries and additions on one disk do not override what was found before. A found answer stays
found; when every location is asked the rank of the answer does not drop, and at the same rank it is
the same answer; and what was a package stays one. -/
theorem scan_isPackage_after (environment : Environment) (disk : Disk) {actions : List Action}
    (h : .cleanup ∉ actions) (name : TypeName) (filter : ModuleFilter) :
    let later := environment.after (actions.map fun action => (disk, action))
    let view := environment.locations.view disk
    let view' := later.locations.view disk
    (environment.options.scanPolicy = .firstDefinitive → ∀ a,
      (environment.scan name filter).value view = .found a →
        (later.scan name filter).value view' = .found a) ∧
    (environment.options.scanPolicy = .exhaustive → ∀ a,
      ((environment.scan name filter).value view).answer? = some a →
        ∃ b, ((later.scan name filter).value view').answer? = some b ∧ a.height ≤ b.height ∧
          (b.rank = a.rank → (later.scan name filter).value view' =
            (environment.scan name filter).value view)) ∧
    ∀ package, (environment.isPackage package filter).value view = true →
      (later.isPackage package filter).value view' = true := by
  intro later view view'
  have hgrows : Grows disk environment later := .after disk environment h
  obtain ⟨more, hmore⟩ := hgrows.answers name filter
  rw [value_scan, value_scan, hgrows.options, ← hmore]
  refine ⟨?_, ?_, ?_⟩
  · intro hpolicy a hfound
    rw [hpolicy] at hfound ⊢
    exact ScanPolicy.outcome_firstDefinitive_append hfound more
  · intro hpolicy a hanswer
    rw [hpolicy] at hanswer ⊢
    exact ScanPolicy.outcome_exhaustive_append hanswer more
  · intro package hpackage
    unfold isPackage at hpackage ⊢
    rw [Lookup.value_any, List.any_eq_true] at hpackage ⊢
    obtain ⟨location, hmem, hholds⟩ := hpackage
    rw [show view' = view from hgrows.view]
    exact ⟨location, hgrows.locations.subset hmem, hholds⟩

/-- A class folder, and another one that holds the same type. -/
def appDisk : Disk :=
  (Disk.empty.put (.ofText "app/r/App.class") (.file (.plain "app".toUTF8))).put
    (.ofText "dep/r/App.class") (.file (.plain "dep".toUTF8))

/-- The rules of the first folder call for a warning. -/
def appRoot : ClasspathRoot :=
  { path := .ofText "app", rules := ⟨[⟨"r/*", .discouraged, false⟩], "app"⟩ }

def depProjects : Projects := fun project =>
  if project = "dep" then some [{ path := .ofText "dep" }, appRoot] else none

def appEnvironment (policy : ScanPolicy) : Environment :=
  .create (.build appDisk [appRoot] ["jar"]) [] { scanPolicy := policy }

def appName : TypeName :=
  ⟨["r"], "App", by decide, by decide⟩

def appAnswer : Answer :=
  ⟨.binary { origin := .ofText "app/r/App.class", bytes := "app".toUTF8 },
    some ⟨⟨"r/*", .discouraged, false⟩, "app"⟩, none⟩

def depAdded : List Action :=
  [.ask (.findType appName .all), .addProject depProjects "dep"]

/-- The first policy stays with the folder of the project; the other one goes over to the folder of
the dependency, which has no rules. -/
theorem scan_isPackage_after_dep :
    let first := appEnvironment .firstDefinitive
    let later := first.after (depAdded.map fun action => (appDisk, action))
    let full := appEnvironment .exhaustive
    let fuller := full.after (depAdded.map fun action => (appDisk, action))
    .cleanup ∉ depAdded ∧ later.locations.locations.length = 2 ∧
      (later.scan appName .all).value (later.locations.view appDisk) = .found appAnswer ∧
      (later.isPackage "r" .all).value (later.locations.view appDisk) = true ∧
      ∃ b, ((fuller.scan appName .all).value (fuller.locations.view appDisk)).answer? = some b ∧
        appAnswer.height ≤ b.height ∧ b ≠ appAnswer := by
  intro first later full fuller
  have hactions : .cleanup ∉ depAdded := by simp [depAdded]
  obtain ⟨hfound, -, hpackage⟩ := first.scan_isPackage_after appDisk hactions appName .all
  obtain ⟨-, hbest, -⟩ := full.scan_isPackage_after appDisk hactions appName .all
  refine ⟨hactions, by decide +kernel, hfound rfl _ (by decide +kernel),
    hpackage _ (by decide +kernel), ?_⟩
  obtain ⟨b, hb, hle, -⟩ := hbest rfl appAnswer (by decide +kernel)
  refine ⟨b, hb, hle, ?_⟩
  rintro rfl
  revert hb
  decide +kernel

end Environment

end ClasspathLookup
