import ClasspathLookup.Environment.Basic
import ClasspathLookup.Proofs.OfferedLocations

/-!
# Histories of an environment

An environment is asked, it takes in the roots of other projects, and it is cleaned up, each time on
the disk as it then is. A query opens archives and reads module lists for good. As long as the disk
stays as it is none of that shows: every reply is what it would have been without the queries
before, and a query may be cut at any point and go on from what it has opened so far.
-/

namespace ClasspathLookup

/-- What can be asked. Modules are asked of one location, told by its place in the set. -/
inductive Query where
  | findType (name : TypeName) (filter : ModuleFilter)
  | isPackage (package : String) (filter : ModuleFilter)
  | servesModule (index : Nat) (module : String)
  | imageModules (index : Nat)

inductive Reply where
  | found (answer : Option Answer)
  | truth (holds : Bool)
  | modules (names : List String)
  | noLocation
deriving DecidableEq

inductive Action where
  | ask (query : Query)
  | addProject (projects : Projects) (project : String)
  | cleanup

inductive Report where
  | replied (reply : Reply)
  | added (count : Nat)
  | cleaned
deriving DecidableEq

/-- What was done one after the other, each time with the disk as it was then. In between anything
may happen to the disk. -/
abbrev History := List (Disk × Action)

/-- Queries, each on the disk as it then is. -/
def History.querying (moments : List (Disk × Query)) : History :=
  moments.map fun moment => (moment.1, .ask moment.2)

/-- Some queries on one disk. -/
def History.asking (disk : Disk) (queries : List Query) : History :=
  queries.map fun query => (disk, .ask query)

namespace Environment

/-- Asks the location at a place of the set. -/
def askLocation (environment : Environment) (index : Nat) (ask : Location → Lookup Reply) :
    Lookup Reply :=
  match environment.locations.locations[index]? with
  | some location => ask location
  | none => pure .noLocation

def lookup (environment : Environment) : Query → Lookup Reply
  | .findType name filter => do
    let answer ← environment.findType name filter
    pure (.found answer)
  | .isPackage package filter => do
    let holds ← environment.isPackage package filter
    pure (.truth holds)
  | .servesModule index module => environment.askLocation index fun location => do
    let holds ← location.servesModule module
    pure (.truth holds)
  | .imageModules index => environment.askLocation index fun location => do
    let names ← location.imageModules
    pure (.modules names)

/-- What a query comes to on the disk as it is. -/
def reply (environment : Environment) (disk : Disk) (query : Query) : Reply :=
  (environment.run disk (environment.lookup query)).1

def act (environment : Environment) (disk : Disk) : Action → Report × Environment
  | .ask query =>
    let (reply, later) := environment.run disk (environment.lookup query)
    (.replied reply, later)
  | .addProject projects project =>
    let (count, later) := environment.addProject disk projects project
    (.added count, later)
  | .cleanup => (.cleaned, environment.cleanup)

/-- The environment at the end of a history. -/
def after (environment : Environment) : History → Environment
  | [] => environment
  | (disk, action) :: history => (environment.act disk action).2.after history

/-- What was reported on the way. -/
def reports (environment : Environment) : History → List Report
  | [] => []
  | (disk, action) :: history =>
    (environment.act disk action).1 :: (environment.act disk action).2.reports history

section Actions

variable (environment : Environment) (disk : Disk)

theorem reply_eq (query : Query) : environment.reply disk query =
    (environment.lookup query).value (environment.locations.view disk) :=
  rfl

/-- A lookup is made for the locations themselves, not for what was opened of them. -/
theorem lookup_of_locations {environment : Environment} {set : LocationSet}
    (h : set.locations = environment.locations.locations) :
    ({ environment with locations := set } : Environment).lookup = environment.lookup := by
  obtain ⟨⟨locations, archives, explodedModules, extensions⟩, overlay, options⟩ := environment
  obtain ⟨locations', archives', explodedModules', extensions'⟩ := set
  obtain rfl : locations' = locations := h
  rfl

theorem act_ask (query : Query) : environment.act disk (.ask query) =
    (.replied (environment.reply disk query),
      { environment with
        locations := (environment.locations.run disk (environment.lookup query)).2 }) :=
  rfl

/-- A project that does not exist has no roots to merge. -/
theorem act_addProject (projects : Projects) (project : String) :
    environment.act disk (.addProject projects project) =
      (.added (environment.locations.merge disk ((projects project).getD [])).1,
        { environment with
          locations := (environment.locations.merge disk ((projects project).getD [])).2 }) := by
  simp only [act, addProject]
  cases projects project <;> rfl

/-- What every action preserves is preserved by a history. -/
theorem after_preserves {I : Environment → Prop}
    (hact : ∀ {later} disk action, I later → I (later.act disk action).2)
    {environment : Environment} (h : I environment) (history : History) :
    I (environment.after history) := by
  induction history generalizing environment with
  | nil => exact h
  | cons step history ih => exact ih (hact step.1 step.2 h)

/-- The later environment has the open units, the options and the extensions that it was given at the
start. -/
structure KeepsSetup (environment later : Environment) : Prop where
  overlay : later.overlay = environment.overlay
  options : later.options = environment.options
  archiveExtensions : later.locations.archiveExtensions = environment.locations.archiveExtensions

theorem keepsSetup_after (history : History) :
    environment.KeepsSetup (environment.after history) := by
  apply after_preserves _ ⟨rfl, rfl, rfl⟩
  intro later disk action h
  cases action with
  | ask query =>
    have hgrows := later.locations.grows_run disk (later.lookup query)
    exact ⟨h.overlay, h.options, hgrows.extensions.trans h.archiveExtensions⟩
  | addProject projects project =>
    have hgrows := later.locations.grows_merge disk ((projects project).getD [])
    rw [act_addProject]
    exact ⟨h.overlay, h.options, hgrows.extensions.trans h.archiveExtensions⟩
  | cleanup => exact ⟨h.overlay, h.options, h.archiveExtensions⟩

end Actions

section OneDisk

variable (environment : Environment) (disk : Disk)

/-- A lookup may be cut anywhere: what its first part has opened does not matter to the rest. -/
theorem run_bind {α β : Type} (x : Lookup α) (f : α → Lookup β) :
    environment.run disk (x >>= f) =
      (environment.run disk x).2.run disk (f (environment.run disk x).1) := by
  have hview := environment.locations.view_run disk x
  simp only [LocationSet.run_eq] at hview
  simp only [run, LocationSet.run_eq, Lookup.value_bind, Lookup.needs_bind, List.foldl_append,
    hview]

/-- One query leaves the replies to all others as they were. -/
theorem reply_act_ask (first query : Query) :
    (environment.act disk (.ask first)).2.reply disk query = environment.reply disk query := by
  have hlocations := environment.locations.locations_run disk (environment.lookup first)
  have hview := environment.locations.view_run disk (environment.lookup first)
  rw [act_ask, reply_eq, reply_eq, lookup_of_locations hlocations]
  exact congrArg _ hview

/-- A history of queries reports what each of them would have been told at the start. -/
theorem reports_asking (queries : List Query) : environment.reports (.asking disk queries) =
    queries.map fun query => .replied (environment.reply disk query) := by
  induction queries generalizing environment with
  | nil => rfl
  | cons first queries ih =>
    have hrest := ih (environment.act disk (.ask first)).2
    simp only [reply_act_ask] at hrest
    rw [List.map_cons, ← hrest]
    rfl

theorem reply_after_asking (queries : List Query) (query : Query) :
    (environment.after (.asking disk queries)).reply disk query = environment.reply disk query := by
  induction queries generalizing environment with
  | nil => rfl
  | cons first queries ih => exact (ih _).trans (environment.reply_act_ask disk first query)

/-- On one disk it does not matter what was asked before, and so neither whether an archive is open
yet. Queries may come in any order, and one may be cut at any point. -/
theorem replies_do_not_depend_on_queries (queries : List Query) :
    (∀ query, (environment.after (.asking disk queries)).reply disk query =
      environment.reply disk query) ∧
    (environment.reports (.asking disk queries) =
      queries.map fun query => .replied (environment.reply disk query)) ∧
    (∀ others : List Query, others.Perm queries →
      (others.zip (environment.reports (.asking disk others))).Perm
        (queries.zip (environment.reports (.asking disk queries)))) ∧
    ∀ {α β : Type} (x : Lookup α) (f : α → Lookup β), environment.run disk (x >>= f) =
      (environment.run disk x).2.run disk (f (environment.run disk x).1) := by
  refine ⟨environment.reply_after_asking disk queries, environment.reports_asking disk queries, ?_,
    environment.run_bind disk⟩
  intro others hperm
  have hpairs (asked : List Query) : asked.zip (environment.reports (.asking disk asked)) =
      asked.map fun query => (query, .replied (environment.reply disk query)) := by
    rw [environment.reports_asking, ← List.zip_map', List.map_id']
  rw [hpairs, hpairs]
  exact hperm.map _

end OneDisk

end Environment

end ClasspathLookup
