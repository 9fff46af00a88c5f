import ClasspathLookup.Environment.Guard
import ClasspathLookup.Proofs.Histories

/-!
# Histories of a guarded environment

A guarded environment is asked, its monitor is cancelled, raised, lowered or exchanged, it takes in
the roots of other projects, and it is cleaned up. What the monitor tells depends on nothing but what
was done to the monitor. A query is aborted exactly when the monitor tells so at that moment. It has
done nothing then: all goes on as if it had not been asked.
-/

namespace ClasspathLookup

/-- What reaches a monitor from outside. -/
inductive Signal where
  | cancel
  | cancelAlone
  | setFlag (raised : Bool)

namespace Monitor

/-- Gives up; of a child and its parent only the child. -/
def cancelAlone : Monitor → Monitor
  | .token _ => .token true
  | .child parentCancelled _ => .child parentCancelled true
  | .flag _ => .flag true

def receive (monitor : Monitor) : Signal → Monitor
  | .cancel => monitor.cancel
  | .cancelAlone => monitor.cancelAlone
  | .setFlag raised => monitor.setFlag raised

/-- Whether the monitor stays cancelled once it is. -/
def isToken : Monitor → Bool
  | .token _ | .child _ _ => true
  | .flag _ => false

@[simp] theorem isToken_receive (monitor : Monitor) (signal : Signal) :
    (monitor.receive signal).isToken = monitor.isToken := by
  cases signal <;> cases monitor <;> rfl

theorem isCancelled_receive {monitor : Monitor} (htoken : monitor.isToken = true)
    (h : monitor.isCancelled = true) (signal : Signal) :
    (monitor.receive signal).isCancelled = true := by
  cases monitor with
  | token cancelled =>
    obtain rfl : cancelled = true := h
    cases signal <;> rfl
  | child parentCancelled cancelled =>
    simp only [isCancelled, Bool.or_eq_true] at h
    cases signal <;> simp [receive, cancel, cancelAlone, setFlag, isCancelled, h]
  | flag raised => cases htoken

end Monitor

/-- The queries that come past the guard. -/
inductive GuardedQuery where
  | findType (name : TypeName) (filter : ModuleFilter)
  | findTypeIn (package : List String) (simple : String) (filter : ModuleFilter)
  | findTypeOfSegments (segments : List String) (filter : ModuleFilter)
  | isPackage (package : String) (filter : ModuleFilter)
  | isPackageIn (parent : List String) (package : String) (filter : ModuleFilter)

def GuardedQuery.lookup (query : GuardedQuery) (environment : Environment) : Lookup Reply :=
  match query with
  | .findType name filter => .found <$> environment.findType name filter
  | .findTypeIn package simple filter => .found <$> environment.findTypeIn package simple filter
  | .findTypeOfSegments segments filter =>
    .found <$> environment.findTypeOfSegments segments filter
  | .isPackage package filter => .truth <$> environment.isPackage package filter
  | .isPackageIn parent package filter => .truth <$> environment.isPackageIn parent package filter

inductive GuardedAction where
  | ask (query : GuardedQuery)
  | askUnguarded (lookup : Environment → Lookup Reply)
  | signal (signal : Signal)
  | setMonitor (monitor : Option Monitor)
  | addProject (projects : Projects) (project : String)
  | cleanup

inductive GuardedReport where
  | answered (outcome : Except LookupError Reply)
  | replied (reply : Reply)
  | added (count : Nat)
  | done

def GuardedReport.isAborted : GuardedReport → Bool
  | .answered (.error _) => true
  | .answered (.ok _) | .replied _ | .added _ | .done => false

/-- What was done one after the other, each time with the disk as it was then. In between anything
may happen to the disk. -/
abbrev GuardedHistory := List (Disk × GuardedAction)

/-- What becomes of a monitor, if only what is done to monitors counts. -/
def monitorAfter (monitor : Option Monitor) (history : GuardedHistory) : Option Monitor :=
  history.foldl (fun monitor moment =>
    match moment.2 with
    | .signal signal => monitor.map fun monitor => monitor.receive signal
    | .setMonitor monitor => monitor
    | .ask _ | .askUnguarded _ | .addProject _ _ | .cleanup => monitor) monitor

namespace GuardedEnvironment

def act (guarded : GuardedEnvironment) (disk : Disk) :
    GuardedAction → GuardedReport × GuardedEnvironment
  | .ask query =>
    let (outcome, later) := guarded.run disk query.lookup
    (.answered outcome, later)
  | .askUnguarded lookup =>
    let (reply, later) := guarded.runUnguarded disk lookup
    (.replied reply, later)
  | .signal signal =>
    (.done, { guarded with monitor := guarded.monitor.map fun monitor => monitor.receive signal })
  | .setMonitor monitor => (.done, guarded.setMonitor monitor)
  | .addProject projects project =>
    let (count, later) := guarded.addProject disk projects project
    (.added count, later)
  | .cleanup => (.done, guarded.cleanup)

/-- The guarded environment at the end of a history. -/
def after (guarded : GuardedEnvironment) : GuardedHistory → GuardedEnvironment
  | [] => guarded
  | (disk, action) :: history => (guarded.act disk action).2.after history

/-- What was reported on the way. -/
def reports (guarded : GuardedEnvironment) : GuardedHistory → List GuardedReport
  | [] => []
  | (disk, action) :: history =>
    (guarded.act disk action).1 :: (guarded.act disk action).2.reports history

/-- The history without the queries that were aborted. -/
def heeded (guarded : GuardedEnvironment) : GuardedHistory → GuardedHistory
  | [] => []
  | (disk, action) :: history =>
    let (report, later) := guarded.act disk action
    if report.isAborted then later.heeded history else (disk, action) :: later.heeded history

section Queries

variable {guarded : GuardedEnvironment} {α : Type} {query : Environment → Lookup α}

theorem run_of_isCancelled (h : guarded.isCancelled = true) (disk : Disk) :
    guarded.run disk query = (.error .aborted, guarded) := by
  rw [run, if_pos h]

/-- Past the guard, a query is one of the environment inside. -/
theorem run_of_not_isCancelled (h : guarded.isCancelled = false) (disk : Disk) :
    guarded.run disk query =
      (.ok (guarded.environment.run disk (query guarded.environment)).1,
        { guarded with
          environment := (guarded.environment.run disk (query guarded.environment)).2 }) := by
  rw [run, h]
  rfl

theorem isAborted_run_iff {disk : Disk} :
    (guarded.run disk query).1 = .error .aborted ↔ guarded.isCancelled = true := by
  cases h : guarded.isCancelled with
  | true => simp [run_of_isCancelled h]
  | false => simp [run_of_not_isCancelled h]

theorem isCancelled_iff : guarded.isCancelled = true ↔
    ∃ monitor, guarded.monitor = some monitor ∧ monitor.isCancelled = true :=
  Option.any_eq_true ..

end Queries

section Histories

variable {guarded : GuardedEnvironment}

/-- An aborted query has done nothing. -/
theorem act_of_isAborted {disk : Disk} {action : GuardedAction}
    (h : (guarded.act disk action).1.isAborted = true) : (guarded.act disk action).2 = guarded := by
  cases action with
  | ask query =>
    cases hcancelled : guarded.isCancelled with
    | true => simp only [act, run_of_isCancelled hcancelled]
    | false =>
      simp only [act, run_of_not_isCancelled hcancelled] at h
      cases h
  | askUnguarded lookup => cases h
  | signal signal => cases h
  | setMonitor monitor => cases h
  | addProject projects project => cases h
  | cleanup => cases h

theorem monitor_act (disk : Disk) (action : GuardedAction) :
    (guarded.act disk action).2.monitor = monitorAfter guarded.monitor [(disk, action)] := by
  cases action with
  | ask query =>
    cases hcancelled : guarded.isCancelled with
    | true => simp only [act, run_of_isCancelled hcancelled]; rfl
    | false => simp only [act, run_of_not_isCancelled hcancelled]; rfl
  | askUnguarded lookup => rfl
  | signal signal => rfl
  | setMonitor monitor => rfl
  | addProject projects project => rfl
  | cleanup => rfl

theorem monitor_after (guarded : GuardedEnvironment) (history : GuardedHistory) :
    (guarded.after history).monitor = monitorAfter guarded.monitor history := by
  induction history generalizing guarded with
  | nil => rfl
  | cons moment history ih =>
    rw [after, ih, monitor_act]
    rfl

/-- Leaving out the queries that were aborted leaves nothing else out. -/
theorem after_heeded (guarded : GuardedEnvironment) (history : GuardedHistory) :
    guarded.after (guarded.heeded history) = guarded.after history := by
  induction history generalizing guarded with
  | nil => rfl
  | cons moment history ih =>
    obtain ⟨disk, action⟩ := moment
    dsimp only [heeded]
    split
    · rename_i haborted
      -- The rest of the history starts where the aborted query found the environment.
      rw [after, act_of_isAborted haborted, ih]
    · rw [after, ih, after]

theorem reports_heeded (guarded : GuardedEnvironment) (history : GuardedHistory) :
    guarded.reports (guarded.heeded history) =
      (guarded.reports history).filter fun report => !report.isAborted := by
  induction history generalizing guarded with
  | nil => rfl
  | cons moment history ih =>
    obtain ⟨disk, action⟩ := moment
    dsimp only [heeded]
    rw [reports]
    split
    · rename_i haborted
      rw [List.filter_cons_of_neg (by simp [haborted]), ← ih, act_of_isAborted haborted]
    · rename_i hheeded
      rw [List.filter_cons_of_pos (by simp [hheeded]), reports, ih]

/-- A token was cancelled, and tokens stay so. -/
def IsGivenUp (guarded : GuardedEnvironment) : Prop :=
  ∃ monitor, guarded.monitor = some monitor ∧ monitor.isToken = true ∧ monitor.isCancelled = true

theorem IsGivenUp.act (h : guarded.IsGivenUp) (disk : Disk) {action : GuardedAction}
    (haction : ∀ monitor, action ≠ .setMonitor monitor) :
    (guarded.act disk action).2.IsGivenUp := by
  obtain ⟨monitor, hmonitor, htoken, hcancelled⟩ := h
  rw [IsGivenUp, monitor_act, hmonitor]
  cases action with
  | ask query => exact ⟨monitor, rfl, htoken, hcancelled⟩
  | askUnguarded lookup => exact ⟨monitor, rfl, htoken, hcancelled⟩
  | signal signal =>
    exact ⟨monitor.receive signal, rfl, by rw [Monitor.isToken_receive, htoken],
      Monitor.isCancelled_receive htoken hcancelled signal⟩
  | setMonitor other => exact absurd rfl (haction other)
  | addProject projects project => exact ⟨monitor, rfl, htoken, hcancelled⟩
  | cleanup => exact ⟨monitor, rfl, htoken, hcancelled⟩

theorem IsGivenUp.after (h : guarded.IsGivenUp) {history : GuardedHistory}
    (hhistory : ∀ moment ∈ history, ∀ monitor, moment.2 ≠ .setMonitor monitor) :
    (guarded.after history).IsGivenUp := by
  induction history generalizing guarded with
  | nil => exact h
  | cons moment history ih =>
    have hact := h.act moment.1 (hhistory moment List.mem_cons_self)
    exact ih hact fun later hlater => hhistory later (List.mem_cons_of_mem _ hlater)

theorem IsGivenUp.isCancelled (h : guarded.IsGivenUp) : guarded.isCancelled = true := by
  obtain ⟨monitor, hmonitor, -, hcancelled⟩ := h
  exact isCancelled_iff.2 ⟨monitor, hmonitor, hcancelled⟩

/-- At every moment of a history the monitor is what was made of it, whatever else was done. A query
is aborted exactly when there is a monitor that is cancelled then, and nothing is touched; otherwise
it comes to what the environment inside makes of it. When the monitor is a token, every later query is
aborted as well, until another monitor is set. Leaving out all aborted queries changes neither the
rest of the reports nor what the history comes to. -/
theorem aborts_exactly_when_cancelled (guarded : GuardedEnvironment) (history : GuardedHistory) :
    let now := guarded.after history
    now.monitor = monitorAfter guarded.monitor history ∧
    (∀ disk (query : GuardedQuery),
      ((now.run disk query.lookup).1 = .error .aborted ↔
        ∃ monitor, now.monitor = some monitor ∧ monitor.isCancelled = true) ∧
      ((now.run disk query.lookup).1 = .error .aborted →
        (now.run disk query.lookup).2 = now) ∧
      ((now.run disk query.lookup).1 ≠ .error .aborted →
        let (reply, environment) := now.environment.run disk (query.lookup now.environment)
        now.run disk query.lookup = (.ok reply, { now with environment := environment })) ∧
      ((now.run disk query.lookup).1 = .error .aborted →
        (∀ monitor, now.monitor = some monitor → monitor.isToken = true) →
        ∀ more : GuardedHistory, (∀ moment ∈ more, ∀ monitor, moment.2 ≠ .setMonitor monitor) →
          ∀ disk' (query' : GuardedQuery),
            ((now.after more).run disk' query'.lookup).1 = .error .aborted)) ∧
    guarded.after (guarded.heeded history) = now ∧
    guarded.reports (guarded.heeded history) =
      (guarded.reports history).filter fun report => !report.isAborted := by
  intro now
  refine ⟨guarded.monitor_after history, ?_, guarded.after_heeded history,
    guarded.reports_heeded history⟩
  intro disk query
  simp only [ne_eq, isAborted_run_iff]
  refine ⟨isCancelled_iff, ?_, ?_, ?_⟩
  · intro h
    rw [run_of_isCancelled h]
  · intro h
    exact run_of_not_isCancelled (Bool.eq_false_iff.2 h) disk
  · intro h htoken more hmore disk' query'
    obtain ⟨monitor, hmonitor, hcancelled⟩ := isCancelled_iff.1 h
    have hgivenUp : now.IsGivenUp := ⟨monitor, hmonitor, htoken monitor hmonitor, hcancelled⟩
    exact (hgivenUp.after hmore).isCancelled

/-- An archive behind a token that is not cancelled. -/
def guardedJar : GuardedEnvironment where
  environment :=
    .create (.build (Disk.empty.put (.ofText "g.jar") (.file (.archive [])))
      [{ path := .ofText "g.jar" }] ["jar"]) [] {}
  monitor := some (.token false)

/-- The token is cancelled. Parts that make no name are not looked at any more, a flag does not matter,
and without a monitor nothing is found for them as before. -/
theorem aborts_exactly_when_cancelled_token :
    let now := guardedJar.after [(Disk.empty, .ask (.isPackage "" .all)),
      (Disk.empty, .signal .cancel)]
    let more : GuardedHistory := [(Disk.empty, .signal (.setFlag false)), (Disk.empty, .cleanup)]
    let query : GuardedQuery := .findTypeIn [""] "Foo" .all
    (guardedJar.run Disk.empty query.lookup).1 = .ok (.found none) ∧
      (now.run Disk.empty query.lookup).1 = .error .aborted ∧
      ((now.after more).run Disk.empty query.lookup).1 = .error .aborted ∧
      (((now.after more).setMonitor none).run Disk.empty query.lookup).1 = .ok (.found none) := by
  intro now more query
  obtain ⟨hmonitor, hquery, -, -⟩ := guardedJar.aborts_exactly_when_cancelled
    [(Disk.empty, .ask (.isPackage "" .all)), (Disk.empty, .signal .cancel)]
  obtain ⟨haborts, -, -, hlasts⟩ := hquery Disk.empty query
  have haborted := haborts.2 ⟨.token true, hmonitor, rfl⟩
  refine ⟨by rfl, haborted, ?_, by rfl⟩
  apply hlasts haborted
  · intro monitor h
    obtain rfl : .token true = monitor := Option.some.inj (hmonitor.symm.trans h)
    rfl
  · simp [more]

end Histories

end GuardedEnvironment

end ClasspathLookup
