import ClasspathLookup.Answer
import ClasspathLookup.Environment.Options
import ClasspathLookup.Lookup

/-!
# The primary scan

The answers of the locations are weighed in order against a suggestion, the best answer so far that
does not decide the search. Weighing says nothing about where answers come from, so the outcome of a
scan over locations is the outcome on the list of their answers.
-/

namespace ClasspathLookup

inductive Outcome where
  | found (answer : Answer)
  | suggested (answer : Answer)
  | missing
deriving DecidableEq

/-- What is left when no more answers come. -/
def Outcome.ofSuggestion : Option Answer → Outcome
  | none => .missing
  | some answer => if answer.isAdvisory then .suggested answer else .found answer

inductive Verdict where
  | decided (answer : Answer)
  | pending (suggestion : Option Answer)
deriving DecidableEq

namespace ScanPolicy

def weigh (policy : ScanPolicy) (suggestion : Option Answer) (answer : Answer) : Verdict :=
  match policy with
  | .firstDefinitive =>
    if !answer.isBetterThan suggestion then .pending suggestion
    else if answer.isAdvisory then .pending (some answer)
    else .decided answer
  | .exhaustive =>
    match suggestion with
    | none => .pending (some answer)
    | some best => .pending (some (if best.height < answer.height then answer else best))

/-- The outcome on a list of answers. -/
def outcome (policy : ScanPolicy) (suggestion : Option Answer) : List Answer → Outcome
  | [] => .ofSuggestion suggestion
  | answer :: answers =>
    match policy.weigh suggestion answer with
    | .decided answer => .found answer
    | .pending suggestion => policy.outcome suggestion answers

/-- The outcome on the answers of a lookup; after a decision nothing more is asked. -/
def scan {α : Type} (policy : ScanPolicy) (probe : α → Lookup (Option Answer))
    (suggestion : Option Answer) : List α → Lookup Outcome
  | [] => pure (.ofSuggestion suggestion)
  | a :: as => do
    match ← probe a with
    | none => policy.scan probe suggestion as
    | some answer =>
      match policy.weigh suggestion answer with
      | .decided answer => pure (.found answer)
      | .pending suggestion => policy.scan probe suggestion as

theorem value_scan {α : Type} (policy : ScanPolicy) (probe : α → Lookup (Option Answer))
    (suggestion : Option Answer) (as : List α) (view : View) :
    (policy.scan probe suggestion as).value view =
      policy.outcome suggestion (as.filterMap fun a => (probe a).value view) := by
  induction as generalizing suggestion with
  | nil => rfl
  | cons a as ih =>
    simp only [scan, Lookup.value_bind, List.filterMap_cons]
    cases (probe a).value view with
    | none => exact ih suggestion
    | some answer =>
      simp only [outcome]
      cases policy.weigh suggestion answer with
      | decided => rfl
      | pending suggestion => exact ih suggestion

end ScanPolicy

end ClasspathLookup
