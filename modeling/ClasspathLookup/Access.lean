import ClasspathLookup.Glob

/-!
# Access rules

A class folder or an archive carries an ordered list of rules. The first rule whose pattern covers a
type decides whether the type is accessible, discouraged or forbidden; a type that no rule covers is
accessible. Answers restricted by an advisory rule are only suggestions.
-/

namespace ClasspathLookup

inductive RuleKind where
  | accessible
  | discouraged
  | forbidden
deriving DecidableEq, Repr

structure AccessRule where
  pattern : String
  kind : RuleKind
  advisory : Bool := false
deriving DecidableEq, Repr

def AccessRule.covers (rule : AccessRule) (typeName : String) : Bool :=
  Glob.covers rule.pattern typeName

inductive Severity where
  | discouraged
  | forbidden
deriving DecidableEq, Repr

/-- The rule that a found type violates, with the name of the entry that carries it. -/
structure Restriction where
  rule : AccessRule
  entryName : String
deriving DecidableEq, Repr

/-- Whatever is not merely discouraged counts as forbidden. -/
def Restriction.severity (r : Restriction) : Severity :=
  match r.rule.kind with
  | .discouraged => .discouraged
  | .forbidden | .accessible => .forbidden

structure AccessRules where
  rules : List AccessRule := []
  entryName : String := ""
deriving DecidableEq, Repr

namespace AccessRules

def deciding? (rules : AccessRules) (typeName : String) : Option AccessRule :=
  rules.rules.find? (·.covers typeName)

def restriction? (rules : AccessRules) (typeName : String) : Option Restriction :=
  match rules.deciding? typeName with
  | none => none
  | some rule => if rule.kind = .accessible then none else some ⟨rule, rules.entryName⟩

@[simp] theorem restriction?_empty (name typeName : String) :
    restriction? ⟨[], name⟩ typeName = none := rfl

end AccessRules

end ClasspathLookup
