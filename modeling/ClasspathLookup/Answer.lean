import ClasspathLookup.Access
import ClasspathLookup.Disk.Basic
import ClasspathLookup.WorkingCopy

/-!
# Answers and their rank

An answer is the class file or the source unit that declares a type, with the restriction that its
location puts on it and, from a module image, the module it stands in. Answers are ordered by access
first; at equal access a definitive answer stands above an advisory one.
-/

namespace ClasspathLookup

/-- A class file; inside an archive the origin is the archive and the entry is named. -/
structure BinaryType where
  origin : Path
  entry : Option String := none
  bytes : ByteArray
  annotations : Option AnnotationPath := none
deriving DecidableEq

/-- Where the source text of a type lives. -/
inductive SourceUnit where
  | workingCopy (copy : WorkingCopy)
  | file (path : Path) (mainType : String)
  | archiveEntry (archive : Path) (entry contents : String)
deriving DecidableEq

namespace SourceUnit

def isWorkingCopy : SourceUnit → Bool
  | .workingCopy _ => true
  | .file .. | .archiveEntry .. => false

/-- The file or archive on disk that holds the unit. -/
def path? : SourceUnit → Option Path
  | .workingCopy _ => none
  | .file path _ => some path
  | .archiveEntry archive _ _ => some archive

end SourceUnit

inductive Found where
  | source (unit : SourceUnit)
  | binary (type : BinaryType)
deriving DecidableEq

structure Answer where
  found : Found
  restriction : Option Restriction := none
  module : Option String := none
deriving DecidableEq

inductive AccessLevel where
  | forbidden
  | discouraged
  | unrestricted
deriving DecidableEq, Repr

def AccessLevel.height : AccessLevel → Nat
  | .forbidden => 0
  | .discouraged => 1
  | .unrestricted => 2

structure Rank where
  access : AccessLevel
  definitive : Bool
deriving DecidableEq, Repr

/-- The place of a rank in the order of all six. -/
def Rank.height (r : Rank) : Nat :=
  2 * r.access.height + r.definitive.toNat

namespace Answer

/-- A suggestion, kept while the search goes on. -/
def isAdvisory (a : Answer) : Bool :=
  match a.restriction with
  | none => false
  | some r => r.rule.advisory

def accessLevel (a : Answer) : AccessLevel :=
  match a.restriction with
  | none => .unrestricted
  | some r =>
    match r.severity with
    | .discouraged => .discouraged
    | .forbidden => .forbidden

def rank (a : Answer) : Rank :=
  ⟨a.accessLevel, !a.isAdvisory⟩

def height (a : Answer) : Nat :=
  a.rank.height

def compare (a b : Answer) : Ordering :=
  Ord.compare a.height b.height

/-- Anything is better than no answer, and an answer without a restriction is better than any. -/
def isBetterThan (a : Answer) : Option Answer → Bool
  | none => true
  | some b => a.restriction.isNone || b.height < a.height

theorem height_of_unrestricted {a : Answer} (h : a.restriction = none) : a.height = 5 := by
  simp [height, rank, accessLevel, isAdvisory, h, Rank.height, AccessLevel.height]

theorem height_le (a : Answer) : a.height ≤ 5 := by
  unfold height
  generalize a.rank = r
  obtain ⟨l, d⟩ := r
  cases l <;> cases d <;> decide

end Answer

end ClasspathLookup
