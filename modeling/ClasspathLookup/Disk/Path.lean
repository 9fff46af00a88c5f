import ClasspathLookup.Text.Slash

/-!
# Paths

A path is read relative to the work directory. Empty and `.` segments carry no step; `..` is kept,
because the folder before it has to exist. A text that ends in an empty or a `.` segment asks for a
folder, which the file system checks although the steps are the same. Paths are compared by their
steps.
-/

namespace ClasspathLookup

structure Path where
  steps : List String
  asFolder : Bool := false
deriving DecidableEq

namespace Path

/-- Whether a segment leads anywhere. -/
def isStep (segment : String) : Bool :=
  segment ≠ "" && segment ≠ "."

def ofText (text : String) : Path where
  steps := (Slash.split text).filter isStep
  asFolder := ((Slash.split text).getLast?.map fun s => !isStep s).getD false

def text (path : Path) : String :=
  Slash.join path.steps

/-- The path of what a slashed text names below a folder: empty segments are skipped there. -/
def below (root : Path) (relative : String) : Path :=
  let segments := (Slash.split relative).filter (· ≠ "")
  { steps := root.steps ++ segments.filter isStep
    asFolder := (segments.getLast?.map fun s => !isStep s).getD root.asFolder }

/-- The last step; a step upwards names no file. -/
def fileName? (path : Path) : Option String :=
  match path.steps.getLast? with
  | some name => if name = ".." then none else some name
  | none => none

def parent (path : Path) : Path :=
  ⟨path.steps.dropLast, true⟩

/-- What follows the last dot of the file name; a name that only starts with a dot has none. -/
def extension? (path : Path) : Option String :=
  match path.fileName?.bind (Slash.cutLast '.') with
  | some (stem, extension) => if stem = "" then none else some extension
  | none => none

end Path

/-- The place of external annotations: only the text is passed on, two places are compared by their
steps. Such a path is not joined to the work directory, so a first `.` counts, and so does a first
slash. -/
structure AnnotationPath where
  text : String
deriving DecidableEq

namespace AnnotationPath

def key (path : AnnotationPath) : List String :=
  match Slash.split path.text with
  | "" :: next :: rest => "/" :: (next :: rest).filter Path.isStep
  | "." :: rest => "." :: rest.filter Path.isStep
  | segments => segments.filter Path.isStep

end AnnotationPath

end ClasspathLookup
