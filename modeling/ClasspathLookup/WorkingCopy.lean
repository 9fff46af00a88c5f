import ClasspathLookup.Text.Slash
import ClasspathLookup.Keyed

/-!
# Working copies

An open unit is held in memory with a dotted package and a file name. The overlay finds it under its
main type: the slashed package and the file name without a recognised extension. Of two units with
one main type the later one is kept.
-/

namespace ClasspathLookup

structure WorkingCopy where
  package : String
  fileName : String
  contents : String := ""
deriving DecidableEq

namespace WorkingCopy

/-- An extension that is not configured belongs to the name. -/
def mainType (copy : WorkingCopy) (extensions : List String) : String :=
  match Slash.cutLast '.' copy.fileName with
  | some (stem, extension) => if extension ∈ extensions then stem else copy.fileName
  | none => copy.fileName

def qualifiedMainType (copy : WorkingCopy) (extensions : List String) : String :=
  if copy.package = "" then copy.mainType extensions
  else Slash.ofDotted copy.package ++ "/" ++ copy.mainType extensions

end WorkingCopy

structure Overlay where
  copies : Keyed String WorkingCopy := {}

namespace Overlay

def ofCopies (copies : List WorkingCopy) (extensions : List String) : Overlay :=
  ⟨Keyed.ofList (copies.map fun copy => (copy.qualifiedMainType extensions, copy))⟩

/-- The unit whose main type has this slashed name. -/
def find? (overlay : Overlay) (name : String) : Option WorkingCopy :=
  overlay.copies.find? name

def size (overlay : Overlay) : Nat :=
  overlay.copies.size

end Overlay

end ClasspathLookup
