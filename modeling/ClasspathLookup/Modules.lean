import ClasspathLookup.Text.Slash

/-!
# Modules

A descriptor names a module and the packages it serves; without packages it serves all of them. A
query is filtered by descriptors, and a location is open to the modules of its scope.
-/

namespace ClasspathLookup

structure ModuleDescriptor where
  name : String
  packages : List String := []

namespace ModuleDescriptor

/-- Packages may be given dotted or slashed. -/
def ofPackages (name : String) (packages : List String) : ModuleDescriptor :=
  ⟨name, packages.map Slash.ofDotted⟩

def serves (m : ModuleDescriptor) (package : String) : Bool :=
  m.packages.isEmpty || m.packages.contains package

/-- The package is served, or a served package lies below it. -/
def reaches (m : ModuleDescriptor) (package : String) : Bool :=
  m.serves package || m.packages.any fun p => (package.toList ++ ['/']).isPrefixOf p.toList

/-- Equality of the name and of the set of packages. -/
def same (m n : ModuleDescriptor) : Bool :=
  m.name = n.name && m.packages.all n.packages.contains && n.packages.all m.packages.contains

theorem reaches_of_serves {m : ModuleDescriptor} {package : String} (h : m.serves package = true) :
    m.reaches package = true := by
  simp [reaches, h]

end ModuleDescriptor

inductive ModuleFilter where
  | all
  | only (modules : List ModuleDescriptor)

namespace ModuleFilter

/-- The descriptor of a filter that holds exactly one. -/
def single? : ModuleFilter → Option ModuleDescriptor
  | .only [m] => some m
  | _ => none

end ModuleFilter

/-- The modules a location is open to. -/
inductive ModuleScope where
  | all
  | named (modules : List String)
deriving DecidableEq

def ModuleScope.serves : ModuleScope → String → Bool
  | .all, _ => true
  | .named modules, m => modules.contains m

end ClasspathLookup
