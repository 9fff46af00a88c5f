import ClasspathLookup.Environment.Scan
import ClasspathLookup.Location.Query
import ClasspathLookup.LocationSet

/-!
# Name environments

An environment finds the source unit or class file that declares a type. Every location that the
module filter admits is asked in order. An open unit stands for the type in all source folders. When
the scan finds nothing definitive and a source folder takes part, the other source files of the
package are searched for the type, and only then the suggestion of the scan is given.
-/

namespace ClasspathLookup

/-- The module descriptors under which a location takes part in a query; none for a location that is
left out. Without a filter every location takes part, under no descriptor. -/
def Location.admitted (location : Location) : ModuleFilter → Lookup (List (Option ModuleDescriptor))
  | .all => pure [none]
  | .only modules => do
    let served ← Lookup.filter (fun m => location.servesModule m.name) modules
    pure (served.map some)

structure Environment where
  locations : LocationSet := {}
  overlay : Overlay := {}
  options : Options := {}

/-- The classpath roots of projects; nothing for a project that does not exist. -/
abbrev Projects := String → Option (List ClasspathRoot)

namespace Environment

def create (locations : LocationSet) (copies : List WorkingCopy) (options : Options) :
    Environment :=
  ⟨locations, Overlay.ofCopies copies options.sourceExtensions, options⟩

/-- A project that does not exist has an empty classpath. -/
def forProject (disk : Disk) (projects : Projects) (project : String) (copies : List WorkingCopy)
    (options : Options) : Environment :=
  create (LocationSet.build disk ((projects project).getD []) options.archiveExtensions) copies
    options

/-- Appends the roots of another project and counts the new locations. -/
def addProject (environment : Environment) (disk : Disk) (projects : Projects) (project : String) :
    Nat × Environment :=
  match projects project with
  | none => (0, environment)
  | some roots =>
    let (added, locations) := environment.locations.merge disk roots
    (added, { environment with locations := locations })

def cleanup (environment : Environment) : Environment :=
  { environment with locations := environment.locations.cleanup }

/-- Runs a query; what it reads for good stays with the locations. -/
def run {α : Type} (environment : Environment) (disk : Disk) (lookup : Lookup α) :
    α × Environment :=
  let (value, locations) := environment.locations.run disk lookup
  (value, { environment with locations := locations })

/-- The answer of one location to the primary scan. -/
def probe (environment : Environment) (name : TypeName) (filter : ModuleFilter)
    (location : Location) : Lookup (Option Answer) := do
  let descriptors ← location.admitted filter
  let extensions := environment.options.sourceExtensions
  match location, environment.overlay.find? name.path with
  | .source _, some copy =>
    pure (if descriptors.isEmpty then none else some ⟨.source (.workingCopy copy), none, none⟩)
  | .source _, none =>
    Lookup.firstSome (fun m => location.type? (.source name) m extensions) descriptors
  | _, _ => Lookup.firstSome (fun m => location.type? (.binary name) m extensions) descriptors

def scan (environment : Environment) (name : TypeName) (filter : ModuleFilter) : Lookup Outcome :=
  environment.options.scanPolicy.scan (environment.probe name filter) none
    environment.locations.locations

/-- Whether a source folder takes part in a query. -/
def asksSourceFolder (environment : Environment) (filter : ModuleFilter) : Bool :=
  environment.locations.locations.any fun location =>
    match location, filter with
    | .source _, .all => true
    | .source l, .only modules => modules.any fun m => l.scope.serves m.name
    | _, _ => false

/-- A filter for a single module asks only the first location that serves it. -/
def secondary? (environment : Environment) (name : TypeName) (filter : ModuleFilter) :
    Lookup (Option Answer) := do
  let locations := environment.locations.locations
  let ask (location : Location) (m : Option ModuleDescriptor) : Lookup (Option Answer) :=
    location.secondary? name.simple name.packagePath m environment.options.sourceExtensions
  match filter.single? with
  | some m =>
    match ← Lookup.find? (fun location => location.servesModule m.name) locations with
    | none => pure none
    | some location => ask location (some m)
  | none =>
    Lookup.firstSome (fun location => do
      Lookup.firstSome (ask location) (← location.admitted filter)) locations

def findType (environment : Environment) (name : TypeName) (filter : ModuleFilter) :
    Lookup (Option Answer) := do
  let outcome ← environment.scan name filter
  let fallback (suggestion : Option Answer) : Lookup (Option Answer) := do
    if environment.options.secondary && environment.asksSourceFolder filter then
      match ← environment.secondary? name filter with
      | some answer => pure (some answer)
      | none => pure suggestion
    else pure suggestion
  match outcome with
  | .found answer => pure (some answer)
  | .suggested answer => fallback (some answer)
  | .missing => fallback none

/-- Nothing is found for parts that make no name. -/
def findTypeIn (environment : Environment) (package : List String) (simple : String)
    (filter : ModuleFilter) : Lookup (Option Answer) :=
  match TypeName.ofParts? package simple with
  | some name => environment.findType name filter
  | none => pure none

def findTypeOfSegments (environment : Environment) (segments : List String)
    (filter : ModuleFilter) : Lookup (Option Answer) :=
  match TypeName.ofSegments? segments with
  | some name => environment.findType name filter
  | none => pure none

def isPackage (environment : Environment) (package : String) (filter : ModuleFilter) :
    Lookup Bool :=
  Lookup.any (fun location => do
    Lookup.any (location.isPackage package) (← location.admitted filter))
    environment.locations.locations

/-- The package below a parent package given by its segments. -/
def isPackageIn (environment : Environment) (parent : List String) (package : String)
    (filter : ModuleFilter) : Lookup Bool :=
  environment.isPackage (parent.foldr (fun segment rest => segment ++ "/" ++ rest) package) filter

end Environment

end ClasspathLookup
