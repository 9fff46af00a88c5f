import ClasspathLookup.Location.Storage

/-!
# Asking one location

Each location can say which modules it is open to, whether it holds a package, which file is named
after a type, and which other source file of the package declares one. A module descriptor narrows
the question: its packages have to serve the package of the type, or reach the package asked for,
and in an image it selects the tree of that module.
-/

namespace ClasspathLookup

namespace ModuleImage

/-- The module list of an exploded image is read once; that of a packaged one belongs to its
archive. -/
def modules (image : ModuleImage) : Lookup (List String) :=
  match image.storage with
  | .folder _ => .explodedModules image
  | .archive handle => do
    let content ← Lookup.archive? handle
    pure ((content.map (·.topFolders)).getD [])

/-- The modules a query may look into. -/
def modulesFor (image : ModuleImage) (module : Option ModuleDescriptor) : Lookup (List String) := do
  let modules ← image.modules
  pure (modules.filter fun m => module.all (·.name = m))

def typeIn? (image : ModuleImage) (paths : TypePaths) (module : String) :
    Lookup (Option Answer) := do
  let answer ← image.storage.binary? (Slash.below module paths.qualified) image.annotations
  pure (answer.map fun a => { a with module := some module })

/-- With a descriptor only the tree of that module is looked at, if the image has it. -/
def type? (image : ModuleImage) (paths : TypePaths) (module : Option ModuleDescriptor) :
    Lookup (Option Answer) := do
  let modules ← image.modules
  match module with
  | none => Lookup.firstSome (image.typeIn? paths) modules
  | some descriptor =>
    if descriptor.name ∈ modules then image.typeIn? paths descriptor.name else pure none

def secondaryIn? (image : ModuleImage) (type package : String) (extensions : List String)
    (module : String) : Lookup (Option Answer) := do
  let folder := Slash.below module package
  let answer ← image.storage.secondary? folder type extensions fun _ => true
  pure (answer.map fun a => { a with module := some module })

end ModuleImage

/-- The first configured extension under which the folder holds an admitted file. -/
def SourceFolder.type? (folder : SourceFolder) (paths : TypePaths) (extensions : List String)
    (disk : Disk) : Option Answer :=
  extensions.findSome? fun extension =>
    let relative := paths.qualified ++ "." ++ extension
    let path := folder.root.below relative
    if folder.admits relative && disk.isFile path then
      some ⟨.source (.file path paths.fileName), none, none⟩
    else none

namespace Location

/-- Only images contain modules. -/
def imageModules : Location → Lookup (List String)
  | .image l => l.modules
  | .source _ | .classes _ | .archive _ => pure []

def servesModule (location : Location) (module : String) : Lookup Bool :=
  match location with
  | .source l => pure (l.scope.serves module)
  | .classes l => pure (l.scope.serves module)
  | .archive l => pure (l.scope.serves module)
  | .image l => do
    let modules ← l.modules
    pure (modules.contains module)

def isPackage (location : Location) (package : String) (module : Option ModuleDescriptor) :
    Lookup Bool :=
  if module.all (·.reaches package) then
    match location with
    | .source l =>
      .onDisk fun disk => l.admitsPackage package && disk.isFolder (l.root.below package)
    | .classes l => (Storage.folder l.root).isFolder package
    | .archive l => (Storage.archive l.handle).isFolder package
    | .image l => do
      let modules ← l.modulesFor module
      Lookup.any (fun m => l.storage.isFolder (Slash.below m package)) modules
  else pure false

/-- The file named after a type. The paths are taken in the style they have: source folders add an
extension, all others look for the path itself. -/
def type? (location : Location) (paths : TypePaths) (module : Option ModuleDescriptor)
    (extensions : List String) : Lookup (Option Answer) :=
  if module.all (·.serves paths.package) then
    match location with
    | .source l => .onDisk (l.type? paths extensions)
    | .classes l => do
      let answer ← (Storage.folder l.root).binary? paths.qualified none
      pure (answer.map fun a => { a with restriction := l.rules.restriction? paths.typeName })
    | .archive l => do
      let answer ← (Storage.archive l.handle).binary? paths.qualified l.annotations
      pure (answer.map fun a => { a with restriction := l.rules.restriction? paths.typeName })
    | .image l => l.type? paths module
  else pure none

/-- A type declared in a source file that is named after another type of the package. -/
def secondary? (location : Location) (type package : String) (module : Option ModuleDescriptor)
    (extensions : List String) : Lookup (Option Answer) :=
  let restriction (rules : AccessRules) : Option Restriction :=
    rules.restriction? (Slash.below package type)
  if module.all (·.serves package) then
    match location with
    | .source l => (Storage.folder l.root).secondary? package type extensions l.admits
    | .classes l => do
      let answer ← (Storage.folder l.root).secondary? package type extensions fun _ => true
      pure (answer.map fun a => { a with restriction := restriction l.rules })
    | .archive l => do
      let answer ← (Storage.archive l.handle).secondary? package type extensions fun _ => true
      pure (answer.map fun a => { a with restriction := restriction l.rules })
    | .image l => do
      Lookup.firstSome (l.secondaryIn? type package extensions) (← l.modulesFor module)
  else pure none

end Location

end ClasspathLookup
