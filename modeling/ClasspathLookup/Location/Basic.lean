import ClasspathLookup.Access
import ClasspathLookup.Archive.Cache
import ClasspathLookup.Modules

/-!
# Locations

A classpath is made of four kinds of location: source folders with inclusion and exclusion patterns,
class folders and archives with access rules, and runtime images whose top-level folders are
modules. An image is either a folder or packaged in an archive. The key of a location says what it
searches and under which rules; locations with equal keys are duplicates.
-/

namespace ClasspathLookup

/-- A folder tree or an archive. -/
inductive Storage where
  | folder (root : Path)
  | archive (handle : ArchiveHandle)
deriving DecidableEq

def Storage.root : Storage → Path
  | .folder root => root
  | .archive handle => handle.path

structure SourceFolder where
  root : Path
  inclusion : List String := []
  exclusion : List String := []
  scope : ModuleScope := .all
deriving DecidableEq

structure ClassFolder where
  root : Path
  rules : AccessRules := {}
  scope : ModuleScope := .all
deriving DecidableEq

structure ClassArchive where
  handle : ArchiveHandle
  rules : AccessRules := {}
  annotations : Option AnnotationPath := none
  scope : ModuleScope := .all
deriving DecidableEq

structure ModuleImage where
  storage : Storage
  annotations : Option AnnotationPath := none
deriving DecidableEq

inductive Location where
  | source (folder : SourceFolder)
  | classes (folder : ClassFolder)
  | archive (archive : ClassArchive)
  | image (image : ModuleImage)
deriving DecidableEq

inductive LocationKind where
  | sourceFolder
  | classFolder
  | archive
  | moduleImage
deriving DecidableEq, Repr

structure LocationKey where
  kind : LocationKind
  root : List String
  rules : AccessRules := {}
  inclusion : List String := []
  exclusion : List String := []
  annotations : Option (List String) := none
  scope : ModuleScope := .all
deriving DecidableEq

/-- Packaged and exploded images have one kind of key. -/
def ModuleImage.key (image : ModuleImage) : LocationKey :=
  { kind := .moduleImage
    root := image.storage.root.steps
    annotations := image.annotations.map AnnotationPath.key }

namespace Location

def kind : Location → LocationKind
  | .source _ => .sourceFolder
  | .classes _ => .classFolder
  | .archive _ => .archive
  | .image _ => .moduleImage

def storage : Location → Storage
  | .source l => .folder l.root
  | .classes l => .folder l.root
  | .archive l => .archive l.handle
  | .image l => l.storage

def root (location : Location) : Path :=
  location.storage.root

def key : Location → LocationKey
  | .source l =>
    { kind := .sourceFolder
      root := l.root.steps
      inclusion := l.inclusion
      exclusion := l.exclusion
      scope := l.scope }
  | .classes l =>
    { kind := .classFolder
      root := l.root.steps
      rules := l.rules
      scope := l.scope }
  | .archive l =>
    { kind := .archive
      root := l.handle.path.steps
      rules := l.rules
      annotations := l.annotations.map AnnotationPath.key
      scope := l.scope }
  | .image l => l.key

theorem key_kind (location : Location) : location.key.kind = location.kind := by
  cases location <;> rfl

theorem key_root (location : Location) : location.key.root = location.root.steps := by
  cases location <;> rfl

end Location

namespace SourceFolder

/-- Exclusion wins, and without inclusion patterns everything else is included. -/
def admits (folder : SourceFolder) (relative : String) : Bool :=
  !folder.exclusion.any (Glob.covers · relative) &&
    (folder.inclusion.isEmpty || folder.inclusion.any (Glob.covers · relative))

/-- A package is hidden when its folder is excluded, and visible when an inclusion pattern can reach
inside of it. -/
def admitsPackage (folder : SourceFolder) (package : String) : Bool :=
  package = "" ||
    (!folder.exclusion.any (Glob.covers · package) &&
      (folder.inclusion.isEmpty || folder.inclusion.any fun pattern =>
        Glob.covers pattern package || (package.toList ++ ['/']).isPrefixOf pattern.toList ||
          ['*', '*'].isPrefixOf pattern.toList))

end SourceFolder

end ClasspathLookup
