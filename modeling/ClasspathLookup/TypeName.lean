import ClasspathLookup.Text.Slash

/-!
# Qualified type names

A type name is a package, as a list of segments, and a simple name. No segment is empty. The slashed
form `java/util/List` is also the relative path of the type's file below a classpath root, so the
two spellings of that path, for source files and for class files, are given here as well.
-/

namespace ClasspathLookup

structure TypeName where
  package : List String
  simple : String
  package_nonempty : ∀ segment ∈ package, segment ≠ ""
  simple_nonempty : simple ≠ ""
deriving DecidableEq

namespace TypeName

/-- Fails exactly when a segment is empty. -/
def ofParts? (package : List String) (simple : String) : Option TypeName :=
  if h : (∀ segment ∈ package, segment ≠ "") ∧ simple ≠ "" then
    some ⟨package, simple, h.1, h.2⟩
  else none

/-- The last segment is the simple name, so there has to be one. -/
def ofSegments? (segments : List String) : Option TypeName :=
  match segments.reverse with
  | [] => none
  | simple :: package => ofParts? package.reverse simple

/-- Reads the slashed form. -/
def parse? (text : String) : Option TypeName :=
  ofSegments? (Slash.split text)

def segments (name : TypeName) : List String :=
  name.package ++ [name.simple]

/-- The slashed form. -/
def path (name : TypeName) : String :=
  Slash.join name.segments

/-- The slashed package, empty for the default package. -/
def packagePath (name : TypeName) : String :=
  Slash.join name.package

theorem segments_nonempty (name : TypeName) : ∀ segment ∈ name.segments, segment ≠ "" := by
  intro segment h
  rcases List.mem_append.1 h with h | h
  · exact name.package_nonempty segment h
  · rw [List.mem_singleton.1 h]
    exact name.simple_nonempty

theorem ofParts?_self (name : TypeName) : ofParts? name.package name.simple = some name := by
  unfold ofParts?
  rw [dif_pos ⟨name.package_nonempty, name.simple_nonempty⟩]

theorem ofSegments?_segments (name : TypeName) : ofSegments? name.segments = some name := by
  simp [ofSegments?, segments, ofParts?_self]

end TypeName

/-- The ending of class files. -/
def classEnding : String := ".class"

/-- The relative path of a type's file in the style of one kind of storage. -/
structure TypePaths where
  fileName : String
  package : String
  qualified : String
deriving DecidableEq

namespace TypePaths

/-- Without an extension: every source folder tries its own. -/
def source (name : TypeName) : TypePaths :=
  ⟨name.simple, name.packagePath, name.path⟩

def binary (name : TypeName) : TypePaths :=
  ⟨name.simple ++ classEnding, name.packagePath, name.path ++ classEnding⟩

/-- The slashed type name that access rules are asked about: one class ending is dropped. -/
def typeName (paths : TypePaths) : String :=
  let text := paths.qualified.toList
  let ending := classEnding.toList
  if ending.isSuffixOf text then String.ofList (text.take (text.length - ending.length))
  else paths.qualified

@[simp] theorem typeName_binary (name : TypeName) : (binary name).typeName = name.path := by
  simp [typeName, binary, List.suffix_append]

end TypePaths

end ClasspathLookup
