import ClasspathLookup.Disk.Path

/-!
# Positions in the file tree

A position is the list of names that lead from the work directory to a folder or file. Only names
that an entry of a folder can have occur in it: no empty name, none that means a step, none that
holds a slash or a zero character, none of more than 255 bytes. A walk may also leave the work
directory upwards; above it there are only folders that name nothing.
-/

namespace ClasspathLookup

/-- Whether an entry of a folder can have this name. -/
def isEntryName (name : String) : Bool :=
  Path.isStep name && name ≠ ".." && !name.toList.contains '/' && !name.toList.contains '\x00' &&
    name.utf8ByteSize ≤ 255

structure Position where
  names : List String
  valid : names.all isEntryName = true := by rfl
deriving DecidableEq

namespace Position

/-- The work directory. -/
def root : Position := ⟨[], rfl⟩

def child? (position : Position) (name : String) : Option Position :=
  if h : isEntryName name = true then
    some ⟨position.names ++ [name], by simp [List.all_append, position.valid, h]⟩
  else none

theorem all_dropLast {α : Type} {test : α → Bool} {as : List α} (h : as.all test = true) :
    as.dropLast.all test = true := by
  rw [List.all_eq_true] at h ⊢
  exact fun a ha => h a ((List.dropLast_sublist as).subset ha)

/-- Where a position stands in; the work directory counts as its own parent here. -/
def parent (position : Position) : Position :=
  ⟨position.names.dropLast, all_dropLast position.valid⟩

/-- The last name of a position that stands directly in a folder. -/
def nameIn? (folder position : Position) : Option String :=
  match position.names.getLast? with
  | some name => if position.parent = folder then some name else none
  | none => none

/-- A position and everything below it. -/
def contains (folder position : Position) : Bool :=
  folder.names.isPrefixOf position.names

/-- The positions passed by some steps, the first and the last included. -/
def passed? (position : Position) : List String → Option (List Position)
  | [] => some [position]
  | step :: steps => do
    let next ← if step = ".." then some position.parent else position.child? step
    let rest ← next.passed? steps
    pure (position :: rest)

@[simp] theorem names_of_child? {position child : Position} {name : String}
    (h : position.child? name = some child) : child.names = position.names ++ [name] := by
  unfold child? at h
  split at h
  · rw [← Option.some.inj h]
  · simp at h

end Position

inductive Place where
  | above
  | at (position : Position)
deriving DecidableEq

namespace Place

def up : Place → Place
  | .above => .above
  | .at position => if position.names = [] then .above else .at position.parent

def child? : Place → String → Option Place
  | .above, _ => none
  | .at position, name => (position.child? name).map .at

/-- The path that leads straight to a place. -/
def path : Place → Path
  | .above => ⟨[".."], false⟩
  | .at position => ⟨position.names, false⟩

end Place

end ClasspathLookup
