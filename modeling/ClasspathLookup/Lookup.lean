import ClasspathLookup.Location.Basic

/-!
# Lookups

A lookup reads the disk, the archives and the module lists of images as they are seen when the query
starts. What an archive holds when it is first read is fixed from then on, and so is the module list
of an exploded image; a lookup therefore tells, beside its value, which of them it asked for. Fixing
them changes nothing but later queries. The value of a lookup is a function of the view alone: the
`value` lemmas keep what was asked for out of every argument about values.
-/

namespace ClasspathLookup

/-- What queries see: archives as first opened, module lists as first read, and else the disk. -/
structure View where
  disk : Disk
  archive? : ArchiveHandle → Option Archive
  explodedModules : ModuleImage → List String

/-- What is fixed once it has been asked for. -/
inductive Need where
  | archive (handle : ArchiveHandle)
  | explodedModules (image : ModuleImage)
deriving DecidableEq

def Lookup (α : Type) : Type :=
  View → α × List Need

namespace Lookup

variable {α β : Type}

instance : Monad Lookup where
  pure a := fun _ => (a, [])
  bind x f := fun view =>
    let (a, first) := x view
    let (b, second) := f a view
    (b, first ++ second)

def value (x : Lookup α) (view : View) : α :=
  (x view).1

def needs (x : Lookup α) (view : View) : List Need :=
  (x view).2

@[simp] theorem value_pure (a : α) (view : View) : value (pure a) view = a := rfl

@[simp] theorem value_bind (x : Lookup α) (f : α → Lookup β) (view : View) :
    value (x >>= f) view = value (f (value x view)) view := rfl

@[simp] theorem value_map (f : α → β) (x : Lookup α) (view : View) :
    value (f <$> x) view = f (value x view) := rfl

@[simp] theorem value_ite (p : Prop) [Decidable p] (x y : Lookup α) (view : View) :
    value (if p then x else y) view = if p then value x view else value y view := by
  split <;> rfl

@[simp] theorem needs_pure (a : α) (view : View) : needs (pure a) view = [] := rfl

@[simp] theorem needs_bind (x : Lookup α) (f : α → Lookup β) (view : View) :
    needs (x >>= f) view = needs x view ++ needs (f (value x view)) view := rfl

/-- Reads the disk as it is now; nothing of it is kept. -/
def onDisk (f : Disk → α) : Lookup α :=
  fun view => (f view.disk, [])

@[simp] theorem value_onDisk (f : Disk → α) (view : View) : value (onDisk f) view = f view.disk :=
  rfl

def archive? (handle : ArchiveHandle) : Lookup (Option Archive) :=
  fun view => (view.archive? handle, [.archive handle])

@[simp] theorem value_archive? (handle : ArchiveHandle) (view : View) :
    value (archive? handle) view = view.archive? handle := rfl

def explodedModules (image : ModuleImage) : Lookup (List String) :=
  fun view => (view.explodedModules image, [.explodedModules image])

@[simp] theorem value_explodedModules (image : ModuleImage) (view : View) :
    value (explodedModules image) view = view.explodedModules image := rfl

/-- The first result; nothing after it is looked at. -/
def firstSome (f : α → Lookup (Option β)) : List α → Lookup (Option β)
  | [] => pure none
  | a :: as => do
    match ← f a with
    | some b => pure (some b)
    | none => firstSome f as

@[simp] theorem value_firstSome (f : α → Lookup (Option β)) (as : List α) (view : View) :
    value (firstSome f as) view = as.findSome? fun a => value (f a) view := by
  induction as with
  | nil => rfl
  | cons a as ih =>
    simp only [firstSome, value_bind, List.findSome?_cons]
    split <;> simp_all

def any (f : α → Lookup Bool) : List α → Lookup Bool
  | [] => pure false
  | a :: as => do
    if ← f a then pure true else any f as

@[simp] theorem value_any (f : α → Lookup Bool) (as : List α) (view : View) :
    value (any f as) view = as.any fun a => value (f a) view := by
  induction as with
  | nil => rfl
  | cons a as ih =>
    simp only [any, value_bind, value_ite, List.any_cons, value_pure, ih]
    cases value (f a) view <;> rfl

def filter (f : α → Lookup Bool) : List α → Lookup (List α)
  | [] => pure []
  | a :: as => do
    let keep ← f a
    let rest ← filter f as
    pure (if keep then a :: rest else rest)

@[simp] theorem value_filter (f : α → Lookup Bool) (as : List α) (view : View) :
    value (filter f as) view = as.filter fun a => value (f a) view := by
  induction as with
  | nil => rfl
  | cons a as ih => simp [filter, List.filter_cons, ih]

def find? (f : α → Lookup Bool) : List α → Lookup (Option α)
  | [] => pure none
  | a :: as => do
    if ← f a then pure (some a) else find? f as

@[simp] theorem value_find? (f : α → Lookup Bool) (as : List α) (view : View) :
    value (find? f as) view = as.find? fun a => value (f a) view := by
  induction as with
  | nil => rfl
  | cons a as ih =>
    simp only [find?, value_bind, value_ite, value_pure, ih, List.find?_cons]
    cases value (f a) view <;> rfl

end Lookup

end ClasspathLookup
