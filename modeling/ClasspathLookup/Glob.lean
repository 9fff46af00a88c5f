import ClasspathLookup.Text.Slash

/-!
# Glob patterns

A pattern is matched segment by segment. The segment `**` takes any number of segments of the path,
every other one takes a single segment and matches its bytes: `?` is any byte, `*` any run of bytes.
A pattern that ends in a slash reaches everything below its folder.

Inside a segment a byte that agrees is taken before a star is opened, and after a mismatch only the
last star opened is extended.
-/

namespace ClasspathLookup.Glob

def star : UInt8 := 42

def anyByte : UInt8 := 63

/-- How far the bytes agree: to the end of the text, to a star, or to a byte that differs. -/
inductive Agreement where
  | ended (pattern : List UInt8)
  | star (pattern text : List UInt8)
  | differs

def agree : List UInt8 → List UInt8 → Agreement
  | pattern, [] => .ended pattern
  | [], _ :: _ => .differs
  | p :: pattern, t :: text =>
    if p = anyByte ∨ p = t then agree pattern text
    else if p = star then .star pattern (t :: text)
    else .differs

/-- A star is paid for by the pattern, and the text does not grow. -/
theorem length_lt_of_agree {pattern text rest tail : List UInt8}
    (h : agree pattern text = .star rest tail) :
    rest.length < pattern.length ∧ tail.length ≤ text.length := by
  fun_induction agree pattern text with
  | case1 => simp at h
  | case2 => simp at h
  | case3 p pattern t text _ ih =>
    have hlen := ih h
    simp only [List.length_cons]
    omega
  | case4 p pattern t text =>
    rw [Agreement.star.injEq] at h
    rw [← h.1, ← h.2]
    simp
  | case5 => simp at h

/-- Matches what follows a star: the star gives up its bytes one at a time, and for good once the
next star is reached. -/
def matchAfterStar (pattern text : List UInt8) : Bool :=
  match _h : agree pattern text with
  | .ended rest => rest.all (· = star)
  | .star rest tail => matchAfterStar rest tail
  | .differs =>
    match text with
    | [] => false
    | _ :: text => matchAfterStar pattern text
termination_by pattern.length + text.length
decreasing_by
  · have hlen := length_lt_of_agree _h
    omega
  · simp only [List.length_cons]
    omega

def matchBytes (pattern text : List UInt8) : Bool :=
  match agree pattern text with
  | .ended rest => rest.all (· = star)
  | .star rest tail => matchAfterStar rest tail
  | .differs => false

def bytes (text : String) : List UInt8 :=
  text.toUTF8.data.toList

/-- Whether the test holds of the list or of what is left of it after some first elements. -/
def anyTail {α : Type} (test : List α → Bool) : List α → Bool
  | [] => test []
  | a :: as => test (a :: as) || anyTail test as

theorem anyTail_eq_true_iff {α : Type} {test : List α → Bool} {as : List α} :
    anyTail test as = true ↔ ∃ front back, as = front ++ back ∧ test back = true := by
  induction as with
  | nil =>
    constructor
    · exact fun h => ⟨[], [], rfl, h⟩
    · rintro ⟨front, back, he, h⟩
      rw [(List.append_eq_nil_iff.1 he.symm).2] at h
      exact h
  | cons a as ih =>
    simp only [anyTail, Bool.or_eq_true, ih]
    constructor
    · rintro (h | ⟨front, back, rfl, h⟩)
      · exact ⟨[], a :: as, rfl, h⟩
      · exact ⟨a :: front, back, rfl, h⟩
    · rintro ⟨front, back, he, h⟩
      cases front with
      | nil => exact Or.inl (by rw [he]; exact h)
      | cons f front =>
        simp only [List.cons_append, List.cons.injEq] at he
        exact Or.inr ⟨front, back, he.2, h⟩

def matchSegments : List String → List String → Bool
  | [], path => path.isEmpty
  | p :: pattern, path =>
    if p = "**" then anyTail (matchSegments pattern) path
    else
      match path with
      | [] => false
      | segment :: rest => matchBytes (bytes p) (bytes segment) && matchSegments pattern rest

/-- The segments of a pattern; after a final slash stands `**`. -/
def segments (pattern : String) : List String :=
  Slash.split (if pattern.toList.getLast? = some '/' then pattern ++ "**" else pattern)

/-- Whether the pattern covers the path. -/
def covers (pattern path : String) : Bool :=
  matchSegments (segments pattern) (Slash.split path)

end ClasspathLookup.Glob
