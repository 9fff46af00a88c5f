/-!
# Sorted names

Names are listed by code points, which for text is also the order of the bytes. The order of a
listing therefore depends on the names alone.
-/

namespace ClasspathLookup.Text

/-- Puts a name before the first one that is not smaller. -/
def insertSorted (name : String) : List String → List String
  | [] => [name]
  | other :: rest => if name ≤ other then name :: other :: rest else other :: insertSorted name rest

def sorted (names : List String) : List String :=
  names.foldr insertSorted []

theorem insertSorted_perm (name : String) (names : List String) :
    (insertSorted name names).Perm (name :: names) := by
  induction names with
  | nil => exact List.Perm.refl _
  | cons other rest ih =>
    unfold insertSorted
    split
    · exact List.Perm.refl _
    · exact (ih.cons other).trans (List.Perm.swap name other rest)

theorem sorted_perm (names : List String) : (sorted names).Perm names := by
  induction names with
  | nil => exact List.Perm.refl _
  | cons name names ih => exact (insertSorted_perm name (sorted names)).trans (ih.cons name)

@[simp] theorem mem_sorted {names : List String} {name : String} :
    name ∈ sorted names ↔ name ∈ names :=
  (sorted_perm names).mem_iff

theorem pairwise_insertSorted (name : String) {names : List String}
    (h : names.Pairwise (· ≤ ·)) : (insertSorted name names).Pairwise (· ≤ ·) := by
  induction names with
  | nil => simp [insertSorted]
  | cons other rest ih =>
    rw [List.pairwise_cons] at h
    unfold insertSorted
    split
    · rename_i hle
      refine List.pairwise_cons.2 ⟨?_, List.pairwise_cons.2 h⟩
      intro a ha
      rcases List.mem_cons.1 ha with rfl | ha
      · exact hle
      · exact String.le_trans hle (h.1 a ha)
    · rename_i hle
      refine List.pairwise_cons.2 ⟨?_, ih h.2⟩
      intro a ha
      rcases List.mem_cons.1 ((insertSorted_perm name rest).mem_iff.1 ha) with rfl | ha
      · exact (String.le_total a other).resolve_left hle
      · exact h.1 a ha

theorem pairwise_sorted (names : List String) : (sorted names).Pairwise (· ≤ ·) := by
  induction names with
  | nil => exact List.Pairwise.nil
  | cons name names ih => exact pairwise_insertSorted name ih

/-- A sorted list is told by the names in it, with how often each occurs. -/
theorem eq_of_perm {names others : List String} (h : names.Perm others)
    (hnames : names.Pairwise (· ≤ ·)) (hothers : others.Pairwise (· ≤ ·)) : names = others :=
  h.eq_of_pairwise (fun _ _ _ _ hab hba => String.le_antisymm hab hba) hnames hothers

end ClasspathLookup.Text
