/-!
# Finite maps

A map is the list of its pairs in the order in which the keys came, with no key twice. Open units,
files, archive entries and opened archives are all kept in such maps; a second value for a key
either replaces the first (`insert`) or is dropped (`insertNew`).
-/

namespace ClasspathLookup

structure Keyed (κ : Type) (α : Type) where
  pairs : List (κ × α) := []
  nodup : (pairs.map Prod.fst).Nodup := by simp

namespace Keyed

variable {κ α : Type} [DecidableEq κ]

instance : Inhabited (Keyed κ α) := ⟨{}⟩

def find? (m : Keyed κ α) (key : κ) : Option α :=
  (m.pairs.find? fun p => p.1 = key).map Prod.snd

def keys (m : Keyed κ α) : List κ :=
  m.pairs.map Prod.fst

def size (m : Keyed κ α) : Nat :=
  m.pairs.length

/-- Keeps the pairs whose key passes the test. -/
def filterKeys (test : κ → Bool) (m : Keyed κ α) : Keyed κ α where
  pairs := m.pairs.filter fun p => test p.1
  nodup := m.nodup.sublist (List.filter_sublist.map Prod.fst)

def insert (m : Keyed κ α) (key : κ) (value : α) : Keyed κ α where
  pairs := m.pairs.filter (fun p => p.1 ≠ key) ++ [(key, value)]
  nodup := by
    rw [List.map_append, List.nodup_append]
    refine ⟨m.nodup.sublist (List.filter_sublist.map Prod.fst), by simp, ?_⟩
    intro a ha b hb
    simp only [List.mem_map, List.mem_filter] at ha
    obtain ⟨p, ⟨_, hp⟩, rfl⟩ := ha
    simp only [List.map_cons, List.map_nil, List.mem_singleton] at hb
    simpa [hb] using hp

/-- The first value of a key stays. -/
def insertNew (m : Keyed κ α) (key : κ) (value : α) : Keyed κ α :=
  if (m.find? key).isSome then m else m.insert key value

/-- Later pairs replace earlier ones of the same key. -/
def ofList (pairs : List (κ × α)) : Keyed κ α :=
  pairs.foldl (fun m p => m.insert p.1 p.2) {}

@[simp] theorem find?_empty (key : κ) : ({} : Keyed κ α).find? key = none := rfl

theorem find?_filterKeys (m : Keyed κ α) (test : κ → Bool) (key : κ) :
    (m.filterKeys test).find? key = if test key then m.find? key else none := by
  unfold find? filterKeys
  dsimp only
  generalize m.pairs = pairs
  induction pairs with
  | nil => simp
  | cons p pairs ih =>
    by_cases hk : p.1 = key
    · subst hk
      by_cases ht : test p.1
      · simp [ht]
      · simpa [ht] using ih
    · by_cases ht : test p.1
      · rw [List.filter_cons_of_pos (by simpa using ht), List.find?_cons_of_neg (by simpa using hk),
          List.find?_cons_of_neg (by simpa using hk), ih]
      · rw [List.filter_cons_of_neg (by simpa using ht),
          List.find?_cons_of_neg (by simpa using hk), ih]

theorem find?_insert (m : Keyed κ α) (key k : κ) (value : α) :
    (m.insert key value).find? k = if k = key then some value else m.find? k := by
  have h := find?_filterKeys m (fun x => decide (x ≠ key)) k
  unfold find? filterKeys at h
  unfold find? insert
  rw [List.find?_append, Option.map_or, h]
  by_cases hk : k = key
  · simp [hk]
  · simp [hk, Ne.symm hk]

@[simp] theorem find?_insert_self (m : Keyed κ α) (key : κ) (value : α) :
    (m.insert key value).find? key = some value := by
  simp [find?_insert]

theorem find?_insertNew (m : Keyed κ α) (key k : κ) (value : α) :
    (m.insertNew key value).find? k =
      if k = key then some ((m.find? k).getD value) else m.find? k := by
  unfold insertNew
  by_cases h : (m.find? key).isSome
  · rw [if_pos h]
    obtain ⟨v, hv⟩ := Option.isSome_iff_exists.1 h
    by_cases hk : k = key
    · simp [hk, hv]
    · simp [hk]
  · rw [if_neg h, find?_insert]
    have hv : m.find? key = none := by simpa using h
    by_cases hk : k = key
    · simp [hk, hv]
    · simp [hk]

/-- A recorded value is never replaced by a later one. -/
theorem find?_insertNew_of_some {m : Keyed κ α} {k : κ} {v : α} (h : m.find? k = some v)
    (key : κ) (value : α) : (m.insertNew key value).find? k = some v := by
  rw [find?_insertNew]
  split <;> simp [h]

theorem find?_eq_some_iff {m : Keyed κ α} {key : κ} {value : α} :
    m.find? key = some value ↔ (key, value) ∈ m.pairs := by
  unfold find?
  obtain ⟨pairs, nodup⟩ := m
  dsimp only
  induction pairs with
  | nil => simp
  | cons p pairs ih =>
    rw [List.map_cons, List.nodup_cons] at nodup
    by_cases hk : p.1 = key
    · have hrest : (key, value) ∉ pairs := by
        intro hmem
        exact nodup.1 (hk ▸ List.mem_map_of_mem hmem)
      rw [List.find?_cons_of_pos (by simpa using hk), List.mem_cons, or_iff_left hrest]
      simp [Prod.ext_iff, hk, eq_comm]
    · rw [List.find?_cons_of_neg (by simpa using hk), ih nodup.2, List.mem_cons]
      simp [Prod.ext_iff, Ne.symm hk]

theorem mem_keys_iff {m : Keyed κ α} {key : κ} :
    key ∈ m.keys ↔ ∃ value, m.find? key = some value := by
  simp [keys, find?_eq_some_iff]

/-- The last pair with a key gives its value. -/
theorem find?_ofList (pairs : List (κ × α)) (key : κ) :
    (ofList pairs).find? key = (pairs.reverse.find? fun p => p.1 = key).map Prod.snd := by
  suffices h : ∀ m : Keyed κ α, (pairs.foldl (fun m p => m.insert p.1 p.2) m).find? key =
      ((pairs.reverse.find? fun p => p.1 = key).map Prod.snd).or (m.find? key) by
    rw [ofList, h, find?_empty, Option.or_none]
  induction pairs with
  | nil => simp
  | cons p pairs ih =>
    intro m
    rw [List.foldl_cons, ih, find?_insert, List.reverse_cons, List.find?_append]
    cases hlater : pairs.reverse.find? fun p => p.1 = key with
    | some later => simp
    | none =>
      by_cases hk : p.1 = key
      · simp [hk]
      · simp [hk, Ne.symm hk]

theorem mem_of_find?_ofList {pairs : List (κ × α)} {key : κ} {value : α}
    (h : (ofList pairs).find? key = some value) : (key, value) ∈ pairs := by
  rw [find?_ofList, Option.map_eq_some_iff] at h
  obtain ⟨p, hp, rfl⟩ := h
  have hmem : p ∈ pairs := List.mem_reverse.1 (List.mem_of_find?_eq_some hp)
  have hkey : p.1 = key := by simpa using List.find?_some hp
  rwa [← hkey]

theorem exists_find?_ofList {pairs : List (κ × α)} {key : κ} {value : α}
    (h : (key, value) ∈ pairs) : ∃ last, (ofList pairs).find? key = some last := by
  have hfound : (pairs.reverse.find? fun p => p.1 = key).isSome := by
    rw [List.find?_isSome]
    exact ⟨(key, value), List.mem_reverse.2 h, by simp⟩
  obtain ⟨p, hp⟩ := Option.isSome_iff_exists.1 hfound
  exact ⟨p.2, by rw [find?_ofList, hp, Option.map_some]⟩

end Keyed

end ClasspathLookup
