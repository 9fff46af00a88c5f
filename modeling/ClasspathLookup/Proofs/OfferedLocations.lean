import ClasspathLookup.Proofs.SetGrowth

/-!
# What a location set keeps

A set is offered locations one by one: those that are pushed, and those that the roots of a merge
stand for at that time. Since handles and outcomes are only ever added to the cache, a root stands
for the same location again as long as the disk stays as it is. The set keeps what is offered first
under each key, in the order of the offers.
-/

namespace ClasspathLookup

namespace Location

/-- No earlier location has the key. -/
def isNewAfter (location : Location) (earlier : List Location) : Bool :=
  !earlier.any (·.key = location.key)

/-- The locations that have the key of no earlier one. -/
def firsts (earlier : List Location) : List Location → List Location
  | [] => []
  | location :: rest =>
    if location.isNewAfter earlier then location :: firsts (earlier ++ [location]) rest
    else firsts (earlier ++ [location]) rest

variable {location : Location} {earlier offered : List Location}

theorem isNewAfter_iff : location.isNewAfter earlier = true ↔
    ∀ other ∈ earlier, other.key ≠ location.key := by
  simp [isNewAfter]

theorem firsts_append (earlier offered more : List Location) :
    firsts earlier (offered ++ more) =
      firsts earlier offered ++ firsts (earlier ++ offered) more := by
  induction offered generalizing earlier with
  | nil => simp [firsts]
  | cons location offered ih =>
    simp only [List.cons_append, firsts]
    split <;> simp [ih]

theorem firsts_concat (offered : List Location) (location : Location) :
    firsts [] (offered ++ [location]) =
      firsts [] offered ++ if location.isNewAfter offered then [location] else [] := by
  rw [firsts_append, List.nil_append]
  rfl

theorem firsts_sublist (earlier offered : List Location) :
    (firsts earlier offered).Sublist offered := by
  induction offered generalizing earlier with
  | nil => exact List.Sublist.refl []
  | cons location offered ih =>
    unfold firsts
    split
    · exact (ih _).cons_cons location
    · exact (ih _).cons location

/-- A location whose key was there before adds no key. -/
theorem any_append_firsts (earlier offered : List Location) (key : LocationKey) :
    (earlier ++ firsts earlier offered).any (·.key = key) =
      (earlier ++ offered).any (·.key = key) := by
  induction offered generalizing earlier with
  | nil => simp [firsts]
  | cons location offered ih =>
    have hrest := ih (earlier ++ [location])
    rw [List.append_assoc, List.append_assoc, List.singleton_append, List.singleton_append] at hrest
    unfold firsts
    split
    · exact hrest
    · rename_i hold
      have hbefore : location.key = key → earlier.any (·.key = key) = true := by
        rintro rfl
        simpa [isNewAfter] using hold
      rw [← hrest, List.any_append, List.any_append, List.any_cons]
      by_cases hkey : location.key = key
      · rw [hbefore hkey, Bool.true_or, Bool.true_or]
      · simp [hkey]

theorem any_firsts (offered : List Location) (key : LocationKey) :
    (firsts [] offered).any (·.key = key) = offered.any (·.key = key) := by
  simpa using any_append_firsts [] offered key

theorem nodup_keys_firsts (earlier offered : List Location) :
    ((firsts earlier offered).map key).Nodup ∧
      ∀ location ∈ firsts earlier offered, location.isNewAfter earlier = true := by
  induction offered generalizing earlier with
  | nil => simp [firsts]
  | cons first offered ih =>
    obtain ⟨hnodup, hnew⟩ := ih (earlier ++ [first])
    have hlater : ∀ location ∈ firsts (earlier ++ [first]) offered,
        location.isNewAfter earlier = true ∧ first.key ≠ location.key := by
      intro location hmem
      have h := isNewAfter_iff.1 (hnew location hmem)
      exact ⟨isNewAfter_iff.2 fun other hother => h other (List.mem_append_left _ hother),
        h first (by simp)⟩
    unfold firsts
    split
    · rename_i hfirst
      refine ⟨?_, ?_⟩
      · rw [List.map_cons, List.nodup_cons]
        refine ⟨?_, hnodup⟩
        intro hmem
        obtain ⟨location, hlocation, hkey⟩ := List.mem_map.1 hmem
        exact (hlater location hlocation).2 hkey.symm
      · intro location hmem
        rcases List.mem_cons.1 hmem with rfl | hmem
        · exact hfirst
        · exact (hlater location hmem).1
    · exact ⟨hnodup, fun location hmem => (hlater location hmem).1⟩

end Location

namespace LocationSet

/-- The locations that roots stand for when they are merged. -/
def located (set : LocationSet) (disk : Disk) : List ClasspathRoot → List Location
  | [] => []
  | root :: roots =>
    let (location, located) := set.locate? disk root
    match location with
    | none => located.located disk roots
    | some location => location :: (located.push location).2.located disk roots

section Located

variable {set : LocationSet} {disk : Disk} {root : ClasspathRoot}

theorem located_cons_of_none (h : (set.locate? disk root).1 = none) (roots : List ClasspathRoot) :
    set.located disk (root :: roots) = (set.locate? disk root).2.located disk roots := by
  simp only [located, h]

theorem located_cons_of_some {location : Location} (h : (set.locate? disk root).1 = some location)
    (roots : List ClasspathRoot) :
    set.located disk (root :: roots) =
      location :: ((set.locate? disk root).2.push location).2.located disk roots := by
  simp only [located, h]

end Located

/-- What can be done to a set since it was started: the locations that it was offered on the way,
and the set at the end. The disk may be another one each time, among those that are allowed. -/
inductive Run (disks : Disk → Prop) (start : LocationSet) : List Location → LocationSet → Prop
  | start : Run disks start [] start
  | push {offered : List Location} {set : LocationSet} (location : Location)
      (h : Run disks start offered set) :
      Run disks start (offered ++ [location]) (set.push location).2
  | merge {offered : List Location} {set : LocationSet} {disk : Disk} (roots : List ClasspathRoot)
      (hdisk : disks disk) (h : Run disks start offered set) :
      Run disks start (offered ++ set.located disk roots) (set.merge disk roots).2
  | handle {offered : List Location} {set : LocationSet} {disk : Disk} (path : Path)
      (hdisk : disks disk) (h : Run disks start offered set) :
      Run disks start offered (set.handle disk path).2
  | query {offered : List Location} {set : LocationSet} {disk : Disk} {α : Type}
      (lookup : Lookup α) (hdisk : disks disk) (h : Run disks start offered set) :
      Run disks start offered (set.run disk lookup).2

section Offers

variable {set : LocationSet} {disk : Disk} {offered : List Location}

theorem contains_of_locations (h : set.locations = Location.firsts [] offered)
    (location : Location) :
    set.contains location.key = !location.isNewAfter offered := by
  rw [contains, h, Location.any_firsts, Location.isNewAfter, Bool.not_not]

/-- A push keeps the location exactly if its key is new. -/
theorem push_of_locations (h : set.locations = Location.firsts [] offered) (location : Location) :
    (set.push location).1 = location.isNewAfter offered ∧
      (set.push location).2.locations = Location.firsts [] (offered ++ [location]) := by
  rw [push, contains_of_locations h, Location.firsts_concat]
  cases location.isNewAfter offered <;> simp [h]

theorem locations_readable? (set : LocationSet) (disk : Disk) (path : Path) :
    (set.readable? disk path).2.locations = set.locations := by
  unfold readable?
  split <;> rfl

theorem locations_locate? (set : LocationSet) (disk : Disk) (root : ClasspathRoot) :
    (set.locate? disk root).2.locations = set.locations := by
  rw [locate?_eq]
  cases root.plan disk set.archiveExtensions with
  | settled location => rfl
  | archived make => exact set.locations_readable? disk root.path

theorem locations_run {α : Type} (set : LocationSet) (disk : Disk) (lookup : Lookup α) :
    (set.run disk lookup).2.locations = set.locations := by
  rw [run_eq]
  generalize lookup.needs (set.view disk) = needs
  induction needs generalizing set with
  | nil => rfl
  | cons need needs ih =>
    rw [List.foldl_cons, ih]
    cases need <;> rfl

/-- A merge keeps of its locations those whose key is new, and counts them. -/
theorem merge_of_locations (h : set.locations = Location.firsts [] offered)
    (roots : List ClasspathRoot) :
    (set.merge disk roots).1 = (Location.firsts offered (set.located disk roots)).length ∧
      (set.merge disk roots).2.locations =
        Location.firsts [] (offered ++ set.located disk roots) := by
  induction roots generalizing set offered with
  | nil => simp [merge, located, Location.firsts, h]
  | cons root roots ih =>
    have hlocated := (set.locations_locate? disk root).trans h
    cases hlocation : (set.locate? disk root).1 with
    | none =>
      rw [merge_cons_of_none hlocation, located_cons_of_none hlocation]
      exact ih hlocated
    | some location =>
      rw [merge_cons_of_some hlocation, located_cons_of_some hlocation]
      obtain ⟨hnew, hpushed⟩ := push_of_locations hlocated location
      obtain ⟨hcount, hmerged⟩ := ih hpushed
      rw [List.append_assoc] at hmerged
      refine ⟨?_, hmerged⟩
      rw [Location.firsts]
      dsimp only
      rw [hnew, hcount]
      cases location.isNewAfter offered <;> simp [Nat.add_comm]

end Offers

/-- The root was merged some time, and the disk has been the same since then. -/
def MergedOn (set : LocationSet) (disk : Disk) (root : ClasspathRoot) : Prop :=
  ∃ before roots more, root ∈ roots ∧ Run (· = disk) (merge before disk roots).2 more set

namespace Run

variable {disks : Disk → Prop} {start set : LocationSet} {offered : List Location}

theorem locations (h : Run disks start offered set) (hstart : start.locations = []) :
    set.locations = Location.firsts [] offered := by
  induction h with
  | start => exact hstart
  | push location _ ih => exact (push_of_locations ih location).2
  | merge roots _ _ ih => exact (merge_of_locations ih roots).2
  | handle path _ _ ih => exact ih
  | query lookup _ _ ih => exact (locations_run _ _ lookup).trans ih

theorem grows {disk : Disk} (h : Run (· = disk) start offered set) : Grows disk start set := by
  induction h with
  | start => exact .refl disk start
  | push location _ ih => exact ih.trans (grows_push disk _ location)
  | merge roots hdisk _ ih => exact ih.trans (hdisk ▸ grows_merge _ _ roots)
  | handle path hdisk _ ih => exact ih.trans (hdisk ▸ grows_handle _ _ path)
  | query lookup hdisk _ ih => exact ih.trans (hdisk ▸ grows_run _ _ lookup)

end Run

theorem MergedOn.knows {set : LocationSet} {disk : Disk} {root : ClasspathRoot}
    (h : set.MergedOn disk root) : set.Knows disk root := by
  obtain ⟨before, roots, more, hroot, hrun⟩ := h
  exact (before.knows_of_merge disk roots root hroot).of_grows hrun.grows

/-- A set that starts without locations, newly created or cleaned up, keeps of all that it is
offered what has a new key, in the order of the offers, on whichever disks. A push tells that the
location is kept and a merge counts those that are. Roots that were merged on the disk as it is are
merged again without any effect, and roots may be merged in two parts. -/
theorem Run.locations_eq_firsts {disks : Disk → Prop} {start set : LocationSet}
    {offered : List Location} (h : Run disks start offered set) (hstart : start.locations = []) :
    set.locations = Location.firsts [] offered ∧
    (set.locations.map Location.key).Nodup ∧
    (∀ location, (set.push location).1 = location.isNewAfter offered) ∧
    (∀ disk roots, (set.merge disk roots).1 =
      (Location.firsts offered (set.located disk roots)).length) ∧
    (∀ disk roots, (∀ root ∈ roots, set.MergedOn disk root) → set.merge disk roots = (0, set)) ∧
    ∀ disk roots others extensions, build disk (roots ++ others) extensions =
      ((build disk roots extensions).merge disk others).2 := by
  have hlocations := h.locations hstart
  refine ⟨hlocations, ?_, fun location => (push_of_locations hlocations location).1,
    fun disk roots => (merge_of_locations hlocations roots).1, ?_,
    fun disk roots others extensions => merge_append _ disk roots others⟩
  · rw [hlocations]
    exact (Location.nodup_keys_firsts [] offered).1
  · intro disk roots hmerged
    exact merge_of_knows fun root hroot => (hmerged root hroot).knows

/-- A source folder and an archive. -/
def sharedDisk : Disk :=
  (Disk.empty.put (.ofText "src") .folder).put (.ofText "lib.jar") (.file (.archive []))

def sharedRoots : List ClasspathRoot :=
  [{ path := .ofText "src", role := .source }, { path := .ofText "lib.jar" },
    { path := .ofText "gone.jar" }, { path := .ofText "./src/", role := .source }]

def sharedSource : Location :=
  .source ⟨.ofText "src", [], [], .all⟩

def sharedSet : LocationSet :=
  ((LocationSet.build sharedDisk sharedRoots ["jar"]).push sharedSource).2

theorem sharedSet_run : Run (· = sharedDisk) { archiveExtensions := ["jar"] }
    (located { archiveExtensions := ["jar"] } sharedDisk sharedRoots ++ [sharedSource])
    sharedSet := by
  have hbuilt : Run (· = sharedDisk) { archiveExtensions := ["jar"] }
      ([] ++ located { archiveExtensions := ["jar"] } sharedDisk sharedRoots)
      (build sharedDisk sharedRoots ["jar"]) := .merge sharedRoots rfl .start
  exact hbuilt.push sharedSource

/-- The folder is offered three times and kept once, and merging the roots again changes nothing. -/
theorem locations_eq_firsts_shared :
    ({ archiveExtensions := ["jar"] } : LocationSet).locations = [] ∧
    sharedSet.locations = [sharedSource, .archive ⟨⟨0, .ofText "lib.jar"⟩, {}, none, .all⟩] ∧
    sharedSet.merge sharedDisk sharedRoots = (0, sharedSet) := by
  obtain ⟨hfirsts, -, -, -, hagain, -⟩ := sharedSet_run.locations_eq_firsts rfl
  refine ⟨rfl, hfirsts.trans (by decide +kernel), ?_⟩
  apply hagain
  intro root hroot
  exact ⟨_, sharedRoots, [sharedSource], hroot, Run.start.push sharedSource⟩

end LocationSet

end ClasspathLookup
