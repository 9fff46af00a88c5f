import ClasspathLookup.Proofs.BareArchives
import ClasspathLookup.Proofs.OfferedLocations
import ClasspathLookup.Proofs.SameKey

/-!
# Locations that can be spared

A location can be left out of a search without any effect when one before it gives the same answers
or when it gives none itself. Of locations with one key only the first is then needed.
-/

namespace ClasspathLookup

namespace ScanPolicy

variable {policy : ScanPolicy} {seen before : List Answer} {suggestion next : Option Answer}
  {a b : Answer}

/-- What a policy holds between two answers. -/
structure Weighed (policy : ScanPolicy) (seen : List Answer) (suggestion : Option Answer) :
    Prop where
  suggests : Suggests seen suggestion
  advisory : policy = .firstDefinitive → ∀ s, suggestion = some s → s.isAdvisory = true

theorem weighed_nil (policy : ScanPolicy) : Weighed policy [] none :=
  ⟨rfl, by simp⟩

theorem Weighed.weigh (h : Weighed policy seen suggestion)
    (hw : policy.weigh suggestion a = .pending next) : Weighed policy (seen ++ [a]) next := by
  refine ⟨suggests_of_weigh h.suggests h.advisory hw, ?_⟩
  rintro rfl s rfl
  unfold ScanPolicy.weigh at hw
  dsimp only at hw
  split at hw
  · exact h.advisory rfl s (Verdict.pending.inj hw)
  · split at hw
    · rename_i hadvisory
      rwa [← Option.some.inj (Verdict.pending.inj hw)]
    · cases hw

/-- An answer that does not outrank an earlier one is passed over. -/
theorem Weighed.weigh_of_le (h : Weighed policy seen suggestion) (hb : b ∈ seen)
    (hle : a.height ≤ b.height) : policy.weigh suggestion a = .pending suggestion := by
  cases suggestion with
  | none =>
    rw [show seen = [] from h.suggests] at hb
    exact absurd hb List.not_mem_nil
  | some s =>
    have hs : EarliestBest seen s := h.suggests
    have hbest : b.height ≤ s.height := hs.height_le b hb
    have hnot : ¬ s.height < a.height := by omega
    cases policy with
    | firstDefinitive =>
      have hworse : a.isBetterThan (some s) = false := by
        rw [← Bool.not_eq_true, Answer.isBetterThan_some_iff (h.advisory rfl s rfl)]
        exact hnot
      simp [ScanPolicy.weigh, hworse]
    | exhaustive => simp [ScanPolicy.weigh, hnot]

theorem Weighed.outcome_append_cons (h : Weighed policy seen suggestion) (hb : b ∈ seen ++ before)
    (hle : a.height ≤ b.height) (after : List Answer) :
    policy.outcome suggestion (before ++ a :: after) =
      policy.outcome suggestion (before ++ after) := by
  induction before generalizing seen suggestion with
  | nil =>
    rw [List.append_nil] at hb
    rw [List.nil_append, List.nil_append, outcome, h.weigh_of_le hb hle]
  | cons c before ih =>
    rw [List.cons_append, List.cons_append, outcome, outcome]
    cases hw : policy.weigh suggestion c with
    | decided c => rfl
    | pending next =>
      rw [List.append_cons] at hb
      exact ih (h.weigh hw) hb

end ScanPolicy

theorem Answer.SameUpTo.height {same : Found → Found → Prop} {a b : Answer}
    (h : a.SameUpTo same b) : a.height = b.height := by
  simp [Answer.height, Answer.rank, Answer.accessLevel, Answer.isAdvisory, h.restriction]

namespace Location

/-- An image without modules. -/
def IsSilent (view : View) (location : Location) : Prop :=
  location.kind = .moduleImage ∧ location.imageModules.value view = []

instance (view : View) (location : Location) : Decidable (location.IsSilent view) :=
  inferInstanceAs (Decidable (_ ∧ _))

/-- A location before this one gives the same answers, or this one gives none. -/
def IsSpare (view : View) (before : List Location) (location : Location) : Prop :=
  (∃ earlier ∈ before, earlier.Interchangeable view location) ∨ location.IsSilent view

variable {view : View} {location other : Location}

namespace Interchangeable

theorem admitted (h : location.Interchangeable view other) (filter : ModuleFilter) :
    (location.admitted filter).value view = (other.admitted filter).value view := by
  rw [value_admitted, value_admitted]
  simp only [h.servesModule]

theorem isEligible (h : location.Interchangeable view other) (filter : ModuleFilter) :
    location.isEligible filter view = other.isEligible filter view := by
  unfold Location.isEligible
  simp only [h.servesModule]

theorem probe (h : location.Interchangeable view other) (environment : Environment)
    (name : TypeName) (filter : ModuleFilter) :
    Option.Rel (Answer.SameUpTo Found.SameAs) ((environment.probe name filter location).value view)
      ((environment.probe name filter other).value view) := by
  rcases environment.probe_cases name location with ⟨folder, copy, rfl, hcopy⟩ | hopen
  · obtain ⟨folder', rfl⟩ := exists_source_of_kind h.kind.symm
    rw [environment.value_probe_of_open name filter view hcopy,
      environment.value_probe_of_open name filter view hcopy, h.isEligible]
    exact Answer.rel_sameAs_refl _
  · rw [environment.value_probe_of_not_open name filter view hopen,
      environment.value_probe_of_not_open name filter view (h.kind ▸ hopen), h.admitted]
    exact List.rel_findSome? fun m _ => h.type? name m _

/-- An answer of the one is matched by an answer of the other that ranks the same. -/
theorem exists_probe (h : location.Interchangeable view other) {environment : Environment}
    {name : TypeName} {filter : ModuleFilter} {b : Answer}
    (hb : (environment.probe name filter other).value view = some b) :
    ∃ a, (environment.probe name filter location).value view = some a ∧ a.height = b.height := by
  have hrel := h.probe environment name filter
  rw [hb] at hrel
  revert hrel
  cases (environment.probe name filter location).value view with
  | none =>
    intro hrel
    cases hrel
  | some a =>
    rintro (⟨hsame⟩)
    exact ⟨a, rfl, hsame.height⟩

end Interchangeable

namespace IsSilent

theorem exists_image (h : location.IsSilent view) :
    ∃ image, location = .image image ∧ image.modules.value view = [] := by
  obtain ⟨hkind, hmodules⟩ := h
  cases location with
  | image image => exact ⟨image, rfl, hmodules⟩
  | source folder => cases hkind
  | classes folder => cases hkind
  | archive archive => cases hkind

theorem servesModule (h : location.IsSilent view) (module : String) :
    (location.servesModule module).value view = false := by
  obtain ⟨image, rfl, hmodules⟩ := h.exists_image
  simp [Location.servesModule, hmodules]

theorem type? (h : location.IsSilent view) (paths : TypePaths) (m : Option ModuleDescriptor)
    (extensions : List String) : (location.type? paths m extensions).value view = none := by
  obtain ⟨image, rfl, hmodules⟩ := h.exists_image
  cases m <;> simp [Location.type?, ModuleImage.type?, hmodules]

theorem secondary? (h : location.IsSilent view) (type package : String)
    (m : Option ModuleDescriptor) (extensions : List String) :
    (location.secondary? type package m extensions).value view = none := by
  obtain ⟨image, rfl, hmodules⟩ := h.exists_image
  simp [Location.secondary?, ModuleImage.modulesFor, hmodules]

theorem isPackage (h : location.IsSilent view) (package : String) (m : Option ModuleDescriptor) :
    (location.isPackage package m).value view = false := by
  obtain ⟨image, rfl, hmodules⟩ := h.exists_image
  simp [Location.isPackage, ModuleImage.modulesFor, hmodules]

theorem probe (h : location.IsSilent view) (environment : Environment) (name : TypeName)
    (filter : ModuleFilter) : (environment.probe name filter location).value view = none := by
  rw [environment.value_probe_of_not_open name filter view (by simp [h.1])]
  simp [h.type?]

end IsSilent

/-- What can be said of a spare location can be said of one before it. -/
theorem IsSpare.exists_before {before : List Location} (h : location.IsSpare view before)
    (P : Location → Prop)
    (hsame : ∀ earlier, earlier.Interchangeable view location → P location → P earlier)
    (hsilent : location.IsSilent view → ¬ P location) (hlocation : P location) :
    ∃ earlier ∈ before, P earlier := by
  rcases h with ⟨earlier, hmem, hinterchangeable⟩ | hnothing
  · exact ⟨earlier, hmem, hsame earlier hinterchangeable hlocation⟩
  · exact absurd hlocation (hsilent hnothing)

end Location

namespace Environment

theorem asksSourceFolder_eq_any (environment : Environment) (filter : ModuleFilter) (view : View) :
    environment.asksSourceFolder filter = environment.locations.locations.any fun l =>
      decide (l.kind = .sourceFolder) && l.isEligible filter view := by
  unfold asksSourceFolder
  congr
  funext location
  cases location <;> cases filter <;> rfl

section Spare

variable {environment : Environment} {view : View} {before : List Location} {location : Location}
  (h : location.IsSpare view before) (after : List Location)

include h

theorem value_scan_of_isSpare (name : TypeName) (filter : ModuleFilter) :
    ((environment.withLocations (before ++ location :: after)).scan name filter).value view =
      ((environment.withLocations (before ++ after)).scan name filter).value view := by
  unfold scan
  rw [ScanPolicy.value_scan, ScanPolicy.value_scan]
  change environment.options.scanPolicy.outcome none
      ((before ++ location :: after).filterMap fun l =>
        (environment.probe name filter l).value view) =
    environment.options.scanPolicy.outcome none
      ((before ++ after).filterMap fun l => (environment.probe name filter l).value view)
  rw [List.filterMap_append, List.filterMap_append, List.filterMap_cons]
  cases hprobe : (environment.probe name filter location).value view with
  | none => rfl
  | some a =>
    have hearlier : ∃ earlier ∈ before, ∃ b,
        (environment.probe name filter earlier).value view = some b ∧ a.height ≤ b.height := by
      refine h.exists_before _ ?_ ?_ ⟨a, hprobe, Nat.le_refl _⟩
      · rintro earlier hsame ⟨b, hb, hle⟩
        obtain ⟨c, hc, hheight⟩ := hsame.exists_probe hb
        exact ⟨c, hc, hheight ▸ hle⟩
      · rintro hsilent ⟨b, hb, -⟩
        rw [hsilent.probe] at hb
        cases hb
    obtain ⟨earlier, hmem, b, hb, hle⟩ := hearlier
    exact (ScanPolicy.weighed_nil _).outcome_append_cons
      (List.mem_filterMap.2 ⟨earlier, hmem, hb⟩) hle _

theorem asksSourceFolder_of_isSpare (filter : ModuleFilter) :
    (environment.withLocations (before ++ location :: after)).asksSourceFolder filter =
      (environment.withLocations (before ++ after)).asksSourceFolder filter := by
  rw [asksSourceFolder_eq_any _ filter view, asksSourceFolder_eq_any _ filter view]
  refine List.any_append_cons (h.exists_before
    (fun l => (decide (l.kind = .sourceFolder) && l.isEligible filter view) = true) ?_ ?_)
  · intro earlier hsame hsource
    rwa [hsame.kind, hsame.isEligible]
  · intro hsilent
    simp [hsilent.1]

theorem value_secondary?_of_isSpare (name : TypeName) (filter : ModuleFilter) :
    ((environment.withLocations (before ++ location :: after)).secondary? name filter).value
        view =
      ((environment.withLocations (before ++ after)).secondary? name filter).value view := by
  cases hsingle : filter.single? with
  | some m =>
    rw [value_secondary?_of_single hsingle, value_secondary?_of_single hsingle]
    refine congrArg (Option.bind · _) (List.find?_append_cons
      (h.exists_before (fun l => (l.servesModule m.name).value view = true) ?_ ?_))
    · intro earlier hsame hserves
      rwa [hsame.servesModule]
    · intro hsilent
      rw [hsilent.servesModule]
      exact Bool.false_ne_true
  | none =>
    rw [value_secondary?_of_single_eq_none hsingle, value_secondary?_of_single_eq_none hsingle]
    refine List.findSome?_append_cons (h.exists_before
      (fun l => (((l.admitted filter).value view).findSome? fun m =>
        (l.secondary? name.simple name.packagePath m
          environment.options.sourceExtensions).value view).isSome = true) ?_ ?_)
    · intro earlier hsame hfound
      simpa only [hsame.admitted, hsame.secondary?] using hfound
    · intro hsilent
      simp [hsilent.secondary?]

theorem value_isPackage_of_isSpare (package : String) (filter : ModuleFilter) :
    ((environment.withLocations (before ++ location :: after)).isPackage package filter).value
        view =
      ((environment.withLocations (before ++ after)).isPackage package filter).value view := by
  unfold isPackage
  rw [Lookup.value_any, Lookup.value_any]
  simp only [Lookup.value_bind, Lookup.value_any]
  refine List.any_append_cons (h.exists_before
    (fun l => (((l.admitted filter).value view).any fun m =>
      (l.isPackage package m).value view) = true) ?_ ?_)
  · intro earlier hsame hpackage
    simpa only [hsame.admitted, hsame.isPackage] using hpackage
  · intro hsilent
    simp [hsilent.isPackage]

theorem value_findType_of_isSpare (name : TypeName) (filter : ModuleFilter) :
    ((environment.withLocations (before ++ location :: after)).findType name filter).value view =
      ((environment.withLocations (before ++ after)).findType name filter).value view := by
  have hfallback : (environment.withLocations (before ++ location :: after)).fallback name filter
      view = (environment.withLocations (before ++ after)).fallback name filter view := by
    unfold fallback
    rw [asksSourceFolder_of_isSpare h, value_secondary?_of_isSpare h]
    rfl
  rw [value_findType, value_findType, value_scan_of_isSpare h, hfallback]

end Spare

end Environment

/-- Every query has the same result over the two lists of locations. -/
def Location.SearchedAlike (view : View) (locations others : List Location) : Prop :=
  ∀ environment : Environment,
    (∀ name filter, ((environment.withLocations locations).findType name filter).value view =
      ((environment.withLocations others).findType name filter).value view) ∧
    ∀ package filter, ((environment.withLocations locations).isPackage package filter).value view =
      ((environment.withLocations others).isPackage package filter).value view

namespace Location

variable {view : View} {location other : Location}

theorem SearchedAlike.trans {locations others last : List Location}
    (h : SearchedAlike view locations others) (h' : SearchedAlike view others last) :
    SearchedAlike view locations last :=
  fun environment =>
    ⟨fun name filter => ((h environment).1 name filter).trans ((h' environment).1 name filter),
      fun package filter =>
        ((h environment).2 package filter).trans ((h' environment).2 package filter)⟩

/-- A spare location can be left out. -/
theorem IsSpare.searchedAlike {before : List Location} (h : location.IsSpare view before)
    (after : List Location) : SearchedAlike view (before ++ location :: after) (before ++ after) :=
  fun _ => ⟨Environment.value_findType_of_isSpare h after,
    Environment.value_isPackage_of_isSpare h after⟩

/-- The first ones of each key are enough when no later one has an answer that the earlier ones of
its key have not. The induction is on the last location; what stands after it stays. -/
theorem searchedAlike_firsts {offered : List Location}
    (h : offered.Pairwise fun earlier later => earlier.key = later.key →
      earlier.Interchangeable view later ∨ later.IsSilent view) (after : List Location) :
    SearchedAlike view (offered ++ after) (firsts [] offered ++ after) := by
  induction offered using List.reverseRecOn generalizing after with
  | nil => exact fun _ => ⟨fun _ _ => rfl, fun _ _ => rfl⟩
  | append_singleton offered location ih =>
    obtain ⟨hoffered, -, hlast⟩ := List.pairwise_append.1 h
    have hrest := ih hoffered (location :: after)
    rw [firsts_concat, List.append_assoc, List.singleton_append]
    split
    · rwa [List.append_assoc, List.singleton_append]
    · rename_i hold
      rw [List.append_nil]
      refine hrest.trans (IsSpare.searchedAlike ?_ after)
      have hkept : (firsts [] offered).any (·.key = location.key) = true := by
        rw [any_firsts]
        simpa [isNewAfter] using hold
      obtain ⟨earlier, hmem, hkey⟩ := List.any_eq_true.1 hkept
      have hmemOffered := (firsts_sublist [] offered).subset hmem
      rcases hlast earlier hmemOffered location List.mem_cons_self (of_decide_eq_true hkey) with
        hsame | hsilent
      · exact Or.inl ⟨earlier, hmem, hsame⟩
      · exact Or.inr hsilent

end Location

end ClasspathLookup
