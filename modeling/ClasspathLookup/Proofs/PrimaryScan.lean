import ClasspathLookup.Proofs.Eligible
import ClasspathLookup.Proofs.Outcome

/-!
# The primary scan under both policies

The first policy stops at the first answer that is definitive and above every suggestion before it;
the exhaustive one takes the earliest of the best. They differ only where the first policy stops at
an answer that a later one outranks.
-/

namespace ClasspathLookup.Environment

variable (environment : Environment) (name : TypeName) (filter : ModuleFilter) (view : View)

theorem value_scan_withPolicy (policy : ScanPolicy) :
    ((environment.withPolicy policy).scan name filter).value view =
      policy.outcome none (environment.answers name filter view) :=
  (environment.withPolicy policy).value_scan name filter view

/-- The first decisive answer is found. Without one the earliest of the best is suggested. -/
theorem scan_firstDefinitive_spec :
    let answers := environment.answers name filter view
    let outcome := ((environment.withPolicy .firstDefinitive).scan name filter).value view
    (∀ a, outcome = .found a ↔ FirstDecisive answers a) ∧
    (Undecided answers → answers ≠ [] →
      ∃ s, outcome = .suggested s ∧ EarliestBest answers s ∧ s.isAdvisory = true) ∧
    (outcome = .missing ↔ answers = []) := by
  intro answers outcome
  have ho : outcome = ScanPolicy.firstDefinitive.outcome none answers :=
    environment.value_scan_withPolicy name filter view .firstDefinitive
  rw [ho]
  refine ⟨?_, ?_, ScanPolicy.outcome_firstDefinitive_eq_missing_iff⟩
  · intro a
    exact ScanPolicy.outcome_firstDefinitive_eq_found_iff
  · intro hu hne
    obtain ⟨s, hs, hadvisory, h⟩ := ScanPolicy.outcome_firstDefinitive_of_undecided hu hne
    exact ⟨s, h, hs, hadvisory⟩

/-- The earliest of the best answers is what counts, and the first policy agrees unless it finds an
answer that another outranks. -/
theorem scan_exhaustive_spec :
    let answers := environment.answers name filter view
    let full := ((environment.withPolicy .exhaustive).scan name filter).value view
    let first := ((environment.withPolicy .firstDefinitive).scan name filter).value view
    (∀ a, full = .found a ↔ EarliestBest answers a ∧ a.isAdvisory = false) ∧
    (∀ a, full = .suggested a ↔ EarliestBest answers a ∧ a.isAdvisory = true) ∧
    (full = .missing ↔ answers = []) ∧
    ((∀ a, first ≠ .found a) → full = first) ∧
    ∀ a, first = .found a → ∃ b, full.answer? = some b ∧ a.height ≤ b.height ∧
      (b.rank = a.rank → b = a) := by
  intro answers full first
  have hfull : full = ScanPolicy.exhaustive.outcome none answers :=
    environment.value_scan_withPolicy name filter view .exhaustive
  have hfirst : first = ScanPolicy.firstDefinitive.outcome none answers :=
    environment.value_scan_withPolicy name filter view .firstDefinitive
  rw [hfull, hfirst]
  obtain ⟨last, hlast, ho⟩ := ScanPolicy.outcome_exhaustive answers
  refine ⟨?_, ?_, ?_, ScanPolicy.outcome_exhaustive_eq_firstDefinitive, ?_⟩
  · intro a
    rw [ho, Outcome.ofSuggestion_eq_found_iff, hlast.eq_some_iff]
  · intro a
    rw [ho, Outcome.ofSuggestion_eq_suggested_iff, hlast.eq_some_iff]
  · rw [ho, Outcome.ofSuggestion_eq_missing_iff, hlast.eq_none_iff]
  · intro a ha
    have hdecisive := ScanPolicy.outcome_firstDefinitive_eq_found_iff.1 ha
    obtain ⟨b, rfl⟩ :=
      Option.ne_none_iff_exists'.1 (mt hlast.eq_none_iff.1 (List.ne_nil_of_mem hdecisive.mem))
    have hb : EarliestBest answers b := hlast
    refine ⟨b, by rw [ho, Outcome.answer?_ofSuggestion], hb.height_le a hdecisive.mem, ?_⟩
    intro hrank
    have hheight : b.height = a.height := congrArg Rank.height hrank
    have ha : EarliestBest answers a := by
      apply ScanPolicy.earliestBest_of_firstDecisive hdecisive
      intro c hc
      have hle := hb.height_le c hc
      omega
    exact hb.unique ha

end ClasspathLookup.Environment
