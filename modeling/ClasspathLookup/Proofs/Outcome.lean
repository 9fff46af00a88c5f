import ClasspathLookup.Environment.Scan
import ClasspathLookup.Proofs.Lists

/-!
# What weighing answers comes to

Both policies carry one suggestion through the answers. Whatever was passed over on the way, also a
definitive answer that was not good enough, the suggestion is the earliest answer of greatest rank
among all that were weighed. Under the first policy it is advisory as well, and the first answer
that is definitive and above it ends the search; such an answer then stands above everything before
it.
-/

namespace ClasspathLookup

/-- The earliest answer of greatest rank. -/
def EarliestBest (answers : List Answer) (a : Answer) : Prop :=
  ∃ before after, answers = before ++ a :: after ∧
    (∀ b ∈ before, b.height < a.height) ∧ ∀ b ∈ after, b.height ≤ a.height

/-- Definitive, and above every advisory answer that came before. -/
structure Decisive (before : List Answer) (a : Answer) : Prop where
  definitive : a.isAdvisory = false
  above : ∀ b ∈ before, b.isAdvisory = true → b.height < a.height

def Undecided (answers : List Answer) : Prop :=
  ∀ before a after, answers = before ++ a :: after → ¬ Decisive before a

def FirstDecisive (answers : List Answer) (a : Answer) : Prop :=
  ∃ before after, answers = before ++ a :: after ∧ Decisive before a ∧ Undecided before

/-- The answer of an outcome, taken up or only suggested. -/
def Outcome.answer? : Outcome → Option Answer
  | .found a => some a
  | .suggested a => some a
  | .missing => none

namespace Outcome

variable {suggestion : Option Answer} {a : Answer}

theorem ofSuggestion_eq_found_iff :
    ofSuggestion suggestion = .found a ↔ suggestion = some a ∧ a.isAdvisory = false := by
  cases suggestion with
  | none => simp [ofSuggestion]
  | some s =>
    by_cases h : s.isAdvisory = true
    · simp only [ofSuggestion, h, if_true, reduceCtorEq, Option.some.injEq, false_iff, not_and]
      rintro rfl
      simp [h]
    · simp only [ofSuggestion, h, Bool.false_eq_true, if_false, found.injEq, Option.some.injEq]
      constructor
      · rintro rfl
        exact ⟨rfl, by simpa using h⟩
      · exact And.left

theorem ofSuggestion_eq_suggested_iff :
    ofSuggestion suggestion = .suggested a ↔ suggestion = some a ∧ a.isAdvisory = true := by
  cases suggestion with
  | none => simp [ofSuggestion]
  | some s =>
    by_cases h : s.isAdvisory = true
    · simp only [ofSuggestion, h, if_true, suggested.injEq, Option.some.injEq]
      constructor
      · rintro rfl
        exact ⟨rfl, h⟩
      · exact And.left
    · simp only [ofSuggestion, h, Bool.false_eq_true, if_false, reduceCtorEq, Option.some.injEq,
        false_iff, not_and]
      rintro rfl
      exact h

@[simp] theorem answer?_ofSuggestion : (ofSuggestion suggestion).answer? = suggestion := by
  cases suggestion with
  | none => rfl
  | some s => cases h : s.isAdvisory <;> simp [ofSuggestion, answer?, h]

theorem ofSuggestion_eq_missing_iff : ofSuggestion suggestion = .missing ↔ suggestion = none := by
  cases suggestion with
  | none => simp [ofSuggestion]
  | some s => cases h : s.isAdvisory <;> simp [ofSuggestion, h]

end Outcome

/-- The suggestion after some answers: none before the first one, then the earliest of the best. -/
def Suggests (seen : List Answer) : Option Answer → Prop
  | none => seen = []
  | some s => EarliestBest seen s

theorem Answer.height_lt_of_isAdvisory {a : Answer} (h : a.isAdvisory = true) : a.height < 5 := by
  have hd : a.rank.definitive = false := by simp [Answer.rank, h]
  unfold Answer.height Rank.height
  rw [hd]
  cases a.rank.access <;> decide

theorem Answer.restriction_of_height {a : Answer} (h : a.height = 5) : a.restriction = none := by
  cases hr : a.restriction with
  | none => rfl
  | some r =>
    have hlevel : a.accessLevel.height ≤ 1 := by
      simp only [Answer.accessLevel, hr]
      cases r.severity <;> decide
    have hflag : (!a.isAdvisory).toNat ≤ 1 := Bool.toNat_le _
    simp only [Answer.height, Answer.rank, Rank.height] at h
    omega

/-- Against a suggestion the case of an answer without a restriction is no exception. -/
theorem Answer.isBetterThan_some_iff {a s : Answer} (hs : s.isAdvisory = true) :
    a.isBetterThan (some s) = true ↔ s.height < a.height := by
  simp only [Answer.isBetterThan, Bool.or_eq_true, Option.isNone_iff_eq_none, decide_eq_true_eq]
  constructor
  · rintro (h | h)
    · rw [Answer.height_of_unrestricted h]
      exact Answer.height_lt_of_isAdvisory hs
    · exact h
  · exact Or.inr

namespace EarliestBest

variable {answers : List Answer} {a b : Answer}

theorem mem (h : EarliestBest answers a) : a ∈ answers := by
  obtain ⟨before, after, rfl, -, -⟩ := h
  simp

theorem height_le (h : EarliestBest answers a) : ∀ b ∈ answers, b.height ≤ a.height := by
  obtain ⟨before, after, rfl, hbefore, hafter⟩ := h
  intro b hb
  rcases List.mem_append.1 hb with hb | hb
  · exact Nat.le_of_lt (hbefore b hb)
  · rcases List.mem_cons.1 hb with rfl | hb
    · exact Nat.le_refl _
    · exact hafter b hb

theorem append (h : EarliestBest answers a) {more : List Answer}
    (hmore : ∀ b ∈ more, b.height ≤ a.height) : EarliestBest (answers ++ more) a := by
  obtain ⟨before, after, rfl, hbefore, hafter⟩ := h
  refine ⟨before, after ++ more, by simp, hbefore, ?_⟩
  intro b hb
  rcases List.mem_append.1 hb with hb | hb
  · exact hafter b hb
  · exact hmore b hb

theorem concat_self (h : ∀ b ∈ answers, b.height < a.height) : EarliestBest (answers ++ [a]) a :=
  ⟨answers, [], rfl, h, by simp⟩

theorem unique (ha : EarliestBest answers a) (hb : EarliestBest answers b) : a = b := by
  have hle : b.height ≤ a.height := ha.height_le b hb.mem
  have hge : a.height ≤ b.height := hb.height_le a ha.mem
  obtain ⟨before, after, rfl, hbefore, -⟩ := ha
  obtain ⟨before', after', he, hbefore', -⟩ := hb
  rcases List.same_or_before_of_append_cons_eq he with ⟨-, h⟩ | ⟨between, rfl⟩ | ⟨between, rfl⟩
  · exact h
  · have hlt := hbefore' a (by simp)
    omega
  · have hlt := hbefore b (by simp)
    omega

end EarliestBest

namespace Suggests

variable {answers : List Answer} {suggestion other : Option Answer} {a : Answer}

theorem eq_some_iff (h : Suggests answers suggestion) :
    suggestion = some a ↔ EarliestBest answers a := by
  cases suggestion with
  | none =>
    rw [show answers = [] from h]
    simp only [reduceCtorEq, false_iff]
    intro ha
    exact List.not_mem_nil ha.mem
  | some s =>
    have hs : EarliestBest answers s := h
    rw [Option.some.injEq]
    constructor
    · rintro rfl
      exact hs
    · intro ha
      exact hs.unique ha

theorem eq_none_iff (h : Suggests answers suggestion) : suggestion = none ↔ answers = [] := by
  cases suggestion with
  | none => exact ⟨fun _ => h, fun _ => rfl⟩
  | some s =>
    have hs : EarliestBest answers s := h
    simp [List.ne_nil_of_mem hs.mem]

theorem unique (h : Suggests answers suggestion) (hother : Suggests answers other) :
    suggestion = other := by
  apply Option.ext
  intro a
  rw [h.eq_some_iff, hother.eq_some_iff]

end Suggests

theorem undecided_nil : Undecided [] := by
  intro before a after h
  simp at h

theorem Undecided.concat {answers : List Answer} {a : Answer} (h : Undecided answers)
    (ha : ¬ Decisive answers a) : Undecided (answers ++ [a]) := by
  intro before b after he
  rcases List.same_or_before_of_append_cons_eq he with ⟨rfl, rfl⟩ | ⟨between, rfl⟩ | ⟨between, rfl⟩
  · exact ha
  · simp at he
  · exact h before b between rfl

namespace FirstDecisive

variable {answers : List Answer} {a b : Answer}

theorem mem (h : FirstDecisive answers a) : a ∈ answers := by
  obtain ⟨before, after, rfl, -, -⟩ := h
  simp

theorem definitive (h : FirstDecisive answers a) : a.isAdvisory = false := by
  obtain ⟨before, after, -, hd, -⟩ := h
  exact hd.definitive

theorem not_undecided (h : FirstDecisive answers a) : ¬ Undecided answers := by
  obtain ⟨before, after, rfl, hd, -⟩ := h
  intro hu
  exact hu before a after rfl hd

theorem append (h : FirstDecisive answers a) (more : List Answer) :
    FirstDecisive (answers ++ more) a := by
  obtain ⟨before, after, rfl, hd, hu⟩ := h
  exact ⟨before, after ++ more, by simp, hd, hu⟩

theorem unique (ha : FirstDecisive answers a) (hb : FirstDecisive answers b) : a = b := by
  obtain ⟨before, after, rfl, hd, hu⟩ := ha
  obtain ⟨before', after', he, hd', hu'⟩ := hb
  rcases List.same_or_before_of_append_cons_eq he with ⟨-, h⟩ | ⟨between, rfl⟩ | ⟨between, rfl⟩
  · exact h
  · exact absurd hd (hu' before a between rfl)
  · exact absurd hd' (hu before' b between rfl)

end FirstDecisive

namespace ScanPolicy

variable {seen : List Answer} {suggestion : Option Answer} {a : Answer}

theorem eq_of_weigh_firstDefinitive {next : Option Answer}
    (hw : firstDefinitive.weigh suggestion a = .pending next) :
    next = if a.isBetterThan suggestion then some a else suggestion := by
  unfold weigh at hw
  by_cases hb : a.isBetterThan suggestion = true
  · simp only [hb, Bool.not_true, Bool.false_eq_true, if_false] at hw
    split at hw
    · rw [if_pos hb, Verdict.pending.inj hw]
    · cases hw
  · simp only [hb, Bool.not_false, if_true] at hw
    rw [if_neg hb, Verdict.pending.inj hw]

/-- One step: an answer that does not decide leaves the suggestion that the answers so far call
for. -/
theorem suggests_of_weigh {policy : ScanPolicy} {next : Option Answer}
    (hs : Suggests seen suggestion)
    (hadvisory : policy = .firstDefinitive → ∀ s, suggestion = some s → s.isAdvisory = true)
    (hw : policy.weigh suggestion a = .pending next) : Suggests (seen ++ [a]) next := by
  cases suggestion with
  | none =>
    have hnext : next = some a := by
      cases policy with
      | firstDefinitive =>
        rw [eq_of_weigh_firstDefinitive hw]
        rfl
      | exhaustive => simpa [weigh] using hw.symm
    rw [hnext, show seen = [] from hs]
    exact EarliestBest.concat_self (by simp)
  | some s =>
    have hs : EarliestBest seen s := hs
    have hnext : next = some (if s.height < a.height then a else s) := by
      cases policy with
      | firstDefinitive =>
        have hbetter : a.isBetterThan (some s) = true ↔ s.height < a.height :=
          Answer.isBetterThan_some_iff (hadvisory rfl s rfl)
        rw [eq_of_weigh_firstDefinitive hw]
        simp only [hbetter, apply_ite some]
      | exhaustive => simpa [weigh] using hw.symm
    rw [hnext]
    split
    · rename_i hlt
      apply EarliestBest.concat_self
      intro b hb
      have hle := hs.height_le b hb
      omega
    · rename_i hle
      apply hs.append
      intro b hb
      rw [List.mem_singleton.1 hb]
      omega

/-- What the first policy holds between two answers. -/
structure Searching (seen : List Answer) (suggestion : Option Answer) : Prop where
  suggests : Suggests seen suggestion
  advisory : ∀ s, suggestion = some s → s.isAdvisory = true
  undecided : Undecided seen

theorem searching_nil : Searching [] none :=
  ⟨rfl, by simp, undecided_nil⟩

theorem Searching.decisive_iff (h : Searching seen suggestion) :
    Decisive seen a ↔ a.isAdvisory = false ∧ a.isBetterThan suggestion = true := by
  cases suggestion with
  | none =>
    rw [show seen = [] from h.suggests]
    constructor
    · intro hd
      exact ⟨hd.definitive, rfl⟩
    · rintro ⟨hdefinitive, -⟩
      exact ⟨hdefinitive, by simp⟩
  | some s =>
    have hs : EarliestBest seen s := h.suggests
    have hadvisory := h.advisory s rfl
    rw [Answer.isBetterThan_some_iff hadvisory]
    constructor
    · intro hd
      exact ⟨hd.definitive, hd.above s hs.mem hadvisory⟩
    · rintro ⟨hdefinitive, hlt⟩
      refine ⟨hdefinitive, ?_⟩
      intro b hb _
      have hle := hs.height_le b hb
      omega

/-- One step of the first policy. -/
theorem Searching.weigh (h : Searching seen suggestion) (a : Answer) :
    (Decisive seen a ∧ firstDefinitive.weigh suggestion a = .decided a) ∨
      ∃ next, Searching (seen ++ [a]) next ∧
        firstDefinitive.weigh suggestion a = .pending next := by
  by_cases hd : Decisive seen a
  · obtain ⟨hdefinitive, hbetter⟩ := h.decisive_iff.1 hd
    exact Or.inl ⟨hd, by simp [ScanPolicy.weigh, hdefinitive, hbetter]⟩
  · have hpending : ∃ next, firstDefinitive.weigh suggestion a = .pending next ∧
        ∀ s, next = some s → s.isAdvisory = true := by
      unfold ScanPolicy.weigh
      by_cases hb : a.isBetterThan suggestion = true
      · have ha : a.isAdvisory = true := by
          simpa [h.decisive_iff, hb] using hd
        exact ⟨some a, by simp [hb, ha], by simpa using ha⟩
      · exact ⟨suggestion, by simp [hb], h.advisory⟩
    obtain ⟨next, hw, hadvisory⟩ := hpending
    have hsuggests : Suggests (seen ++ [a]) next :=
      suggests_of_weigh h.suggests (fun _ => h.advisory) hw
    exact Or.inr ⟨next, ⟨hsuggests, hadvisory, h.undecided.concat hd⟩, hw⟩

/-- A run of the first policy ends at the first decisive answer, or undecided with its
suggestion. -/
theorem Searching.outcome (h : Searching seen suggestion) (answers : List Answer) :
    (∃ a, FirstDecisive (seen ++ answers) a ∧
        firstDefinitive.outcome suggestion answers = .found a) ∨
      ∃ last, Searching (seen ++ answers) last ∧
        firstDefinitive.outcome suggestion answers = .ofSuggestion last := by
  induction answers generalizing seen suggestion with
  | nil => exact Or.inr ⟨suggestion, by simpa using h, rfl⟩
  | cons a answers ih =>
    rcases h.weigh a with ⟨hd, hw⟩ | ⟨next, hnext, hw⟩
    · exact Or.inl ⟨a, ⟨seen, answers, rfl, hd, h.undecided⟩, by simp [ScanPolicy.outcome, hw]⟩
    · rw [List.append_cons]
      simp only [ScanPolicy.outcome, hw]
      exact ih hnext

theorem outcome_firstDefinitive_cases (answers : List Answer) :
    (∃ a, FirstDecisive answers a ∧ firstDefinitive.outcome none answers = .found a) ∨
      ∃ last, Searching answers last ∧
        firstDefinitive.outcome none answers = .ofSuggestion last :=
  searching_nil.outcome answers

/-- A run of the other policy weighs every answer. -/
theorem outcome_exhaustive_of_suggests (hs : Suggests seen suggestion) (answers : List Answer) :
    ∃ last, Suggests (seen ++ answers) last ∧
      exhaustive.outcome suggestion answers = .ofSuggestion last := by
  induction answers generalizing seen suggestion with
  | nil => exact ⟨suggestion, by simpa using hs, rfl⟩
  | cons a answers ih =>
    obtain ⟨next, hw⟩ : ∃ next, exhaustive.weigh suggestion a = .pending next := by
      cases suggestion <;> exact ⟨_, rfl⟩
    rw [List.append_cons]
    simp only [ScanPolicy.outcome, hw]
    exact ih (suggests_of_weigh hs (by simp) hw)

theorem outcome_exhaustive (answers : List Answer) :
    ∃ last, Suggests answers last ∧ exhaustive.outcome none answers = .ofSuggestion last :=
  outcome_exhaustive_of_suggests (show Suggests [] none from rfl) answers

theorem outcome_firstDefinitive_eq_found_iff {answers : List Answer} :
    firstDefinitive.outcome none answers = .found a ↔ FirstDecisive answers a := by
  rcases outcome_firstDefinitive_cases answers with ⟨b, hb, ho⟩ | ⟨last, hlast, ho⟩
  · rw [ho, Outcome.found.injEq]
    constructor
    · rintro rfl
      exact hb
    · intro ha
      exact hb.unique ha
  · rw [ho, Outcome.ofSuggestion_eq_found_iff]
    constructor
    · rintro ⟨hsome, hdefinitive⟩
      have hadvisory := hlast.advisory a hsome
      simp [hdefinitive] at hadvisory
    · intro ha
      exact absurd hlast.undecided ha.not_undecided

/-- Without a decisive answer the earliest of the best is suggested. -/
theorem outcome_firstDefinitive_of_undecided {answers : List Answer} (hu : Undecided answers)
    (hne : answers ≠ []) : ∃ s, EarliestBest answers s ∧ s.isAdvisory = true ∧
      firstDefinitive.outcome none answers = .suggested s := by
  rcases outcome_firstDefinitive_cases answers with ⟨b, hb, -⟩ | ⟨last, hlast, ho⟩
  · exact absurd hu hb.not_undecided
  · obtain ⟨s, rfl⟩ := Option.ne_none_iff_exists'.1 (mt hlast.suggests.eq_none_iff.1 hne)
    have hadvisory := hlast.advisory s rfl
    refine ⟨s, hlast.suggests, hadvisory, ?_⟩
    rw [ho, Outcome.ofSuggestion_eq_suggested_iff]
    exact ⟨rfl, hadvisory⟩

theorem outcome_firstDefinitive_eq_missing_iff {answers : List Answer} :
    firstDefinitive.outcome none answers = .missing ↔ answers = [] := by
  rcases outcome_firstDefinitive_cases answers with ⟨b, hb, ho⟩ | ⟨last, hlast, ho⟩
  · rw [ho]
    simp [List.ne_nil_of_mem hb.mem]
  · rw [ho, Outcome.ofSuggestion_eq_missing_iff, hlast.suggests.eq_none_iff]

theorem outcome_eq_missing_iff (policy : ScanPolicy) {answers : List Answer} :
    policy.outcome none answers = .missing ↔ answers = [] := by
  cases policy with
  | firstDefinitive => exact outcome_firstDefinitive_eq_missing_iff
  | exhaustive =>
    obtain ⟨last, hlast, ho⟩ := outcome_exhaustive answers
    rw [ho, Outcome.ofSuggestion_eq_missing_iff, hlast.eq_none_iff]

/-- Where the first policy decides nothing, the policies agree. -/
theorem outcome_exhaustive_eq_firstDefinitive {answers : List Answer}
    (h : ∀ a, firstDefinitive.outcome none answers ≠ .found a) :
    exhaustive.outcome none answers = firstDefinitive.outcome none answers := by
  rcases outcome_firstDefinitive_cases answers with ⟨a, -, ho⟩ | ⟨last, hlast, ho⟩
  · exact absurd ho (h a)
  · obtain ⟨full, hfull, hofull⟩ := outcome_exhaustive answers
    rw [ho, hofull, hfull.unique hlast.suggests]

/-- The first decisive answer stands above everything before it, so it is the earliest of the best
where nothing later outranks it. -/
theorem earliestBest_of_firstDecisive {answers : List Answer} (h : FirstDecisive answers a)
    (hle : ∀ b ∈ answers, b.height ≤ a.height) : EarliestBest answers a := by
  obtain ⟨before, after, rfl, hd, hu⟩ := h
  have hafter : ∀ b ∈ after, b.height ≤ a.height := by
    intro b hb
    exact hle b (by simp [hb])
  refine ⟨before, after, rfl, ?_, hafter⟩
  rcases outcome_firstDefinitive_cases before with ⟨b, hb, -⟩ | ⟨last, hlast, -⟩
  · exact absurd hu hb.not_undecided
  · cases last with
    | none =>
      rw [hlast.suggests.eq_none_iff.1 rfl]
      simp
    | some s =>
      have hs : EarliestBest before s := hlast.suggests
      have hlt : s.height < a.height := hd.above s hs.mem (hlast.advisory s rfl)
      intro b hb
      have hbest := hs.height_le b hb
      omega

theorem mem_of_outcome {policy : ScanPolicy} {answers : List Answer}
    (h : (policy.outcome none answers).answer? = some a) : a ∈ answers := by
  have hsuggested : ∀ last, Suggests answers last →
      (Outcome.ofSuggestion last).answer? = some a → a ∈ answers := by
    intro last hlast hsome
    rw [Outcome.answer?_ofSuggestion, hlast.eq_some_iff] at hsome
    exact hsome.mem
  cases policy with
  | firstDefinitive =>
    rcases outcome_firstDefinitive_cases answers with ⟨b, hb, ho⟩ | ⟨last, hlast, ho⟩
    · rw [ho] at h
      exact Option.some.inj h ▸ hb.mem
    · rw [ho] at h
      exact hsuggested last hlast.suggests h
  | exhaustive =>
    obtain ⟨last, hlast, ho⟩ := outcome_exhaustive answers
    rw [ho] at h
    exact hsuggested last hlast h

/-- An answer without a restriction settles the outcome, whatever comes after it. -/
theorem outcome_append_of_unrestricted (policy : ScanPolicy) {answers : List Answer}
    (ha : a ∈ answers) (hr : a.restriction = none) :
    ∃ b ∈ answers, b.isAdvisory = false ∧ (policy = .exhaustive → b.restriction = none) ∧
      ∀ more, policy.outcome none (answers ++ more) = .found b := by
  have hheight := Answer.height_of_unrestricted hr
  cases policy with
  | firstDefinitive =>
    obtain ⟨before, after, rfl⟩ := List.append_of_mem ha
    have hd : Decisive before a := by
      refine ⟨by simp [Answer.isAdvisory, hr], ?_⟩
      intro b _ hb
      have hlt := Answer.height_lt_of_isAdvisory hb
      omega
    rcases outcome_firstDefinitive_cases (before ++ a :: after) with ⟨b, hb, -⟩ | ⟨last, hlast, -⟩
    · refine ⟨b, hb.mem, hb.definitive, by simp, ?_⟩
      intro more
      exact outcome_firstDefinitive_eq_found_iff.2 (hb.append more)
    · exact absurd hd (hlast.undecided before a after rfl)
  | exhaustive =>
    obtain ⟨last, hlast, -⟩ := outcome_exhaustive answers
    obtain ⟨b, rfl⟩ :=
      Option.ne_none_iff_exists'.1 (mt hlast.eq_none_iff.1 (List.ne_nil_of_mem ha))
    have hb : EarliestBest answers b := hlast
    have hbest : b.height = 5 := by
      have hle := b.height_le
      have hge := hb.height_le a ha
      omega
    have hfree := Answer.restriction_of_height hbest
    refine ⟨b, hb.mem, by simp [Answer.isAdvisory, hfree], fun _ => hfree, ?_⟩
    intro more
    obtain ⟨full, hfull, ho⟩ := outcome_exhaustive (answers ++ more)
    rw [ho, Outcome.ofSuggestion_eq_found_iff, hfull.eq_some_iff]
    refine ⟨?_, by simp [Answer.isAdvisory, hfree]⟩
    apply hb.append
    intro c _
    have hle := c.height_le
    omega

theorem outcome_append_eq (policy : ScanPolicy) {answers : List Answer} (ha : a ∈ answers)
    (hr : a.restriction = none) (more : List Answer) :
    policy.outcome none (answers ++ more) = policy.outcome none answers := by
  obtain ⟨b, -, -, -, hfound⟩ := policy.outcome_append_of_unrestricted ha hr
  have hnothing : policy.outcome none answers = .found b := by
    simpa using hfound []
  rw [hfound more, hnothing]

end ScanPolicy

end ClasspathLookup
