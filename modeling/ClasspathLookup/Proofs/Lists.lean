import Mathlib.Data.List.Forall2

/-!
# Lists and options

Facts about searching lists, and about options and lists whose members are related in order. They say
nothing about a classpath.
-/

namespace Option

theorem rel_eq_iff {α : Type} {a b : Option α} : Option.Rel Eq a b ↔ a = b := by
  constructor
  · rintro (⟨rfl⟩ | _)
    · rfl
    · rfl
  · rintro rfl
    cases a with
    | none => exact .none
    | some a => exact .some rfl

namespace Rel

variable {α β γ δ : Type} {R : α → β → Prop} {S : γ → δ → Prop} {a : Option α} {b : Option β}

/-- Related options are both empty or hold related values. -/
theorem none_or_some (h : Option.Rel R a b) :
    (a = Option.none ∧ b = Option.none) ∨
      ∃ x y, a = Option.some x ∧ b = Option.some y ∧ R x y := by
  cases h with
  | none => exact Or.inl ⟨rfl, rfl⟩
  | some h => exact Or.inr ⟨_, _, rfl, rfl, h⟩

theorem imp {R' : α → β → Prop} (h : Option.Rel R a b) (himp : ∀ x y, R x y → R' x y) :
    Option.Rel R' a b := by
  cases h with
  | none => exact .none
  | some h => exact .some (himp _ _ h)

theorem map (h : Option.Rel R a b) {f : α → γ} {g : β → δ} (hfg : ∀ x y, R x y → S (f x) (g y)) :
    Option.Rel S (a.map f) (b.map g) := by
  cases h with
  | none => exact .none
  | some h => exact .some (hfg _ _ h)

end Rel

end Option

namespace List

variable {α β γ δ : Type}

namespace Forall₂

variable {R : α → β → Prop} {as : List α} {bs : List β}

theorem map_eq (h : List.Forall₂ R as bs) {f : α → γ} {g : β → γ}
    (hfg : ∀ {a b}, R a b → f a = g b) : as.map f = bs.map g := by
  induction h with
  | nil => rfl
  | cons hab _ ih => rw [List.map_cons, List.map_cons, hfg hab, ih]

theorem getElem? (h : List.Forall₂ R as bs) (index : Nat) :
    Option.Rel R as[index]? bs[index]? := by
  induction h generalizing index with
  | nil => exact .none
  | cons hab _ ih =>
    cases index with
    | zero => exact .some hab
    | succ index => exact ih index

end Forall₂

/-- Two searches of one list whose steps are related find related results. -/
theorem rel_findSome? {S : γ → δ → Prop} {as : List α} {f : α → Option γ} {g : α → Option δ}
    (h : ∀ a ∈ as, Option.Rel S (f a) (g a)) :
    Option.Rel S (as.findSome? f) (as.findSome? g) := by
  induction as with
  | nil => exact .none
  | cons a as ih =>
    have hrest := ih fun b hb => h b (List.mem_cons_of_mem _ hb)
    rw [List.findSome?_cons, List.findSome?_cons]
    rcases (h a List.mem_cons_self).none_or_some with ⟨hnone, hnone'⟩ | ⟨_, _, hsome, hsome', hab⟩
    · rwa [hnone, hnone']
    · rw [hsome, hsome']
      exact .some hab

section AppendCons

variable {before after : List α} {a : α}

/-- What fails the test, or comes after something that passes it, is not found first. -/
theorem find?_append_cons {test : α → Bool} (h : test a = true → ∃ b ∈ before, test b = true) :
    (before ++ a :: after).find? test = (before ++ after).find? test := by
  rw [List.find?_append, List.find?_append]
  cases ha : test a with
  | false => rw [List.find?_cons_of_neg (by simp [ha])]
  | true =>
    obtain ⟨b, hmem, hb⟩ := h ha
    obtain ⟨first, hfirst⟩ := Option.isSome_iff_exists.1 (List.find?_isSome.2 ⟨b, hmem, hb⟩)
    rw [hfirst, Option.some_or, Option.some_or]

theorem findSome?_append_cons {f : α → Option β}
    (h : (f a).isSome = true → ∃ b ∈ before, (f b).isSome = true) :
    (before ++ a :: after).findSome? f = (before ++ after).findSome? f := by
  rw [List.findSome?_append, List.findSome?_append, List.findSome?_cons]
  cases ha : f a with
  | none => rfl
  | some x =>
    obtain ⟨b, hmem, hb⟩ := h (by rw [ha]; rfl)
    obtain ⟨first, hfirst⟩ :=
      Option.isSome_iff_exists.1 (List.findSome?_isSome_iff.2 ⟨b, hmem, hb⟩)
    rw [hfirst, Option.some_or, Option.some_or]

theorem any_append_cons {test : α → Bool} (h : test a = true → ∃ b ∈ before, test b = true) :
    (before ++ a :: after).any test = (before ++ after).any test := by
  rw [List.any_append, List.any_append, List.any_cons]
  cases ha : test a with
  | false => rfl
  | true =>
    rw [List.any_eq_true.2 (h ha), Bool.true_or, Bool.true_or]

end AppendCons

/-- Leaving out what gives nothing leaves the first result. -/
theorem findSome?_filter_of_none {test : α → Bool} {f : α → Option β}
    (h : ∀ a, test a = false → f a = none) (as : List α) :
    (as.filter test).findSome? f = as.findSome? f := by
  induction as with
  | nil => rfl
  | cons a as ih =>
    cases ha : test a with
    | true => rw [List.filter_cons_of_pos ha, List.findSome?_cons, List.findSome?_cons, ih]
    | false => rw [List.filter_cons_of_neg (by simp [ha]), List.findSome?_cons, h a ha, ih]

/-- Of two places in a list that differ, one comes before the other. -/
theorem same_or_before_of_append_cons_eq {before after before' after' : List α} {a b : α}
    (h : before ++ a :: after = before' ++ b :: after') :
    (before = before' ∧ a = b) ∨ (∃ between, before' = before ++ a :: between) ∨
      ∃ between, before = before' ++ b :: between := by
  rcases List.append_eq_append_iff.1 h with ⟨between, rfl, hc⟩ | ⟨between, rfl, hc⟩
  · cases between with
    | nil => exact Or.inl ⟨(List.append_nil _).symm, (List.cons.inj hc).1⟩
    | cons c between => exact Or.inr (Or.inl ⟨between, by rw [(List.cons.inj hc).1]⟩)
  · cases between with
    | nil => exact Or.inl ⟨List.append_nil _, (List.cons.inj hc).1.symm⟩
    | cons c between => exact Or.inr (Or.inr ⟨between, by rw [(List.cons.inj hc).1]⟩)

end List
