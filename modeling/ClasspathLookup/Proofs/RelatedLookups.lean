import ClasspathLookup.Environment.Scan
import ClasspathLookup.Proofs.Lists

/-!
# Lookups on two sides

A lookup that is made on two sides need not come to one value, and the two sides may ask for the same
thing under different names. Two lookups agree up to a relation when their values are related in all
views that belong together and what they ask for there corresponds. Whatever is put together from
agreeing lookups agrees, so nothing has to be known of the views but what the first few lookups do in
them.
-/

namespace ClasspathLookup

/-- Which views belong together, and which lists of things that are asked for correspond. -/
structure Sides where
  sees : View → View → Prop
  asks : List Need → List Need → Prop
  asks_nil : asks [] []
  asks_append : ∀ {needs needs' more more'}, asks needs needs' → asks more more' →
    asks (needs ++ more) (needs' ++ more')

namespace Sides

/-- Two views, whatever is asked for in them. -/
def views (view view' : View) : Sides where
  sees left right := left = view ∧ right = view'
  asks _ _ := True
  asks_nil := trivial
  asks_append _ _ := trivial

section Agree

variable {α β γ δ : Type}

/-- On both sides the same is asked for, and the values are related. -/
def Agree (sides : Sides) (R : α → β → Prop) (x : Lookup α) (y : Lookup β) : Prop :=
  ∀ view view', sides.sees view view' →
    R (x.value view) (y.value view') ∧ sides.asks (x.needs view) (y.needs view')

variable {sides : Sides} {R : α → β → Prop} {S : γ → δ → Prop}

/-- Between two views only the values count. -/
theorem views_agree_iff {view view' : View} {x : Lookup α} {y : Lookup β} :
    (views view view').Agree R x y ↔ R (x.value view) (y.value view') := by
  constructor
  · intro h
    exact (h view view' ⟨rfl, rfl⟩).1
  · rintro h _ _ ⟨rfl, rfl⟩
    exact ⟨h, trivial⟩

namespace Agree

theorem imp {R' : α → β → Prop} {x : Lookup α} {y : Lookup β} (h : sides.Agree R x y)
    (himp : ∀ a b, R a b → R' a b) : sides.Agree R' x y :=
  fun view view' hview => ⟨himp _ _ (h view view' hview).1, (h view view' hview).2⟩

protected theorem pure {a : α} {b : β} (h : R a b) :
    sides.Agree R (Pure.pure a) (Pure.pure b) :=
  fun _ _ _ => ⟨h, sides.asks_nil⟩

protected theorem bind {x : Lookup α} {y : Lookup β} {f : α → Lookup γ} {g : β → Lookup δ}
    (h : sides.Agree R x y) (hnext : ∀ a b, R a b → sides.Agree S (f a) (g b)) :
    sides.Agree S (x >>= f) (y >>= g) := by
  intro view view' hview
  obtain ⟨hvalue, hneeds⟩ := h view view' hview
  obtain ⟨hvalue', hneeds'⟩ := hnext _ _ hvalue view view' hview
  exact ⟨hvalue', sides.asks_append hneeds hneeds'⟩

/-- Where the first parts come to one value, so does what is made of it. -/
theorem bind_eq {x y : Lookup α} {f : α → Lookup γ} {g : α → Lookup δ} (h : sides.Agree Eq x y)
    (hnext : ∀ a, sides.Agree S (f a) (g a)) : sides.Agree S (x >>= f) (y >>= g) := by
  apply h.bind
  rintro a _ rfl
  exact hnext a

protected theorem ite {p : Prop} [Decidable p] {x x' : Lookup α} {y y' : Lookup β}
    (h : sides.Agree R x y) (h' : sides.Agree R x' y') :
    sides.Agree R (if p then x else x') (if p then y else y') := by
  split
  · exact h
  · exact h'

theorem onDisk {f : Disk → α} {g : Disk → β}
    (h : ∀ view view', sides.sees view view' → R (f view.disk) (g view'.disk)) :
    sides.Agree R (.onDisk f) (.onDisk g) :=
  fun view view' hview => ⟨h view view' hview, sides.asks_nil⟩

/-- An optional value is marked in related ways, or there is none on either side. -/
theorem mark {x : Lookup (Option α)} {y : Lookup (Option β)} {f : α → γ} {g : β → δ}
    (h : sides.Agree (Option.Rel R) x y) (hmark : ∀ a b, R a b → S (f a) (g b)) :
    sides.Agree (Option.Rel S) (do let a ← x; Pure.pure (a.map f))
      (do let b ← y; Pure.pure (b.map g)) :=
  h.bind fun _ _ hab => .pure (hab.map hmark)

section Lists

variable {as : List α} {bs : List β}

theorem firstSome {f : α → Lookup (Option γ)} {g : β → Lookup (Option δ)}
    (h : List.Forall₂ (fun a b => sides.Agree (Option.Rel S) (f a) (g b)) as bs) :
    sides.Agree (Option.Rel S) (Lookup.firstSome f as) (Lookup.firstSome g bs) := by
  induction h with
  | nil => exact .pure .none
  | cons hab _ ih =>
    apply hab.bind
    rintro _ _ (hanswer | _)
    · exact .pure (.some hanswer)
    · exact ih

theorem firstSome_eq {f : α → Lookup (Option γ)} {g : β → Lookup (Option γ)}
    (h : List.Forall₂ (fun a b => sides.Agree Eq (f a) (g b)) as bs) :
    sides.Agree Eq (Lookup.firstSome f as) (Lookup.firstSome g bs) := by
  have hrelated : sides.Agree (Option.Rel Eq) (Lookup.firstSome f as) (Lookup.firstSome g bs) :=
    firstSome (h.imp fun _ _ hab => hab.imp fun _ _ => Option.rel_eq_iff.2)
  exact hrelated.imp fun _ _ => Option.rel_eq_iff.1

theorem any {f : α → Lookup Bool} {g : β → Lookup Bool}
    (h : List.Forall₂ (fun a b => sides.Agree Eq (f a) (g b)) as bs) :
    sides.Agree Eq (Lookup.any f as) (Lookup.any g bs) := by
  induction h with
  | nil => exact .pure rfl
  | cons hab _ ih => exact hab.bind_eq fun _ => .ite (.pure rfl) ih

/-- What is found on the two sides is related as well. -/
theorem find? {f : α → Lookup Bool} {g : β → Lookup Bool}
    (hfg : ∀ a b, R a b → sides.Agree Eq (f a) (g b)) (h : List.Forall₂ R as bs) :
    sides.Agree (Option.Rel R) (Lookup.find? f as) (Lookup.find? g bs) := by
  induction h with
  | nil => exact .pure .none
  | cons hab _ ih => exact (hfg _ _ hab).bind_eq fun _ => .ite (.pure (.some hab)) ih

theorem filter {f g : α → Lookup Bool} (h : ∀ a, sides.Agree Eq (f a) (g a)) (as : List α) :
    sides.Agree Eq (Lookup.filter f as) (Lookup.filter g as) := by
  induction as with
  | nil => exact .pure rfl
  | cons a as ih => exact (h a).bind_eq fun _ => ih.bind_eq fun _ => .pure rfl

theorem scan (policy : ScanPolicy) {probe : α → Lookup (Option Answer)}
    {probe' : β → Lookup (Option Answer)}
    (h : List.Forall₂ (fun a b => sides.Agree Eq (probe a) (probe' b)) as bs)
    (suggestion : Option Answer) :
    sides.Agree Eq (policy.scan probe suggestion as) (policy.scan probe' suggestion bs) := by
  induction h generalizing suggestion with
  | nil => exact .pure rfl
  | cons hab _ ih =>
    apply hab.bind_eq
    rintro (_ | answer)
    · exact ih suggestion
    · dsimp only
      cases policy.weigh suggestion answer with
      | decided answer => exact .pure rfl
      | pending suggestion => exact ih suggestion

end Lists

end Agree

end Agree

end Sides

end ClasspathLookup
