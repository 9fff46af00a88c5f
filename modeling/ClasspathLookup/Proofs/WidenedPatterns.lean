import ClasspathLookup.Proofs.GlobRelation

/-!
# Patterns with one star more

A star that is put into a pattern may stand for no byte at all, so the relation that patterns
declare loses nothing by it. Matching does lose something, though only on texts that hold a star
themselves: there the new star is taken for a byte that agrees, and with that it is used up. Every
such text has a pattern that is lost in this way.
-/

namespace ClasspathLookup.Glob

variable {pattern text front back : List UInt8}

theorem Matches.append {more : List UInt8} (hfront : Matches front text)
    (hback : Matches back more) : Matches (front ++ back) (text ++ more) := by
  induction hfront with
  | nil => exact hback
  | run skipped _ ih =>
    rw [List.append_assoc]
    exact .run skipped ih
  | any byte _ ih => exact .any byte ih
  | literal hstar hany _ ih => exact .literal hstar hany ih

/-- One more star loses no text that the pattern declares. -/
theorem Matches.insert_star (h : Matches (front ++ back) text) :
    Matches (front ++ star :: back) text := by
  obtain ⟨before, after, rfl, hfront, hback⟩ := h.exists_append
  exact hfront.append (.run [] hback)

/-- As many `?` as there are bytes agree with them. -/
theorem agree_replicate_append (front pattern text : List UInt8) :
    agree (List.replicate front.length anyByte ++ pattern) (front ++ text) =
      agree pattern text := by
  induction front with
  | nil => rfl
  | cons byte front ih =>
    rw [List.length_cons, List.replicate_succ, List.cons_append, List.cons_append, agree,
      if_pos (Or.inl rfl), ih]

theorem matchBytes_replicate (text : List UInt8) :
    matchBytes (List.replicate text.length anyByte) text = true := by
  have hagree := agree_replicate_append text [] []
  rw [List.append_nil, List.append_nil] at hagree
  rw [matchBytes, hagree]
  rfl

/-- A star that meets a star of the text is used up by it, and then a byte is missing for one of the
`?` behind it. -/
theorem matchBytes_replicate_star (before after : List UInt8) :
    matchBytes (List.replicate before.length anyByte ++
      star :: List.replicate (after.length + 1) anyByte) (before ++ star :: after) = false := by
  have hafter := agree_replicate_append after [anyByte] []
  rw [List.append_nil] at hafter
  have hagree : agree (List.replicate before.length anyByte ++
      star :: List.replicate (after.length + 1) anyByte) (before ++ star :: after) =
      .ended [anyByte] := by
    rw [agree_replicate_append, agree, if_pos (Or.inr rfl), List.replicate_succ', hafter]
    rfl
  rw [matchBytes, hagree]
  rfl

/-- One more star loses no pattern that matches the text. -/
def KeepsWidened (text : List UInt8) : Prop :=
  ∀ front back, matchBytes (front ++ back) text = true →
    matchBytes (front ++ star :: back) text = true

/-- A star can be put anywhere into any pattern without losing the text exactly when the text holds
no star. What a pattern declares is kept on every text. -/
theorem keepsWidened_iff (text : List UInt8) :
    (KeepsWidened text ↔ star ∉ text) ∧
      ∀ front back, Matches (front ++ back) text → Matches (front ++ star :: back) text := by
  refine ⟨⟨?_, ?_⟩, fun front back h => h.insert_star⟩
  · intro hkeeps hstar
    obtain ⟨before, after, rfl⟩ := List.append_of_mem hstar
    have hmatch := matchBytes_replicate (before ++ star :: after)
    rw [List.length_append, List.length_cons, List.replicate_add] at hmatch
    have hlost := hkeeps _ _ hmatch
    rw [matchBytes_replicate_star] at hlost
    cases hlost
  · intro hfree front back h
    exact matchBytes_of_matches hfree (matches_of_matchBytes h).insert_star

/-- The letter `a` is matched by `?`, and by `*?` as well. -/
theorem keepsWidened_letter : star ∉ ([97] : List UInt8) ∧
    matchBytes ([] ++ [anyByte]) [97] = true ∧ matchBytes ([] ++ star :: [anyByte]) [97] = true ∧
    Matches ([] ++ star :: [anyByte]) [97] := by
  have hfree : star ∉ ([97] : List UInt8) := by decide
  have hmatch : matchBytes ([] ++ [anyByte]) [97] = true := by decide
  obtain ⟨hkeeps, hdeclared⟩ := keepsWidened_iff [97]
  exact ⟨hfree, hmatch, hkeeps.2 hfree [] [anyByte] hmatch,
    hdeclared [] [anyByte] (matches_of_matchBytes hmatch)⟩

/-- `?` matches the text of a single star, and `*?` does not. -/
theorem not_forall_keepsWidened : ¬ ∀ text, KeepsWidened text := by
  intro hkeeps
  have hlost : matchBytes [star, anyByte] [star] = true := hkeeps [star] [] [anyByte] (by decide)
  exact absurd hlost (by decide)

end ClasspathLookup.Glob
