import ClasspathLookup.Glob
import Mathlib.Data.List.Infix

/-!
# What a glob pattern covers

Patterns are declared by a relation that says nothing about how a match is found: the segments of
the path are dealt out to the segments of the pattern, and inside a segment the bytes to the bytes.
Matching is compared with this relation. It takes an agreeing byte before it opens a star and never
goes back behind the last star opened, which loses no match as long as the path itself holds no
star.
-/

namespace ClasspathLookup.Glob

/-- A star stands for any run of bytes, `?` for any one byte and every other byte for itself. -/
inductive Matches : List UInt8 → List UInt8 → Prop
  | nil : Matches [] []
  | run {pattern text : List UInt8} (front : List UInt8) (h : Matches pattern text) :
      Matches (star :: pattern) (front ++ text)
  | any {pattern text : List UInt8} (byte : UInt8) (h : Matches pattern text) :
      Matches (anyByte :: pattern) (byte :: text)
  | literal {byte : UInt8} {pattern text : List UInt8} (hstar : byte ≠ star)
      (hany : byte ≠ anyByte) (h : Matches pattern text) : Matches (byte :: pattern) (byte :: text)

/-- `**` stands for any number of segments and every other segment for one that it matches. -/
inductive Spans : List String → List String → Prop
  | nil : Spans [] []
  | deep {pattern path : List String} (front : List String) (h : Spans pattern path) :
      Spans ("**" :: pattern) (front ++ path)
  | segment {p segment : String} {pattern path : List String} (hp : p ≠ "**")
      (hmatch : Matches (bytes p) (bytes segment)) (h : Spans pattern path) :
      Spans (p :: pattern) (segment :: path)

/-- A text cut at all of its slashes. -/
structure Cut (text : String) (segments : List String) : Prop where
  nonempty : segments ≠ []
  slashFree : ∀ segment ∈ segments, '/' ∉ segment.toList
  joined : Slash.join segments = text

/-- The relation that patterns declare. A final slash of the pattern is shorthand for `/**`. -/
def Declares (pattern path : String) : Prop :=
  ∃ patternSegments pathSegments,
    Cut (if ['/'] <:+ pattern.toList then pattern ++ "**" else pattern) patternSegments ∧
    Cut path pathSegments ∧ Spans patternSegments pathSegments

theorem cut_iff {text : String} {segments : List String} :
    Cut text segments ↔ segments = Slash.split text := by
  constructor
  · intro h
    rw [← h.joined, Slash.split_join h.nonempty h.slashFree]
  · rintro rfl
    exact ⟨Slash.split_ne_nil text, fun _ => Slash.slash_not_mem_of_mem_split,
      Slash.join_split text⟩

theorem declares_iff {pattern path : String} :
    Declares pattern path ↔ Spans (segments pattern) (Slash.split path) := by
  have hend : ['/'] <:+ pattern.toList ↔ pattern.toList.getLast? = some '/' := by
    rw [List.getLast?_eq_some_iff]
    exact ⟨fun ⟨front, h⟩ => ⟨front, h.symm⟩, fun ⟨front, h⟩ => ⟨front, h.symm⟩⟩
  simp only [Declares, cut_iff, exists_and_left, exists_eq_left, hend, segments]

section Bytes

variable {pattern text rest tail : List UInt8} {p : UInt8}

theorem matches_nil_iff : Matches pattern [] ↔ ∀ byte ∈ pattern, byte = star := by
  constructor
  · generalize hempty : ([] : List UInt8) = text
    intro h
    induction h with
    | nil => simp
    | run front h ih =>
      obtain ⟨-, htext⟩ := List.append_eq_nil_iff.1 hempty.symm
      intro byte hbyte
      rcases List.mem_cons.1 hbyte with rfl | hbyte
      · rfl
      · exact ih htext.symm byte hbyte
    | any byte h ih => cases hempty
    | literal hstar hany h ih => cases hempty
  · intro h
    induction pattern with
    | nil => exact .nil
    | cons p pattern ih =>
      rw [h p List.mem_cons_self]
      exact .run [] (ih fun byte hbyte => h byte (List.mem_cons_of_mem p hbyte))

theorem matches_star_iff : Matches (star :: pattern) text ↔
    ∃ front back, text = front ++ back ∧ Matches pattern back := by
  constructor
  · generalize hp : star :: pattern = starred
    intro h
    cases h with
    | nil => cases hp
    | run front h =>
      obtain ⟨-, rfl⟩ := List.cons.inj hp
      exact ⟨front, _, rfl, h⟩
    | any byte h => exact absurd (List.cons.inj hp).1 (by decide)
    | literal hstar hany h => exact absurd (List.cons.inj hp).1.symm hstar
  · rintro ⟨front, back, rfl, h⟩
    exact .run front h

/-- Any byte of a pattern but a star takes one byte. -/
theorem matches_cons_iff (hp : p ≠ star) : Matches (p :: pattern) text ↔
    ∃ byte back, text = byte :: back ∧ (p = anyByte ∨ p = byte) ∧ Matches pattern back := by
  constructor
  · intro h
    cases h with
    | run front h => exact absurd rfl hp
    | any byte h => exact ⟨byte, _, rfl, Or.inl rfl, h⟩
    | literal hstar hany h => exact ⟨p, _, rfl, Or.inr rfl, h⟩
  · rintro ⟨byte, back, rfl, hbyte, h⟩
    by_cases hany : p = anyByte
    · rw [hany]
      exact .any byte h
    · rw [← hbyte.resolve_left hany]
      exact .literal hp hany h

/-- A star may take more at its front. -/
theorem Matches.append_left (h : Matches (star :: pattern) text) (front : List UInt8) :
    Matches (star :: pattern) (front ++ text) := by
  obtain ⟨run, back, rfl, hback⟩ := matches_star_iff.1 h
  rw [← List.append_assoc]
  exact .run (front ++ run) hback

theorem Matches.exists_append {front : List UInt8} (h : Matches (front ++ rest) text) :
    ∃ before back, text = before ++ back ∧ Matches front before ∧ Matches rest back := by
  induction front generalizing text with
  | nil => exact ⟨[], text, rfl, .nil, h⟩
  | cons p front ih =>
    by_cases hp : p = star
    · subst hp
      obtain ⟨run, after, rfl, hafter⟩ := matches_star_iff.1 h
      obtain ⟨before, back, rfl, hfront, hrest⟩ := ih hafter
      exact ⟨run ++ before, back, by simp, .run run hfront, hrest⟩
    · obtain ⟨byte, after, rfl, hbyte, hafter⟩ := (matches_cons_iff hp).1 h
      obtain ⟨before, back, rfl, hfront, hrest⟩ := ih hafter
      exact ⟨byte :: before, back, rfl, (matches_cons_iff hp).2 ⟨byte, before, rfl, hbyte, hfront⟩,
        hrest⟩

theorem Matches.length_le (h : Matches pattern text) (hfree : star ∉ pattern) :
    pattern.length ≤ text.length := by
  induction h with
  | nil => simp
  | run front h ih => simp at hfree
  | any byte h ih =>
    have hle := ih (List.not_mem_of_not_mem_cons hfree)
    simpa using hle
  | literal hstar hany h ih =>
    have hle := ih (List.not_mem_of_not_mem_cons hfree)
    simpa using hle

/-- What is left to match where the bytes stop to agree. -/
def Agreement.left? : Agreement → Option (List UInt8 × List UInt8)
  | .ended rest => some (rest, [])
  | .star rest tail => some (Glob.star :: rest, tail)
  | .differs => none

theorem matches_of_left (hleft : (agree pattern text).left? = some (rest, tail))
    (h : Matches rest tail) : Matches pattern text := by
  fun_induction agree pattern text with
  | case1 pattern =>
    obtain ⟨rfl, rfl⟩ := Prod.mk.inj (Option.some.inj hleft)
    exact h
  | case2 => cases hleft
  | case3 p pattern t text hagree ih =>
    by_cases hp : p = star
    · -- A star that stands for itself is a star that stands for one byte.
      rw [hp]
      exact .run [t] (ih hleft)
    · exact (matches_cons_iff hp).2 ⟨t, text, rfl, hagree, ih hleft⟩
  | case4 pattern t text =>
    obtain ⟨rfl, rfl⟩ := Prod.mk.inj (Option.some.inj hleft)
    exact h
  | case5 => cases hleft

theorem exists_left_of_matches (hfree : star ∉ text) (h : Matches pattern text) :
    ∃ rest tail, (agree pattern text).left? = some (rest, tail) ∧ Matches rest tail := by
  fun_induction agree pattern text with
  | case1 pattern => exact ⟨pattern, [], rfl, h⟩
  | case2 => cases h
  | case3 p pattern t text hagree ih =>
    have hp : p ≠ star := by
      rintro rfl
      rcases hagree with hany | rfl
      · exact absurd hany (by decide)
      · simp at hfree
    obtain ⟨byte, back, he, -, h⟩ := (matches_cons_iff hp).1 h
    obtain ⟨rfl, rfl⟩ := List.cons.inj he
    exact ih (List.not_mem_of_not_mem_cons hfree) h
  | case4 pattern t text => exact ⟨star :: pattern, t :: text, rfl, h⟩
  | case5 p pattern t text hdiffers hp =>
    obtain ⟨byte, back, he, hbyte, -⟩ := (matches_cons_iff hp).1 h
    obtain ⟨rfl, rfl⟩ := List.cons.inj he
    exact absurd hbyte hdiffers

/-- The part of the pattern before that holds no star and is as long as its text. -/
theorem exists_front_of_left (hfree : star ∉ text)
    (hleft : (agree pattern text).left? = some (rest, tail)) :
    ∃ front before, pattern = front ++ rest ∧ text = before ++ tail ∧
      front.length = before.length ∧ star ∉ front := by
  fun_induction agree pattern text with
  | case1 pattern =>
    obtain ⟨rfl, rfl⟩ := Prod.mk.inj (Option.some.inj hleft)
    exact ⟨[], [], rfl, rfl, rfl, List.not_mem_nil⟩
  | case2 => cases hleft
  | case3 p pattern t text hagree ih =>
    obtain ⟨front, before, rfl, rfl, hlength, hfront⟩ :=
      ih (List.not_mem_of_not_mem_cons hfree) hleft
    refine ⟨p :: front, t :: before, rfl, rfl, by simp [hlength], ?_⟩
    rw [List.mem_cons, not_or]
    refine ⟨?_, hfront⟩
    rintro rfl
    rcases hagree with hany | rfl
    · exact absurd hany (by decide)
    · simp at hfree
  | case4 pattern t text =>
    obtain ⟨rfl, rfl⟩ := Prod.mk.inj (Option.some.inj hleft)
    exact ⟨[], [], rfl, rfl, rfl, List.not_mem_nil⟩
  | case5 => cases hleft

theorem not_mem_of_left (hfree : star ∉ text)
    (hleft : (agree pattern text).left? = some (rest, tail)) : star ∉ tail := by
  obtain ⟨-, before, -, rfl, -, -⟩ := exists_front_of_left hfree hleft
  exact fun h => hfree (List.mem_append_right before h)

/-- The exchange: a match that starts later leaves no more to what follows the agreeing part than
the agreeing part itself does, so nothing is lost by staying with the first place of agreement. -/
theorem exists_suffix_of_matches (hfree : star ∉ text)
    (hleft : (agree pattern text).left? = some (rest, tail)) {back : List UInt8}
    (hback : back <:+ text) (h : Matches pattern back) :
    ∃ late, late <:+ tail ∧ Matches rest late := by
  obtain ⟨front, before, rfl, rfl, hlength, hfront⟩ := exists_front_of_left hfree hleft
  obtain ⟨early, late, rfl, hearly, hlate⟩ := h.exists_append
  refine ⟨late, ?_, hlate⟩
  apply List.suffix_of_suffix_length_le ((List.suffix_append early late).trans hback)
    (List.suffix_append before tail)
  have hle := hearly.length_le hfront
  have htotal := hback.length_le
  simp only [List.length_append] at htotal
  omega

theorem matches_of_matchAfterStar (h : matchAfterStar pattern text = true) :
    Matches (star :: pattern) text := by
  fun_induction matchAfterStar pattern text with
  | case1 pattern text rest hagree =>
    have hrest : Matches rest [] := by
      rw [matches_nil_iff]
      simpa using h
    exact .run [] (matches_of_left (by rw [hagree]; rfl) hrest)
  | case2 pattern text rest tail hagree ih =>
    exact .run [] (matches_of_left (by rw [hagree]; rfl) (ih h))
  | case3 => cases h
  | case4 pattern t text hagree ih => exact (ih h).append_left [t]

theorem matchAfterStar_of_matches (hfree : star ∉ text) (h : Matches (star :: pattern) text) :
    matchAfterStar pattern text = true := by
  fun_induction matchAfterStar pattern text with
  | case1 pattern text rest hagree =>
    obtain ⟨front, back, rfl, hback⟩ := matches_star_iff.1 h
    obtain ⟨late, hlate, hrest⟩ := exists_suffix_of_matches hfree (by rw [hagree]; rfl)
      (List.suffix_append front back) hback
    rw [List.suffix_nil.1 hlate, matches_nil_iff] at hrest
    simpa using hrest
  | case2 pattern text rest tail hagree ih =>
    have hleft : (agree pattern text).left? = some (star :: rest, tail) := by
      rw [hagree]
      rfl
    obtain ⟨front, back, he, hback⟩ := matches_star_iff.1 h
    obtain ⟨late, ⟨skipped, rfl⟩, hlate⟩ := exists_suffix_of_matches hfree hleft
      (he ▸ List.suffix_append front back) hback
    exact ih (not_mem_of_left hfree hleft) (hlate.append_left skipped)
  | case3 pattern hagree =>
    cases pattern <;> simp [agree] at hagree
  | case4 pattern t text hagree ih =>
    apply ih (List.not_mem_of_not_mem_cons hfree)
    obtain ⟨front, back, he, hback⟩ := matches_star_iff.1 h
    cases front with
    | nil =>
      -- Without a byte for the star the bytes would have agreed.
      rw [List.nil_append] at he
      obtain ⟨rest, tail, hleft, -⟩ := exists_left_of_matches (he ▸ hfree) hback
      rw [← he, hagree] at hleft
      cases hleft
    | cons f front =>
      obtain ⟨-, rfl⟩ := List.cons.inj he
      exact .run front hback

theorem matches_of_matchBytes (h : matchBytes pattern text = true) : Matches pattern text := by
  unfold matchBytes at h
  split at h
  · rename_i rest hagree
    have hrest : Matches rest [] := by
      rw [matches_nil_iff]
      simpa using h
    exact matches_of_left (by rw [hagree]; rfl) hrest
  · rename_i rest tail hagree
    exact matches_of_left (by rw [hagree]; rfl) (matches_of_matchAfterStar h)
  · cases h

theorem matchBytes_of_matches (hfree : star ∉ text) (h : Matches pattern text) :
    matchBytes pattern text = true := by
  obtain ⟨left, tail, hleft, h⟩ := exists_left_of_matches hfree h
  have htail := not_mem_of_left hfree hleft
  unfold matchBytes
  split
  · rename_i rest hagree
    rw [hagree] at hleft
    obtain ⟨rfl, rfl⟩ := Prod.mk.inj (Option.some.inj hleft)
    rw [matches_nil_iff] at h
    simpa using h
  · rename_i rest tail' hagree
    rw [hagree] at hleft
    obtain ⟨rfl, rfl⟩ := Prod.mk.inj (Option.some.inj hleft)
    exact matchAfterStar_of_matches htail h
  · rename_i hagree
    rw [hagree] at hleft
    cases hleft

end Bytes

theorem spans_of_matchSegments {pattern path : List String}
    (h : matchSegments pattern path = true) : Spans pattern path := by
  induction pattern generalizing path with
  | nil =>
    rw [matchSegments, List.isEmpty_iff] at h
    rw [h]
    exact .nil
  | cons p pattern ih =>
    unfold matchSegments at h
    split at h
    · rename_i hp
      obtain ⟨front, back, rfl, hback⟩ := anyTail_eq_true_iff.1 h
      rw [hp]
      exact .deep front (ih hback)
    · rename_i hp
      cases path with
      | nil => cases h
      | cons segment path =>
        rw [Bool.and_eq_true] at h
        exact .segment hp (matches_of_matchBytes h.1) (ih h.2)

theorem matchSegments_of_spans {pattern path : List String}
    (hfree : ∀ segment ∈ path, star ∉ bytes segment) (h : Spans pattern path) :
    matchSegments pattern path = true := by
  induction h with
  | nil => rfl
  | deep front h ih =>
    unfold matchSegments
    rw [if_pos rfl, anyTail_eq_true_iff]
    refine ⟨front, _, rfl, ih ?_⟩
    intro segment hsegment
    exact hfree segment (List.mem_append_right front hsegment)
  | segment hp hmatch h ih =>
    rw [matchSegments, if_neg hp, Bool.and_eq_true]
    refine ⟨matchBytes_of_matches (hfree _ List.mem_cons_self) hmatch, ih ?_⟩
    intro segment hsegment
    exact hfree segment (List.mem_cons_of_mem _ hsegment)

@[simp] theorem bytes_append (a b : String) : bytes (a ++ b) = bytes a ++ bytes b := by
  simp [bytes, String.toUTF8]

theorem mem_bytes_join {segments : List String} {segment : String} {byte : UInt8}
    (hsegment : segment ∈ segments) (hbyte : byte ∈ bytes segment) :
    byte ∈ bytes (Slash.join segments) := by
  induction segments with
  | nil => cases hsegment
  | cons first rest ih =>
    cases rest with
    | nil =>
      rw [List.mem_singleton.1 hsegment] at hbyte
      exact hbyte
    | cons next rest =>
      rw [Slash.join, bytes_append, bytes_append]
      rcases List.mem_cons.1 hsegment with rfl | hsegment
      · simp [hbyte]
      · simp [ih hsegment]

/-- A pattern covers only what it declares, and everything that it declares and that holds no star
itself. -/
theorem covers_spec (pattern path : String) :
    (covers pattern path = true → Declares pattern path) ∧
      (star ∉ bytes path → Declares pattern path → covers pattern path = true) := by
  constructor
  · intro h
    exact declares_iff.2 (spans_of_matchSegments h)
  · intro hfree h
    apply matchSegments_of_spans _ (declares_iff.1 h)
    intro segment hsegment hstar
    apply hfree
    rw [← Slash.join_split path]
    exact mem_bytes_join hsegment hstar

/-- A star of the path is taken as a byte that agrees, and then not as part of a run. -/
example : covers "*a" "**a" = false ∧ covers "*a" "--a" = true := by
  decide +kernel

end ClasspathLookup.Glob
