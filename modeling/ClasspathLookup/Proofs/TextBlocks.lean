import ClasspathLookup.Proofs.TopLevelNames

/-!
# Text blocks among declarations

In a text block a backslash takes the next character with it, so an escaped quote does not count for
the closing quotes. The lexeme of a text block knows no escapes: it ends at the first three quotes
in a row, and what is left of the block spills into the source. A block without a spill is like an
empty string wherever it stands, and a block with one is as good as its spill.
-/

namespace ClasspathLookup.Declaration

/-- One unit in the body of a text block as it is written. -/
inductive BodyUnit where
  | plain (c : Char) (h : c ≠ '\\')
  | escaped (c : Char)

namespace BodyUnit

def text : BodyUnit → List Char
  | .plain c _ => [c]
  | .escaped c => ['\\', c]

/-- Only a quote that is not escaped. -/
def isQuote : BodyUnit → Bool
  | .plain c _ => c = '"'
  | .escaped _ => false

end BodyUnit

/-- What opens and closes a text block. -/
def threeQuotes : List Char :=
  ['"', '"', '"']

/-- What stands behind the first three quotes in a row. -/
def afterQuotes : List Char → List Char
  | [] => []
  | c :: cs => if threeQuotes <+: c :: cs then cs.drop 2 else afterQuotes cs

/-- A text block as the language has it. -/
structure TextBlock where
  lineEnd : List Char
  body : List BodyUnit
  lineEnd_mem : lineEnd ∈ [['\n'], ['\r'], ['\r', '\n']]
  quotes_apart : ¬ [true, true, true] <:+: body.map BodyUnit.isQuote

namespace TextBlock

/-- What follows the opening quotes. -/
def inside (block : TextBlock) : List Char :=
  block.lineEnd ++ (block.body.flatMap BodyUnit.text ++ threeQuotes)

def text (block : TextBlock) : String :=
  String.ofList (threeQuotes ++ block.inside)

/-- The part of the block that is left when the lexeme ends. -/
def spill (block : TextBlock) : String :=
  String.ofList (afterQuotes block.inside)

/-- No three quotes stand in a row before the last one of the block, escaped or not. -/
def KeepsQuotesApart (block : TextBlock) : Prop :=
  ¬ threeQuotes <:+: block.body.flatMap BodyUnit.text ++ ['"', '"']

end TextBlock

/-- Whatever follows after a space, the text is read as the same lexemes. -/
def IsComplete (text : List Char) : Prop :=
  ∀ rest, significant text <+: significant (text ++ ' ' :: rest)

section Quotes

variable {cs : List Char}

theorem BlockPart.afterQuotes_append (part : BlockPart) (cs : List Char) :
    afterQuotes (part.text ++ cs) = afterQuotes cs := by
  cases part with
  | plain c h | oneQuote c h | twoQuotes c h =>
    simp [BlockPart.text, afterQuotes, threeQuotes, List.cons_prefix_cons, Ne.symm h]

theorem BlockPart.isInfix_of_append {part : BlockPart} (h : threeQuotes <:+: part.text ++ cs) :
    threeQuotes <:+: cs := by
  cases part with
  | plain c hc | oneQuote c hc | twoQuotes c hc =>
    simpa [BlockPart.text, threeQuotes, List.infix_cons_iff, List.cons_prefix_cons, Ne.symm hc]
      using h

/-- Before three quotes in a row, quotes come one or two at a time. -/
theorem exists_part_of_isInfix (h : threeQuotes <:+: cs) :
    (∃ rest, cs = threeQuotes ++ rest) ∨ ∃ (part : BlockPart) (rest : List Char),
      cs = part.text ++ rest := by
  match cs, h with
  | [], h => exact absurd h (by decide)
  | [c], h => exact absurd h.length_le (by simp [threeQuotes])
  | [c, d], h => exact absurd h.length_le (by simp [threeQuotes])
  | c :: d :: e :: rest, _ =>
    by_cases hc : c = '"'
    · by_cases hd : d = '"'
      · by_cases he : e = '"'
        · exact Or.inl ⟨rest, by rw [hc, hd, he]; rfl⟩
        · exact Or.inr ⟨.twoQuotes e he, rest, by rw [hc, hd]; rfl⟩
      · exact Or.inr ⟨.oneQuote d hd, e :: rest, by rw [hc]; rfl⟩
    · exact Or.inr ⟨.plain c hc, d :: e :: rest, rfl⟩

theorem BlockPart.length_text_pos (part : BlockPart) : 0 < part.text.length := by
  cases part <;> simp [BlockPart.text]

theorem afterQuotes_parts (parts : List BlockPart) (rest : List Char) :
    afterQuotes (parts.flatMap BlockPart.text ++ (threeQuotes ++ rest)) = rest := by
  induction parts with
  | nil => simp [threeQuotes, afterQuotes]
  | cons part parts ih =>
    rw [List.flatMap_cons, List.append_assoc, part.afterQuotes_append, ih]

/-- Up to its first three quotes in a row the text is a body that a lexeme can have. -/
theorem exists_parts_of_isInfix (h : threeQuotes <:+: cs) : ∃ (parts : List BlockPart)
    (rest : List Char), cs = parts.flatMap BlockPart.text ++ (threeQuotes ++ rest) := by
  induction hlength : cs.length using Nat.strong_induction_on generalizing cs with
  | _ length ih =>
    rcases exists_part_of_isInfix h with ⟨rest, rfl⟩ | ⟨part, rest, rfl⟩
    · exact ⟨[], rest, rfl⟩
    · have hshorter : rest.length < length := by
        have hpos := part.length_text_pos
        rw [← hlength, List.length_append]
        omega
      obtain ⟨parts, last, hparts⟩ := ih _ hshorter (BlockPart.isInfix_of_append h) rfl
      exact ⟨part :: parts, last, by rw [List.flatMap_cons, List.append_assoc, ← hparts]⟩

theorem afterQuotes_append (h : threeQuotes <:+: cs) (more : List Char) :
    afterQuotes (cs ++ more) = afterQuotes cs ++ more := by
  obtain ⟨parts, rest, rfl⟩ := exists_parts_of_isInfix h
  rw [afterQuotes_parts, List.append_assoc, List.append_assoc, afterQuotes_parts]

/-- Three quotes at the end are the first ones unless quotes before them come first. -/
theorem afterQuotes_append_threeQuotes_eq_nil_iff :
    afterQuotes (cs ++ threeQuotes) = [] ↔ ¬ threeQuotes <:+: cs ++ ['"', '"'] := by
  constructor
  · intro h hinfix
    have hsplit : cs ++ threeQuotes = cs ++ ['"', '"'] ++ ['"'] := by simp [threeQuotes]
    rw [hsplit, afterQuotes_append hinfix] at h
    simp at h
  · intro h
    induction cs with
    | nil => rfl
    | cons c cs ih =>
      rw [List.cons_append, List.infix_cons_iff, not_or] at h
      rw [List.cons_append, afterQuotes, if_neg ?_, ih h.2]
      intro hprefix
      apply h.1
      refine List.prefix_of_prefix_length_le hprefix ?_ (by simp [threeQuotes])
      rw [List.cons_prefix_cons]
      exact ⟨rfl, by simp [threeQuotes]⟩

end Quotes

namespace Reading

variable {r : Reading}

/-- Only a blank is read on as a blank. -/
theorem next_ne_blank {s : Reading} {c : Char} (hstart : r ≠ .start) (hblank : r ≠ .blank)
    (h : r.next c = some s) : s ≠ .start ∧ s ≠ .blank := by
  cases r <;> grind [next, inQuotes]

theorem kind_ne_blank_of_longest {cs : List Char} {k : Kind} {n : Nat} (hstart : r ≠ .start)
    (hblank : r ≠ .blank) (h : r.longest cs = some (k, n)) : k ≠ .blank := by
  have haccepted : ∀ {r : Reading}, r ≠ .blank → r.accepted ≠ some .blank := by
    intro r hr
    cases r <;> simp_all [accepted]
  induction cs generalizing r n with
  | nil =>
    simp only [longest, Option.map_eq_some_iff, Prod.mk.injEq] at h
    obtain ⟨_, hk, rfl, -⟩ := h
    exact fun hkind => haccepted hblank (hkind ▸ hk)
  | cons c cs ih =>
    unfold longest at h
    split at h
    · rename_i k' n' hlongest
      obtain ⟨s, hs, hlongest⟩ := Option.bind_eq_some_iff.1 hlongest
      obtain ⟨rfl, -⟩ := Prod.mk.inj (Option.some.inj h)
      exact ih (next_ne_blank hstart hblank hs).1 (next_ne_blank hstart hblank hs).2 hlongest
    · obtain ⟨_, hk, hpair⟩ := Option.map_eq_some_iff.1 h
      obtain ⟨rfl, -⟩ := Prod.mk.inj hpair
      exact fun hkind => haccepted hblank (hkind ▸ hk)

theorem first_ne_blank {c : Char} (h : isBlank c = false) :
    first c ≠ some .start ∧ first c ≠ some .blank := by
  grind [first]

end Reading

section Complete

variable {c : Char} {text rest : List Char}

theorem kind_measure_ne_blank (h : isBlank c = false) (cs : List Char) :
    (measure (c :: cs)).1 ≠ .blank := by
  unfold measure
  split
  · rename_i k n hlongest
    unfold Reading.longest at hlongest
    split at hlongest
    · rename_i k' n' hrest
      obtain ⟨s, hs, hrest⟩ := Option.bind_eq_some_iff.1 hrest
      obtain ⟨rfl, -⟩ := Prod.mk.inj (Option.some.inj hlongest)
      have hfirst := Reading.first_ne_blank h
      refine Reading.kind_ne_blank_of_longest ?_ ?_ hrest
      · rintro rfl
        exact hfirst.1 hs
      · rintro rfl
        exact hfirst.2 hs
    · cases hlongest
  · exact Kind.noConfusion

theorem significant_cons (h : isBlank c = false) (cs : List Char) :
    significant (c :: cs) =
      ⟨(measure (c :: cs)).1, c :: cs.take (measure (c :: cs)).2⟩ ::
        significant (cs.drop (measure (c :: cs)).2) := by
  rw [significant, lexemes, List.filter_cons_of_pos (by simpa using kind_measure_ne_blank h cs)]
  rfl

/-- Behind a text whose lexemes stay as they are, the rest is read as if it stood alone. -/
theorem significant_append_of_isPrefix
    (h : significant text <+: significant (text ++ ' ' :: rest)) :
    significant (text ++ ' ' :: rest) = significant text ++ significant rest := by
  induction hlength : text.length using Nat.strong_induction_on generalizing text with
  | _ length ih =>
    cases text with
    | nil =>
      rw [List.nil_append, significant_of_isBlank (by decide)]
      simp [significant, lexemes]
    | cons c cs =>
      cases hc : isBlank c with
      | true =>
        rw [List.cons_append, significant_of_isBlank hc, significant_of_isBlank hc] at h ⊢
        exact ih cs.length (by simp [← hlength]) h rfl
      | false =>
        rw [List.cons_append, significant_cons hc, significant_cons hc,
          List.cons_prefix_cons] at h
        rw [List.cons_append, significant_cons hc, significant_cons hc, ← h.1]
        -- Both texts give up the same characters to the first lexeme.
        have htake := (List.cons.inj (Lexeme.mk.inj h.1).2).2
        have hdrop : (cs ++ ' ' :: rest).drop (measure (c :: (cs ++ ' ' :: rest))).2 =
            cs.drop (measure (c :: cs)).2 ++ ' ' :: rest := by
          rw [← List.append_cancel_left_eq
            ((cs ++ ' ' :: rest).take (measure (c :: (cs ++ ' ' :: rest))).2),
            List.take_append_drop, ← htake, ← List.append_assoc, List.take_append_drop]
        rw [hdrop] at h ⊢
        rw [List.cons_append, ih _ ?_ h.2 rfl]
        rw [← hlength, List.length_drop, List.length_cons]
        omega

end Complete

namespace Context

/-- What is known after some lexemes. -/
def afterAll (context : Context) (lexemes : List Lexeme) : Context :=
  lexemes.foldl after context

theorem declared_append (context : Context) (front back : List Lexeme) :
    context.declared (front ++ back) =
      context.declared front ++ (context.afterAll front).declared back := by
  induction front generalizing context with
  | nil => rfl
  | cons lexeme front ih =>
    rw [List.cons_append, declared, declared, ih, List.append_assoc]
    rfl

/-- A literal declares nothing and leaves only the braces. -/
theorem declared_literal (context : Context) (literal : List Char) (back : List Lexeme) :
    context.declared (⟨.literal, literal⟩ :: back) =
      declared ⟨context.depth, false, false⟩ back := by
  simp [declared, declared?, after]

end Context

theorem declaredTypes_ofList (text : List Char) :
    declaredTypes (String.ofList text) = Context.declared {} (significant text) := by
  rw [declaredTypes, String.toList_ofList]
  exact (Context.declared_filter (fun _ hl => Or.inl (by simpa using hl)) _ _).symm

/-- A literal behind a complete text parts the declarations before it from those after it, which
know of each other only how many braces are open. -/
theorem declaredTypes_of_literal {front rest after literal : List Char} (hfront : IsComplete front)
    (h : significant rest = ⟨.literal, literal⟩ :: significant after) :
    declaredTypes (String.ofList (front ++ ' ' :: rest)) =
      Context.declared {} (significant front) ++
        Context.declared ⟨(Context.afterAll {} (significant front)).depth, false, false⟩
          (significant after) := by
  rw [declaredTypes_ofList, significant_append_of_isPrefix (hfront rest), h,
    Context.declared_append, Context.declared_literal]

/-- Read after a literal, at whatever depth, the text and a space make no difference. -/
def IsInert (text : List Char) : Prop :=
  ∀ depth rest, Context.declared ⟨depth, false, false⟩ (significant (text ++ ' ' :: rest)) =
    Context.declared ⟨depth, false, false⟩ (significant rest)

theorem significant_emptyString (rest : List Char) :
    significant ('"' :: '"' :: ' ' :: rest) = ⟨.literal, ['"', '"']⟩ :: significant rest := by
  have hlexemes : lexemes (['"', '"'] ++ ' ' :: rest) =
      ⟨.literal, ['"', '"']⟩ :: lexemes (' ' :: rest) :=
    lexemes_append (s := .twoQuotes) rfl rfl (by simp [Reading.next])
  rw [← significant_of_isBlank (c := ' ') (by decide) rest]
  exact (congrArg (List.filter _) hlexemes).trans (List.filter_cons_of_pos (by simp))

section Braces

/-- Open braces, read one by one. -/
def openBraces (depth : Nat) : List Char :=
  List.replicate depth '\x7b'

theorem significant_openBraces (depth : Nat) (rest : List Char) :
    significant (openBraces depth ++ rest) =
      List.replicate depth ⟨.openBrace, ['\x7b']⟩ ++ significant rest := by
  induction depth with
  | zero => rfl
  | succ depth ih =>
    have hlexemes : lexemes (['\x7b'] ++ (openBraces depth ++ rest)) =
        ⟨.openBrace, ['\x7b']⟩ :: lexemes (openBraces depth ++ rest) :=
      lexemes_append (s := .openBrace) rfl rfl (fun _ _ => rfl)
    calc significant (openBraces (depth + 1) ++ rest)
        = (lexemes (['\x7b'] ++ (openBraces depth ++ rest))).filter
            fun lexeme => lexeme.kind ≠ .blank := rfl
      _ = ⟨.openBrace, ['\x7b']⟩ :: significant (openBraces depth ++ rest) := by
          rw [hlexemes, List.filter_cons_of_pos (by simp)]
          rfl
      _ = _ := by rw [ih, List.replicate_succ, List.cons_append]

theorem significant_openBraces_self (depth : Nat) :
    significant (openBraces depth) = List.replicate depth ⟨.openBrace, ['\x7b']⟩ := by
  have hbraces := significant_openBraces depth []
  rwa [List.append_nil, show significant [] = [] by simp [significant, lexemes],
    List.append_nil] at hbraces

theorem isComplete_openBraces (depth : Nat) : IsComplete (openBraces depth) := by
  intro rest
  rw [significant_openBraces, significant_openBraces_self]
  exact List.prefix_append _ _

theorem declared_openBraces (start depth : Nat) :
    Context.declared ⟨start, false, false⟩ (List.replicate depth ⟨.openBrace, ['\x7b']⟩) = [] ∧
      Context.afterAll ⟨start, false, false⟩ (List.replicate depth ⟨.openBrace, ['\x7b']⟩) =
        ⟨start + depth, false, false⟩ := by
  induction depth generalizing start with
  | zero => exact ⟨rfl, rfl⟩
  | succ depth ih =>
    obtain ⟨hdeclared, hafter⟩ := ih (start + 1)
    rw [List.replicate_succ]
    constructor
    · simp [Context.declared, Context.declared?, Context.after, hdeclared]
    · rw [← Nat.add_right_comm, Nat.add_assoc] at hafter
      exact hafter

end Braces

namespace BodyUnit

theorem eq_nil_or_of_isPrefix {body : List BodyUnit} {cs tail : List Char}
    (h : '"' :: cs <+: body.flatMap text ++ tail) :
    body = [] ∨ ∃ hquote rest, body = .plain '"' hquote :: rest ∧
      cs <+: rest.flatMap text ++ tail := by
  cases body with
  | nil => exact Or.inl rfl
  | cons unit rest =>
    cases unit with
    | escaped c => simp [text, List.cons_prefix_cons] at h
    | plain c hc =>
      rw [List.flatMap_cons, text, List.append_assoc, List.singleton_append,
        List.cons_prefix_cons] at h
      obtain ⟨rfl, h⟩ := h
      exact Or.inr ⟨hc, rest, rfl, h⟩

/-- Without escaped quotes three in a row come from three units in a row. -/
theorem not_isInfix_flatMap_text {body : List BodyUnit} (hescaped : .escaped '"' ∉ body)
    (hlast : ∀ unit ∈ body.getLast?, unit.isQuote = false)
    (hapart : ¬ [true, true, true] <:+: body.map isQuote) :
    ¬ threeQuotes <:+: body.flatMap text ++ ['"', '"'] := by
  induction body with
  | nil => decide
  | cons unit body ih =>
    have hrest : ¬ threeQuotes <:+: body.flatMap text ++ ['"', '"'] := by
      apply ih (List.not_mem_of_not_mem_cons hescaped)
      · intro last hmem
        exact hlast last (by simp [List.getLast?_cons, Option.mem_def.1 hmem])
      · rw [List.map_cons, List.infix_cons_iff, not_or] at hapart
        exact hapart.2
    cases unit with
    | escaped c =>
      have hc : c ≠ '"' := by
        rintro rfl
        exact hescaped List.mem_cons_self
      simpa [text, threeQuotes, List.infix_cons_iff, List.cons_prefix_cons, Ne.symm hc]
        using hrest
    | plain c hc =>
      rw [List.flatMap_cons, List.append_assoc, text, List.singleton_append,
        List.infix_cons_iff, not_or]
      refine ⟨?_, hrest⟩
      intro hquotes
      obtain ⟨rfl, hsecond⟩ := List.cons_prefix_cons.1 hquotes
      rcases eq_nil_or_of_isPrefix hsecond with rfl | ⟨_, body, rfl, hthird⟩
      · exact absurd (hlast _ rfl) (by simp [isQuote])
      · rcases eq_nil_or_of_isPrefix hthird with rfl | ⟨_, body, rfl, -⟩
        · exact absurd (hlast _ rfl) (by simp [isQuote])
        · exact hapart ⟨[], body.map isQuote, by simp [isQuote]⟩

end BodyUnit

namespace TextBlock

variable (block : TextBlock)

/-- Wherever the block stands, an empty string in its place declares the same. -/
def ContributesNothing : Prop :=
  ∀ front back : String, IsComplete front.toList →
    declaredTypes (front ++ " " ++ block.text ++ " " ++ back) =
      declaredTypes (front ++ " \"\" " ++ back)

/-- The block is a literal up to its first three quotes in a row. -/
theorem exists_significant_text (rest : List Char) :
    ∃ literal, significant (block.text.toList ++ rest) =
      ⟨.literal, literal⟩ :: significant (block.spill.toList ++ rest) := by
  have hclosed : threeQuotes <:+: block.inside :=
    ⟨block.lineEnd ++ block.body.flatMap BodyUnit.text, [], by simp [inside]⟩
  obtain ⟨parts, last, hparts⟩ := exists_parts_of_isInfix hclosed
  have hspill : block.spill.toList = last := by
    rw [spill, String.toList_ofList, hparts, afterQuotes_parts]
  have htext : block.text.toList ++ rest = (Element.textBlock parts).body ++ (last ++ rest) := by
    rw [text, String.toList_ofList, hparts]
    simp [Element.body, threeQuotes]
  refine ⟨(Element.textBlock parts).body, ?_⟩
  rw [htext, hspill, significant, Element.body,
    lexemes_append (Reading.read_textBlock parts) rfl fun _ _ => rfl,
    List.filter_cons_of_pos (by simp)]
  rfl

theorem declaredTypes_append {front : String} (hfront : IsComplete front.toList) (back : String) :
    declaredTypes (front ++ " " ++ block.text ++ " " ++ back) =
        Context.declared {} (significant front.toList) ++
          Context.declared ⟨(Context.afterAll {} (significant front.toList)).depth, false, false⟩
            (significant (block.spill.toList ++ ' ' :: back.toList)) := by
  obtain ⟨literal, hliteral⟩ := block.exists_significant_text (' ' :: back.toList)
  rw [← declaredTypes_of_literal hfront hliteral]
  congr 1
  rw [← String.toList_inj]
  simp

theorem declaredTypes_append_emptyString {front : String} (hfront : IsComplete front.toList)
    (back : String) : declaredTypes (front ++ " \"\" " ++ back) =
      Context.declared {} (significant front.toList) ++
        Context.declared ⟨(Context.afterAll {} (significant front.toList)).depth, false, false⟩
          (significant back.toList) := by
  rw [← declaredTypes_of_literal hfront (significant_emptyString back.toList)]
  congr 1
  rw [← String.toList_inj]
  simp

theorem contributesNothing_iff_isInert :
    block.ContributesNothing ↔ IsInert block.spill.toList := by
  constructor
  · intro h depth rest
    have hbraces := isComplete_openBraces depth
    have hfront : IsComplete (String.ofList (openBraces depth)).toList := by
      rwa [String.toList_ofList]
    have hsame := h _ (String.ofList rest) hfront
    rw [block.declaredTypes_append hfront, declaredTypes_append_emptyString hfront,
      String.toList_ofList, String.toList_ofList, List.append_cancel_left_eq,
      significant_openBraces_self, (declared_openBraces 0 depth).2, Nat.zero_add] at hsame
    exact hsame
  · intro h front back hfront
    rw [block.declaredTypes_append hfront, declaredTypes_append_emptyString hfront, h]

theorem spill_eq_empty_iff : block.spill = "" ↔ block.KeepsQuotesApart := by
  have hlineEnd : ∀ cs, afterQuotes (block.lineEnd ++ cs) = afterQuotes cs := by
    intro cs
    have hmem := block.lineEnd_mem
    simp only [List.mem_cons, List.not_mem_nil, or_false] at hmem
    rcases hmem with h | h | h <;> rw [h] <;>
      simp [afterQuotes, threeQuotes, List.cons_prefix_cons]
  rw [spill, String.ofList_eq_empty_iff, inside, hlineEnd]
  exact afterQuotes_append_threeQuotes_eq_nil_iff

/-- Only escaped quotes can spill, apart from a quote right before the closing ones. -/
theorem keepsQuotesApart_of_no_escaped_quote (hescaped : .escaped '"' ∉ block.body)
    (hlast : ∀ unit ∈ block.body.getLast?, unit.isQuote = false) : block.KeepsQuotesApart :=
  BodyUnit.not_isInfix_flatMap_text hescaped hlast block.quotes_apart

/-- A text block declares what its spill declares, read after an empty string. There is no spill
when no three quotes stand in a row before the last one of the block, and then an empty string can
take the place of the block anywhere. In general it can exactly when the spill makes no difference
at any depth. -/
theorem contributesNothing_iff :
    (∀ front back : String, IsComplete front.toList →
      declaredTypes (front ++ " " ++ block.text ++ " " ++ back) =
        declaredTypes (front ++ " \"\" " ++ (block.spill ++ " " ++ back))) ∧
    (block.spill = "" ↔ block.KeepsQuotesApart) ∧
    (block.KeepsQuotesApart → block.ContributesNothing) ∧
    (block.ContributesNothing ↔ IsInert block.spill.toList) := by
  refine ⟨?_, block.spill_eq_empty_iff, ?_, block.contributesNothing_iff_isInert⟩
  · intro front back hfront
    rw [block.declaredTypes_append hfront, declaredTypes_append_emptyString hfront]
    simp
  · intro h
    rw [contributesNothing_iff_isInert, block.spill_eq_empty_iff.2 h]
    intro depth rest
    rw [String.toList_empty, List.nil_append, significant_of_isBlank (by decide)]

/-- A quote at each end of the text; the first one is escaped, and a space follows the other. -/
def quotingBlock : TextBlock where
  lineEnd := ['\n']
  body := [.escaped '"', .plain 'c' (by decide), .plain '"' (by decide), .plain ' ' (by decide)]
  lineEnd_mem := by decide
  quotes_apart := by decide

theorem contributesNothing_quotingBlock :
    IsComplete "".toList ∧ quotingBlock.KeepsQuotesApart ∧ IsInert quotingBlock.spill.toList ∧
      declaredTypes ("" ++ " " ++ quotingBlock.text ++ " " ++ "class Foo") =
        declaredTypes ("" ++ " \"\" " ++ "class Foo") := by
  obtain ⟨-, -, hkeeps, hinert⟩ := contributesNothing_iff quotingBlock
  have hcomplete : IsComplete "".toList := isComplete_openBraces 0
  have hapart : quotingBlock.KeepsQuotesApart := by
    unfold KeepsQuotesApart
    decide
  have hnothing := hkeeps hapart
  exact ⟨hcomplete, hapart, hinert.1 hnothing, hnothing "" "class Foo" hcomplete⟩

/-- The text ends with an escaped quote, and the closing quotes stand right behind it. -/
def spillingBlock : TextBlock where
  lineEnd := ['\n']
  body := [.escaped '"']
  lineEnd_mem := by decide
  quotes_apart := by decide

/-- What is left of the block opens a string, and the class behind the block is lost in it. -/
theorem not_forall_contributesNothing : ¬ ∀ block : TextBlock, block.ContributesNothing := by
  intro h
  have hsame := h spillingBlock "" "class Foo" (isComplete_openBraces 0)
  exact absurd hsame (by decide +kernel)

end TextBlock

end ClasspathLookup.Declaration
