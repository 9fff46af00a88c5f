import ClasspathLookup.Proofs.LexicalElements

/-!
# The names that elements declare

Which identifiers are declared at top level is a matter of the elements: every place is judged by
all that stands before it. The scan of a text keeps three facts about what it has read instead, and
they are the ones that decide.
-/

namespace ClasspathLookup.Declaration

def Element.isComment : Element → Bool
  | .lineComment _ _ | .blockComment _ _ => true
  | _ => false

/-- How many braces are open after some elements, the nearest first. A closing brace closes nothing
where none is open. -/
def depthAfter : List Element → Nat
  | [] => 0
  | .openBrace :: earlier => depthAfter earlier + 1
  | .closeBrace :: earlier => depthAfter earlier - 1
  | _ :: earlier => depthAfter earlier

def endsWithDot : List Element → Bool
  | .dot :: _ => true
  | _ => false

/-- The nearest element is a keyword outside all braces, and no dot stands right before it. -/
def awaitsName : List Element → Bool
  | .keyword _ _ :: earlier => depthAfter earlier = 0 && !endsWithDot earlier
  | _ => false

/-- The name that an element declares where it stands. -/
def Element.nameAfter? (e : Element) (before : List Element) : Option String :=
  match e with
  | .identifier word _ _ => if awaitsName before then some (String.ofList word) else none
  | _ => none

/-- Comments aside, the names declared at each place. -/
def topLevelNames (elements : List Element) : List String :=
  let code := elements.filter fun e => !e.isComment
  code.zipIdx.filterMap fun p => p.1.nameAfter? (code.take p.2).reverse

namespace Context

/-- What a scan holds after some elements, the nearest first. -/
def ofElements (before : List Element) : Context :=
  ⟨depthAfter before, endsWithDot before, awaitsName before⟩

theorem after_lexeme (before : List Element) {e : Element} (h : e.isComment = false) :
    (ofElements before).after e.lexeme = ofElements (e :: before) := by
  cases e with
  | lineComment body h' => cases h
  | blockComment body h' => cases h
  | keyword word hword =>
    change Context.mk _ _ (isKeyword word && depthAfter before = 0 && !endsWithDot before) = _
    rw [hword, Bool.true_and]
    rfl
  | identifier word hword hfree =>
    change Context.mk _ _ (isKeyword word && depthAfter before = 0 && !endsWithDot before) = _
    rw [hfree, Bool.false_and, Bool.false_and]
    rfl
  | _ => rfl

theorem declared?_lexeme (before : List Element) (e : Element) :
    (ofElements before).declared? e.lexeme = e.nameAfter? before := by
  cases e with
  | keyword word hword =>
    simp [declared?, Element.lexeme, Element.body, Element.nameAfter?, hword]
  | identifier word hword hfree =>
    simp [declared?, ofElements, Element.lexeme, Element.kind, Element.body, Element.nameAfter?,
      hfree]
  | _ => simp [declared?, Element.lexeme, Element.kind, Element.nameAfter?]

/-- Lexemes that change nothing and declare nothing can be left out. -/
theorem declared_filter {keep : Lexeme → Bool}
    (hkeep : ∀ lexeme, keep lexeme = false → lexeme.kind = .blank ∨ lexeme.kind = .comment)
    (context : Context) (lexemes : List Lexeme) :
    context.declared (lexemes.filter keep) = context.declared lexemes := by
  induction lexemes generalizing context with
  | nil => rfl
  | cons lexeme lexemes ih =>
    cases hl : keep lexeme with
    | true =>
      rw [List.filter_cons_of_pos hl, declared, declared, ih]
    | false =>
      have hafter : context.after lexeme = context := by
        rcases hkeep lexeme hl with h | h <;> simp [after, h]
      have hnone : context.declared? lexeme = none := by
        rcases hkeep lexeme hl with h | h <;> simp [declared?, h]
      rw [List.filter_cons_of_neg (by simp [hl]), declared, hafter, hnone, ih]
      rfl

/-- The scan of what follows some elements, by the place of each element in the whole. -/
theorem declared_map_lexeme (before rest : List Element)
    (hrest : ∀ e ∈ rest, e.isComment = false) :
    (ofElements before).declared (rest.map Element.lexeme) =
      (rest.zipIdx before.length).filterMap fun p =>
        p.1.nameAfter? ((before.reverse ++ rest).take p.2).reverse := by
  induction rest generalizing before with
  | nil => rfl
  | cons e rest ih =>
    have hbefore : ((before.reverse ++ e :: rest).take before.length).reverse = before := by
      rw [List.take_left' List.length_reverse, List.reverse_reverse]
    have hsplit : before.reverse ++ e :: rest = (e :: before).reverse ++ rest := by simp
    rw [List.map_cons, declared, declared?_lexeme, after_lexeme before (hrest e List.mem_cons_self),
      ih (e :: before) fun d hd => hrest d (List.mem_cons_of_mem e hd), List.zipIdx_cons,
      List.filterMap_cons, hbefore, ← hsplit]
    cases e.nameAfter? before <;> rfl

end Context

theorem Element.isComment_eq (e : Element) : e.isComment = decide (e.lexeme.kind = .comment) := by
  cases e <;> rfl

/-- Whatever the comments and literals of a text hold and however its elements are spaced, the types
it declares are those that its elements declare. -/
theorem declaredTypes_of_renders {elements : List Element} {text : List Char}
    (h : Renders elements text) : declaredTypes (String.ofList text) = topLevelNames elements := by
  let keepCode (lexeme : Lexeme) : Bool := !decide (lexeme.kind = .comment)
  have hcode : (elements.map Element.lexeme).filter keepCode =
      (elements.filter fun e => !e.isComment).map Element.lexeme := by
    rw [List.filter_map]
    simp only [Element.isComment_eq]
    rfl
  calc declaredTypes (String.ofList text)
      = Context.declared {} (lexemes text) := by rw [declaredTypes, String.toList_ofList]
    _ = Context.declared {} (significant text) :=
        (Context.declared_filter (fun _ hl => Or.inl (by simpa using hl)) _ _).symm
    _ = Context.declared {} (elements.map Element.lexeme) := by rw [significant_of_renders h]
    _ = Context.declared {} ((elements.filter fun e => !e.isComment).map Element.lexeme) := by
        rw [← hcode, Context.declared_filter]
        exact fun _ hl => Or.inr (by simpa [keepCode] using hl)
    _ = topLevelNames elements := by
        apply Context.declared_map_lexeme [] (elements.filter fun e => !e.isComment)
        intro e he
        simpa using (List.mem_filter.1 he).2

/-- A keyword stands before five names; one is in a comment, one in braces and one after a class
literal. -/
def outerSource : String :=
  "// class Note\n class Outer \x7b class Inner \x7d \"class\" Outer . class Last enum /* */ Color "

theorem declaredTypes_outerSource :
    ∃ elements, Renders elements outerSource.toList ∧
      declaredTypes outerSource = topLevelNames elements ∧
      topLevelNames elements = ["Outer", "Color"] := by
  let quoted : List (QuotedPart '"') :=
    [.plain 'c' (by decide), .plain 'l' (by decide), .plain 'a' (by decide), .plain 's' (by decide),
      .plain 's' (by decide)]
  let elements : List Element :=
    [.lineComment " class Note".toList (by decide +kernel),
      .keyword "class".toList (by decide +kernel),
      .identifier "Outer".toList (by decide +kernel) (by decide +kernel),
      .openBrace,
      .keyword "class".toList (by decide +kernel),
      .identifier "Inner".toList (by decide +kernel) (by decide +kernel),
      .closeBrace,
      .string quoted,
      .identifier "Outer".toList (by decide +kernel) (by decide +kernel),
      .dot,
      .keyword "class".toList (by decide +kernel),
      .identifier "Last".toList (by decide +kernel) (by decide +kernel),
      .keyword "enum".toList (by decide +kernel),
      .blockComment [' '] (by decide),
      .identifier "Color".toList (by decide +kernel) (by decide +kernel)]
  have htext : spaced elements = outerSource.toList := by decide +kernel
  have hrenders : Renders elements outerSource.toList := htext ▸ renders_spaced elements
  refine ⟨elements, hrenders, ?_, by decide +kernel⟩
  rw [← declaredTypes_of_renders hrenders, String.ofList_toList]

end ClasspathLookup.Declaration
