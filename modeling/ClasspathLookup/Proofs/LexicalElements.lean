import ClasspathLookup.Declaration.TopLevel
import Mathlib.Data.List.Infix
import Mathlib.Data.List.TakeWhile

/-!
# Rendered lexical elements

Source text is written here from elements whose shape is fixed: comments, literals, keywords,
identifiers, braces, dots and single characters that start nothing. However long an element is and
whatever its body holds, it is read back as one lexeme, because the characters lead the automaton to
an accepting state that a blank cannot leave.
-/

namespace ClasspathLookup.Declaration

/-- One unit in the body of a string or character literal. -/
inductive QuotedPart (quote : Char) where
  | plain (c : Char) (h : c ≠ quote ∧ c ≠ '\\' ∧ c ≠ '\n')
  | escaped (c : Char) (h : c ≠ '\n')

def QuotedPart.text {quote : Char} : QuotedPart quote → List Char
  | .plain c _ => [c]
  | .escaped c _ => ['\\', c]

/-- One unit in the body of a text block. Quotes come at most in pairs. -/
inductive BlockPart where
  | plain (c : Char) (h : c ≠ '"')
  | oneQuote (c : Char) (h : c ≠ '"')
  | twoQuotes (c : Char) (h : c ≠ '"')

def BlockPart.text : BlockPart → List Char
  | .plain c _ => [c]
  | .oneQuote c _ => ['"', c]
  | .twoQuotes c _ => ['"', '"', c]

def isWord : List Char → Bool
  | [] => false
  | c :: cs => isWordStart c && cs.all isWordPart

/-- No blank, and nothing that a comment, a literal, a word, a brace or a dot begins with. -/
structure StartsNothing (c : Char) : Prop where
  notBlank : isBlank c = false
  notWord : isWordStart c = false
  notMark : c ∉ ['/', '"', '\'', '{', '}', '.']

inductive Element where
  | lineComment (body : List Char) (h : '\n' ∉ body)
  | blockComment (body : List Char) (h : ¬ ['*', '/'] <:+: body)
  | string (body : List (QuotedPart '"'))
  | character (body : List (QuotedPart '\''))
  | textBlock (body : List BlockPart)
  | keyword (word : List Char) (h : isKeyword word = true)
  | identifier (word : List Char) (h : isWord word = true) (hfree : isKeyword word = false)
  | openBrace
  | closeBrace
  | dot
  | other (c : Char) (h : StartsNothing c)

namespace Element

/-- The characters of an element itself. -/
def body : Element → List Char
  | .lineComment body _ => '/' :: '/' :: body
  | .blockComment body _ => '/' :: '*' :: (body ++ ['*', '/'])
  | .string body => '"' :: (body.flatMap QuotedPart.text ++ ['"'])
  | .character body => '\'' :: (body.flatMap QuotedPart.text ++ ['\''])
  | .textBlock body => '"' :: '"' :: '"' :: (body.flatMap BlockPart.text ++ ['"', '"', '"'])
  | .keyword word _ => word
  | .identifier word _ _ => word
  | .openBrace => ['\x7b']
  | .closeBrace => ['\x7d']
  | .dot => ['.']
  | .other c _ => [c]

/-- A line comment goes to the end of its line. -/
def lineEnd : Element → List Char
  | .lineComment _ _ => ['\n']
  | _ => []

def text (e : Element) : List Char :=
  e.body ++ e.lineEnd

def kind : Element → Kind
  | .lineComment _ _ | .blockComment _ _ => .comment
  | .string _ | .character _ | .textBlock _ => .literal
  | .keyword _ _ | .identifier _ _ _ => .word
  | .openBrace => .openBrace
  | .closeBrace => .closeBrace
  | .dot => .dot
  | .other _ _ => .unknown

def lexeme (e : Element) : Lexeme :=
  ⟨e.kind, e.body⟩

end Element

/-- The text holds the elements in order, with at least one blank between any two of them. -/
inductive Renders : List Element → List Char → Prop
  | nil : Renders [] []
  | blank {elements : List Element} {text : List Char} (c : Char) (hc : isBlank c = true)
      (h : Renders elements text) : Renders elements (c :: text)
  | element {elements : List Element} {text : List Char} (e : Element)
      (hgap : ∀ c ∈ text.head?, isBlank c = true) (h : Renders elements text) :
      Renders (e :: elements) (e.text ++ text)

/-- Every element with one space after it. -/
def spaced (elements : List Element) : List Char :=
  elements.flatMap fun e => e.text ++ [' ']

theorem renders_spaced (elements : List Element) : Renders elements (spaced elements) := by
  induction elements with
  | nil => exact .nil
  | cons e elements ih =>
    rw [spaced, List.flatMap_cons, List.append_assoc]
    exact .element e (by simp [isBlank]) (.blank ' ' (by decide) ih)

theorem isBlank_iff {c : Char} :
    isBlank c = true ↔ c ∈ [' ', '\t', '\r', '\n', '\x0c'] := by
  simp [isBlank, or_assoc]

theorem isWordPart_of_isBlank {c : Char} (h : isBlank c = true) : isWordPart c = false := by
  have hall : [' ', '\t', '\r', '\n', '\x0c'].all (fun d => !isWordPart d) = true := by decide
  simpa using List.all_eq_true.1 hall c (isBlank_iff.1 h)

theorem isWord_of_isKeyword {word : List Char} (h : isKeyword word = true) :
    isWord word = true := by
  have hall : ∀ k ∈ keywords, isWord k.toList = true := by decide
  have hword := hall (String.ofList word) (by simpa [isKeyword] using h)
  rwa [String.toList_ofList] at hword

namespace Reading

/-- The reading after some more characters, if some class is possible all along. -/
def read (r : Reading) (cs : List Char) : Option Reading :=
  cs.foldlM next r

@[simp] theorem read_nil (r : Reading) : r.read [] = some r := rfl

@[simp] theorem read_cons (r : Reading) (c : Char) (cs : List Char) :
    r.read (c :: cs) = (r.next c).bind fun s => s.read cs := by
  simp [read]

theorem read_append {r s : Reading} {cs : List Char} (h : r.read cs = some s) (ds : List Char) :
    r.read (cs ++ ds) = s.read ds := by
  unfold read at h ⊢
  rw [List.foldlM_append, h]
  rfl

/-- An accepting state that the next character cannot leave ends the longest lexeme. -/
theorem longest_append {r s : Reading} {cs rest : List Char} {k : Kind} (h : r.read cs = some s)
    (hk : s.accepted = some k) (hstop : ∀ c ∈ rest.head?, s.next c = none) :
    r.longest (cs ++ rest) = some (k, cs.length) := by
  induction cs generalizing r with
  | nil =>
    rw [read_nil, Option.some.injEq] at h
    subst h
    cases rest with
    | nil => simp [longest, hk]
    | cons c rest => simp [longest, hk, hstop c rfl]
  | cons c cs ih =>
    rw [read_cons, Option.bind_eq_some_iff] at h
    obtain ⟨t, ht, h⟩ := h
    simp [longest, ht, ih h]

theorem read_of_next {r : Reading} {cs : List Char} (h : ∀ c ∈ cs, r.next c = some r) :
    r.read cs = some r := by
  induction cs with
  | nil => rfl
  | cons c cs ih =>
    rw [read_cons, h c List.mem_cons_self]
    exact ih fun d hd => h d (List.mem_cons_of_mem c hd)

theorem read_flatMap {α : Type} {r : Reading} {f : α → List Char}
    (h : ∀ part, r.read (f part) = some r) (parts : List α) :
    r.read (parts.flatMap f) = some r := by
  induction parts with
  | nil => rfl
  | cons part parts ih => rw [List.flatMap_cons, read_append (h part), ih]

theorem read_lineComment {body : List Char} (h : '\n' ∉ body) :
    start.read ('/' :: '/' :: body) = some lineComment := by
  have hbody : lineComment.read body = some lineComment := by
    apply read_of_next
    intro c hc
    have hne : c ≠ '\n' := ne_of_mem_of_not_mem hc h
    simp [next, hne]
  calc start.read (['/', '/'] ++ body)
      = lineComment.read body := read_append rfl body
    _ = some lineComment := hbody

/-- Only the end of the comment ends it; right after a star the body must not go on with a slash. -/
theorem read_commentBody {body : List Char} (h : ¬ ['*', '/'] <:+: body) :
    blockComment.read (body ++ ['*', '/']) = some commentEnd ∧
      (body.head? ≠ some '/' → blockCommentStars.read (body ++ ['*', '/']) = some commentEnd) := by
  induction body with
  | nil => exact ⟨rfl, fun _ => rfl⟩
  | cons c body ih =>
    obtain ⟨hplain, hstars⟩ := ih fun hinfix => h (List.infix_cons hinfix)
    by_cases hc : c = '*'
    · subst hc
      have hnext : body.head? ≠ some '/' := by
        intro hslash
        obtain ⟨rest, rfl⟩ := List.head?_eq_some_iff.1 hslash
        exact h ⟨[], rest, rfl⟩
      exact ⟨by simpa [next] using hstars hnext, fun _ => by simpa [next] using hstars hnext⟩
    · constructor
      · simpa [next, hc] using hplain
      · intro hslash
        rw [List.head?_cons, ne_eq, Option.some.injEq] at hslash
        simpa [next, hc, hslash] using hplain

theorem read_blockComment {body : List Char} (h : ¬ ['*', '/'] <:+: body) :
    start.read ('/' :: '*' :: (body ++ ['*', '/'])) = some commentEnd := by
  calc start.read (['/', '*'] ++ (body ++ ['*', '/']))
      = blockComment.read (body ++ ['*', '/']) := read_append rfl _
    _ = some commentEnd := (read_commentBody h).1

theorem read_quoted {quote : Char} {r escape : Reading}
    (hnext : ∀ c, r.next c = inQuotes quote r escape c)
    (hescape : ∀ c, c ≠ '\n' → escape.next c = some r) (hquote : quote ≠ '\\')
    (body : List (QuotedPart quote)) :
    r.read (body.flatMap QuotedPart.text ++ [quote]) = some literalEnd := by
  have hpart : ∀ part : QuotedPart quote, r.read part.text = some r := by
    intro part
    cases part with
    | plain c h => simp [QuotedPart.text, hnext, inQuotes, h]
    | escaped c h => simp [QuotedPart.text, hnext, inQuotes, Ne.symm hquote, hescape c h]
  rw [read_append (read_flatMap hpart body)]
  simp [hnext, inQuotes]

/-- The first part of a body keeps a literal from being the empty one. -/
theorem read_string (part : QuotedPart '"') (body : List (QuotedPart '"')) :
    start.read ('"' :: ((part :: body).flatMap QuotedPart.text ++ ['"'])) = some literalEnd := by
  have hpart : start.read ('"' :: part.text) = some string := by
    cases part with
    | plain c h => simp [QuotedPart.text, next, first, isBlank, inQuotes, h]
    | escaped c h => simp [QuotedPart.text, next, first, isBlank, inQuotes, h]
  rw [List.flatMap_cons, List.append_assoc, ← List.cons_append, read_append hpart]
  exact read_quoted (fun _ => rfl) (fun _ h => by simp [next, h]) (by decide) body

theorem read_character (body : List (QuotedPart '\'')) :
    start.read ('\'' :: (body.flatMap QuotedPart.text ++ ['\''])) = some literalEnd := by
  rw [← List.singleton_append, read_append (s := character) rfl]
  exact read_quoted (fun _ => rfl) (fun _ h => by simp [next, h]) (by decide) body

theorem read_textBlock (body : List BlockPart) :
    start.read ('"' :: '"' :: '"' :: (body.flatMap BlockPart.text ++ ['"', '"', '"'])) =
      some literalEnd := by
  have hpart : ∀ part : BlockPart, textBlock.read part.text = some textBlock := by
    intro part
    cases part with
    | plain c h => simp [BlockPart.text, next, h]
    | oneQuote c h => simp [BlockPart.text, next, h]
    | twoQuotes c h => simp [BlockPart.text, next, h]
  calc start.read (['"', '"', '"'] ++ (body.flatMap BlockPart.text ++ ['"', '"', '"']))
      = textBlock.read (body.flatMap BlockPart.text ++ ['"', '"', '"']) := read_append rfl _
    _ = textBlock.read ['"', '"', '"'] := read_append (read_flatMap hpart body) _

theorem first_of_isWordStart {c : Char} (h : isWordStart c = true) : first c = some word := by
  have hall : [' ', '\t', '\r', '\n', '\x0c', '/', '"', '\'', '\x7b', '\x7d', '.'].all
      (fun d => !isWordStart d) = true := by decide
  have hne : ∀ d ∈ [' ', '\t', '\r', '\n', '\x0c', '/', '"', '\'', '\x7b', '\x7d', '.'], c ≠ d := by
    rintro d hd rfl
    simpa [h] using List.all_eq_true.1 hall c hd
  simp only [List.forall_mem_cons] at hne
  simp [first, isBlank, h, hne]

theorem first_of_startsNothing {c : Char} (h : StartsNothing c) : first c = none := by
  have hmark := h.notMark
  simp only [List.mem_cons, not_or] at hmark
  simp [first, h.notBlank, h.notWord, hmark]

theorem read_isWord {cs : List Char} (h : isWord cs = true) : start.read cs = some word := by
  cases cs with
  | nil => cases h
  | cons c cs =>
    simp only [isWord, Bool.and_eq_true, List.all_eq_true] at h
    have hrest : word.read cs = some word := read_of_next fun d hd => by simp [next, h.2 d hd]
    simp [next, first_of_isWordStart h.1, hrest]

theorem read_blank {c : Char} {cs : List Char} (h : ∀ d ∈ c :: cs, isBlank d = true) :
    start.read (c :: cs) = some blank := by
  have hrest : blank.read cs = some blank :=
    read_of_next fun d hd => by simp [next, h d (List.mem_cons_of_mem c hd)]
  simp [next, first, h c List.mem_cons_self, hrest]

theorem next_of_isBlank {c : Char} (h : isBlank c = true) :
    twoQuotes.next c = none ∧ word.next c = none := by
  constructor
  · have hc : c ≠ '"' := by
      rintro rfl
      cases h
    simp [next, hc]
  · simp [next, isWordPart_of_isBlank h]

end Reading

/-- An element is read to a state that accepts its kind and that nothing after the element can
leave. -/
theorem Element.exists_read (e : Element) (hknown : e.kind ≠ .unknown) :
    ∃ s, Reading.start.read e.body = some s ∧ s.accepted = some e.kind ∧
      ∀ rest : List Char, (∀ c ∈ rest.head?, isBlank c = true) →
        ∀ c ∈ (e.lineEnd ++ rest).head?, s.next c = none := by
  cases e with
  | lineComment body h =>
    refine ⟨.lineComment, Reading.read_lineComment h, rfl, ?_⟩
    simp [lineEnd, Reading.next]
  | blockComment body h =>
    exact ⟨.commentEnd, Reading.read_blockComment h, rfl, fun _ _ _ _ => rfl⟩
  | string body =>
    cases body with
    | nil =>
      refine ⟨.twoQuotes, rfl, rfl, ?_⟩
      exact fun _ hblank c hc => (Reading.next_of_isBlank (hblank c hc)).1
    | cons part body =>
      exact ⟨.literalEnd, Reading.read_string part body, rfl, fun _ _ _ _ => rfl⟩
  | character body =>
    exact ⟨.literalEnd, Reading.read_character body, rfl, fun _ _ _ _ => rfl⟩
  | textBlock body =>
    exact ⟨.literalEnd, Reading.read_textBlock body, rfl, fun _ _ _ _ => rfl⟩
  | keyword word h =>
    refine ⟨.word, Reading.read_isWord (isWord_of_isKeyword h), rfl, ?_⟩
    exact fun _ hblank c hc => (Reading.next_of_isBlank (hblank c hc)).2
  | identifier word h hfree =>
    refine ⟨.word, Reading.read_isWord h, rfl, ?_⟩
    exact fun _ hblank c hc => (Reading.next_of_isBlank (hblank c hc)).2
  | openBrace => exact ⟨.openBrace, rfl, rfl, fun _ _ _ _ => rfl⟩
  | closeBrace => exact ⟨.closeBrace, rfl, rfl, fun _ _ _ _ => rfl⟩
  | dot => exact ⟨.dot, rfl, rfl, fun _ _ _ _ => rfl⟩
  | other c h => exact absurd rfl hknown

/-- A text that is read to an accepting state, with nothing after it that could be read on, is the
first lexeme. -/
theorem lexemes_append {c : Char} {cs rest : List Char} {s : Reading} {k : Kind}
    (h : Reading.start.read (c :: cs) = some s) (hk : s.accepted = some k)
    (hstop : ∀ d ∈ rest.head?, s.next d = none) :
    lexemes (c :: cs ++ rest) = ⟨k, c :: cs⟩ :: lexemes rest := by
  have hmeasure : measure (c :: cs ++ rest) = (k, cs.length) := by
    rw [measure, Reading.longest_append h hk hstop]
    rfl
  rw [List.cons_append] at hmeasure ⊢
  rw [lexemes, hmeasure]
  simp

theorem lexemes_of_startsNothing {c : Char} (h : StartsNothing c) (rest : List Char) :
    lexemes (c :: rest) = ⟨.unknown, [c]⟩ :: lexemes rest := by
  have hfirst : Reading.start.next c = none := Reading.first_of_startsNothing h
  rw [lexemes]
  simp [measure, Reading.longest, Reading.reach, hfirst, Reading.accepted]

theorem Element.body_ne_nil (e : Element) : e.body ≠ [] := by
  cases e with
  | keyword word h =>
    rintro rfl
    exact absurd h (by decide)
  | identifier word h hfree =>
    rintro rfl
    cases h
  | _ => simp [Element.body]

theorem Element.lexemes_body (e : Element) {rest : List Char}
    (hgap : ∀ c ∈ rest.head?, isBlank c = true) :
    lexemes (e.body ++ (e.lineEnd ++ rest)) = e.lexeme :: lexemes (e.lineEnd ++ rest) := by
  by_cases hknown : e.kind = .unknown
  · cases e with
    | other c h => exact lexemes_of_startsNothing h rest
    | _ => cases hknown
  · obtain ⟨s, hread, hk, hstop⟩ := e.exists_read hknown
    obtain ⟨c, cs, hbody⟩ := List.exists_cons_of_ne_nil e.body_ne_nil
    rw [lexeme, hbody]
    exact lexemes_append (hbody ▸ hread) hk (hstop rest hgap)

/-- The lexemes that are not blank. -/
def significant (cs : List Char) : List Lexeme :=
  (lexemes cs).filter fun lexeme => lexeme.kind ≠ .blank

theorem significant_dropWhile (cs : List Char) :
    significant (cs.dropWhile isBlank) = significant cs := by
  cases htake : cs.takeWhile isBlank with
  | nil =>
    have hdrop := List.takeWhile_append_dropWhile (p := isBlank) (l := cs)
    rw [htake, List.nil_append] at hdrop
    rw [hdrop]
  | cons c blanks =>
    have hblank : ∀ d ∈ c :: blanks, isBlank d = true := by
      intro d hd
      rw [← htake] at hd
      exact List.mem_takeWhile_imp hd
    have hstop : ∀ d ∈ (cs.dropWhile isBlank).head?, Reading.blank.next d = none := by
      intro d hd
      have hnot := List.head?_dropWhile_not isBlank cs
      rw [Option.mem_def.1 hd] at hnot
      simp [Reading.next, hnot]
    calc significant (cs.dropWhile isBlank)
        = significant (c :: blanks ++ cs.dropWhile isBlank) := by
          rw [significant, significant, lexemes_append (Reading.read_blank hblank) rfl hstop]
          rfl
      _ = significant cs := by rw [← htake, List.takeWhile_append_dropWhile]

theorem significant_of_isBlank {c : Char} (h : isBlank c = true) (cs : List Char) :
    significant (c :: cs) = significant cs := by
  rw [← significant_dropWhile, List.dropWhile_cons_of_pos h, significant_dropWhile]

theorem Element.significant_text (e : Element) {rest : List Char}
    (hgap : ∀ c ∈ rest.head?, isBlank c = true) :
    significant (e.text ++ rest) = e.lexeme :: significant rest := by
  have hend : significant (e.lineEnd ++ rest) = significant rest := by
    cases e with
    | lineComment body h => exact significant_of_isBlank rfl rest
    | _ => rfl
  have hkind : e.lexeme.kind ≠ .blank := by cases e <;> exact Kind.noConfusion
  rw [text, List.append_assoc, significant, e.lexemes_body hgap,
    List.filter_cons_of_pos (by simpa using hkind), ← significant, hend]

/-- Every element is one lexeme, whatever stands in it and however wide the gaps are. -/
theorem significant_of_renders {elements : List Element} {text : List Char}
    (h : Renders elements text) : significant text = elements.map Element.lexeme := by
  induction h with
  | nil => simp [significant, lexemes]
  | blank c hc h ih => rw [significant_of_isBlank hc, ih]
  | element e hgap h ih => rw [e.significant_text hgap, ih, List.map_cons]

end ClasspathLookup.Declaration
