import ClasspathLookup.Text.GeneralCategory

/-!
# Lexemes of source text

Source text is cut into blanks, comments, literals, words, braces and dots; numbers, operators and
whatever else there is count as unknown. All lexical classes are read by one automaton at once. The
longest text that some class accepts is the next lexeme. Where no class accepts, an unknown lexeme
takes the characters up to the one at which the last class was given up, and at least one.
-/

namespace ClasspathLookup.Declaration

inductive Kind where
  | blank
  | comment
  | literal
  | word
  | openBrace
  | closeBrace
  | dot
  | unknown
deriving DecidableEq, Repr

structure Lexeme where
  kind : Kind
  text : List Char
deriving DecidableEq, Repr

/-- How much of a lexeme has been read. -/
inductive Reading where
  | start
  | blank
  | slash
  | lineComment
  | blockComment
  | blockCommentStars
  | commentEnd
  | quote
  | twoQuotes
  | string
  | stringEscape
  | textBlock
  | textBlockQuote
  | textBlockTwoQuotes
  | character
  | characterEscape
  | literalEnd
  | word
  | openBrace
  | closeBrace
  | dot
deriving DecidableEq, Repr

def isBlank (c : Char) : Bool :=
  c = ' ' || c = '\t' || c = '\r' || c = '\n' || c = '\x0c'

def isWordStart (c : Char) : Bool :=
  Text.isLetter c || c = '_' || c = '$'

def isWordPart (c : Char) : Bool :=
  isWordStart c || Text.isNumber c

namespace Reading

def first (c : Char) : Option Reading :=
  if isBlank c then some blank
  else if c = '/' then some slash
  else if c = '"' then some quote
  else if c = '\'' then some character
  else if c = '{' then some openBrace
  else if c = '}' then some closeBrace
  else if c = '.' then some dot
  else if isWordStart c then some word
  else none

/-- Inside a string or character literal; a line end is not part of either. -/
def inQuotes (closing : Char) (body escape : Reading) (c : Char) : Option Reading :=
  if c = closing then some literalEnd
  else if c = '\\' then some escape
  else if c = '\n' then none
  else some body

/-- The reading after one more character, if some class is still possible. -/
def next : Reading → Char → Option Reading
  | start, c => first c
  | blank, c => if isBlank c then some blank else none
  | slash, c =>
    if c = '/' then some lineComment else if c = '*' then some blockComment else none
  | lineComment, c => if c = '\n' then none else some lineComment
  | blockComment, c => some (if c = '*' then blockCommentStars else blockComment)
  | blockCommentStars, c =>
    some (if c = '*' then blockCommentStars else if c = '/' then commentEnd else blockComment)
  | quote, c => if c = '"' then some twoQuotes else inQuotes '"' string stringEscape c
  | twoQuotes, c => if c = '"' then some textBlock else none
  | string, c => inQuotes '"' string stringEscape c
  | stringEscape, c => if c = '\n' then none else some string
  | textBlock, c => some (if c = '"' then textBlockQuote else textBlock)
  | textBlockQuote, c => some (if c = '"' then textBlockTwoQuotes else textBlock)
  | textBlockTwoQuotes, c => some (if c = '"' then literalEnd else textBlock)
  | character, c => inQuotes '\'' character characterEscape c
  | characterEscape, c => if c = '\n' then none else some character
  | word, c => if isWordPart c then some word else none
  | commentEnd, _ | literalEnd, _ | openBrace, _ | closeBrace, _ | dot, _ => none

/-- The class of what has been read, if it is complete. -/
def accepted : Reading → Option Kind
  | blank => some .blank
  | lineComment | commentEnd => some .comment
  | twoQuotes | literalEnd => some .literal
  | word => some .word
  | openBrace => some .openBrace
  | closeBrace => some .closeBrace
  | dot => some .dot
  | start | slash | blockComment | blockCommentStars | quote | string | stringEscape | textBlock
  | textBlockQuote | textBlockTwoQuotes | character | characterEscape => none

/-- The class and length of the longest accepted continuation. -/
def longest (r : Reading) : List Char → Option (Kind × Nat)
  | [] => r.accepted.map fun k => (k, 0)
  | c :: cs =>
    match (r.next c).bind fun s => s.longest cs with
    | some (k, n) => some (k, n + 1)
    | none => r.accepted.map fun k => (k, 0)

/-- How many characters are read before every class is given up. -/
def reach (r : Reading) : List Char → Nat
  | [] => 0
  | c :: cs =>
    match r.next c with
    | some s => s.reach cs + 1
    | none => 0

end Reading

/-- The kind of the first lexeme, and how many characters it takes after its first one. -/
def measure (cs : List Char) : Kind × Nat :=
  match Reading.start.longest cs with
  | some (k, n) => (k, n - 1)
  | none => (.unknown, Reading.start.reach cs - 1)

def lexemes : List Char → List Lexeme
  | [] => []
  | c :: cs =>
    let m := measure (c :: cs)
    ⟨m.1, c :: cs.take m.2⟩ :: lexemes (cs.drop m.2)
termination_by cs => cs.length
decreasing_by
  simp only [List.length_drop, List.length_cons]
  omega

/-- Nothing of the text is lost. -/
theorem flatMap_text_lexemes (cs : List Char) : (lexemes cs).flatMap Lexeme.text = cs := by
  fun_induction lexemes cs with
  | case1 => rfl
  | case2 c cs m ih => simp [ih]

end ClasspathLookup.Declaration
