import ClasspathLookup.Declaration.Lexeme

/-!
# Types declared at top level

A type is declared where a word follows `class`, `interface`, `enum` or `record` outside all braces.
After a dot such a keyword is the literal `Foo.class` and declares nothing. Comments and blanks may
stand anywhere; everything else between keyword and name undoes the keyword.
-/

namespace ClasspathLookup.Declaration

def keywords : List String :=
  ["class", "interface", "enum", "record"]

def isKeyword (word : List Char) : Bool :=
  keywords.contains (String.ofList word)

/-- What the lexemes read so far say about the next one. -/
structure Context where
  depth : Nat := 0
  afterDot : Bool := false
  expecting : Bool := false
deriving DecidableEq, Repr

namespace Context

def after (context : Context) (lexeme : Lexeme) : Context :=
  match lexeme.kind with
  | .blank | .comment => context
  | .openBrace => ⟨context.depth + 1, false, false⟩
  | .closeBrace => ⟨context.depth - 1, false, false⟩
  | .dot => ⟨context.depth, true, false⟩
  | .word => ⟨context.depth, false, isKeyword lexeme.text && context.depth = 0 && !context.afterDot⟩
  | .literal | .unknown => ⟨context.depth, false, false⟩

def declared? (context : Context) (lexeme : Lexeme) : Option String :=
  if context.expecting && lexeme.kind = .word && !isKeyword lexeme.text then
    some (String.ofList lexeme.text)
  else none

/-- The names declared by the lexemes that follow. -/
def declared (context : Context) : List Lexeme → List String
  | [] => []
  | lexeme :: rest =>
    (context.declared? lexeme).toList ++ (context.after lexeme).declared rest

end Context

/-- The types that a source text declares at top level, in order. -/
def declaredTypes (source : String) : List String :=
  Context.declared {} (lexemes source.toList)

end ClasspathLookup.Declaration
