import DocSketch.Grammar.Stmt
import DocSketch.Scope.Collect
import DocSketch.Token.Lexer

/-!
# Sources

* `Source`: a text that has been read, with its statements, scopes and imports.
* `Source.read`: reads a text, or says what is wrong with it.
* `Source.textOf`: the text that a node of its tree covers.
-/

namespace DocSketch

/-- A text with what was read from it. -/
structure Source where
  text : String
  file : String
  program : Program
  scopes : ScopeTree
  /-- Names that import statements bind, in source order. -/
  imports : List ImportBinding
deriving Repr, Inhabited

namespace Source

/-- A text whose statements are known. -/
def ofProgram (text file : String) (program : Program) : Source :=
  let found := program.collect
  ⟨text, file, program, ⟨found.scopes⟩, found.imports⟩

/-- Reads a text. -/
def read (text file : String) : Except Fault Source := do
  let tokens ← Token.scan text file
  let program ← Program.ofTokens file tokens
  return ofProgram text file program

/-- Text that a span covers, empty for a span that cuts a character. -/
def textOf (source : Source) (span : Span) : String :=
  String.ofList ((Text.slice? span source.text.toList).getD [])

end Source

end DocSketch
