import DocSketch.Tree.Expr

/-!
# Statements

* `Stmt`: the statements of the source language, each node with its span.
* `Stmt.bodies`: the statement bodies nested in a compound statement.
* `Program`: the statements of a whole text.
-/

namespace DocSketch

/-- An imported name. -/
structure ImportName where
  path : String
  /-- The name it is bound to, if it is another one. -/
  localName : Option String
deriving DecidableEq, Repr, Inhabited

/-- What a function declares before its body. -/
structure Signature where
  parameters : List (Parameter Expr)
  /-- Annotation of the result. -/
  returns : Option Expr
deriving Repr, Inhabited

/-- An item `context as target` of a `with` statement. -/
structure WithItem where
  context : Expr
  target : Option Expr
deriving Repr, Inhabited

/-- An `except` clause. -/
structure Handler (σ : Type) where
  span : Span
  exception : Option Expr
  name : Option String
  body : List σ
deriving Repr, Inhabited

/-- Statements of the source language. -/
inductive Stmt where
  | expression (span : Span) (value : Expr)
  /-- Plain, chained and annotated assignments; a mere declaration has no value. -/
  | assign (span : Span) (targets : List Expr) (value annotation : Option Expr)
  | augAssign (span : Span) (target : Expr) (operator : Token) (value : Expr)
  /-- `import a.b as c, d`. -/
  | importNames (span : Span) (names : List ImportName)
  /-- `from ..module import name as alias`; the dots belong to the module. -/
  | importFrom (span : Span) (module : String) (names : List ImportName) (isWildcard : Bool)
  | function (span : Span) (name : String) (signature : Signature) (body : List Stmt)
      (decorators : List Expr) (isAsync : Bool)
  | classDef (span : Span) (name : String) (bases : List Expr) (keywords : List (Keyword Expr))
      (body : List Stmt) (decorators : List Expr)
  | ret (span : Span) (value : Option Expr)
  | raise (span : Span) (exception cause : Option Expr)
  /-- A conditional; a chained condition is a conditional in `orelse`. -/
  | conditional (span : Span) (test : Expr) (body orelse : List Stmt)
  | whileLoop (span : Span) (test : Expr) (body orelse : List Stmt)
  | forLoop (span : Span) (target iter : Expr) (body orelse : List Stmt) (isAsync : Bool)
  | withBlock (span : Span) (items : List WithItem) (body : List Stmt) (isAsync : Bool)
  | tryBlock (span : Span) (body : List Stmt) (handlers : List (Handler Stmt))
      (orelse finalbody : List Stmt)
  /-- A statement that is a keyword with at most a list of expressions. -/
  | keyword (span : Span) (word : TokenKind) (arguments : List Expr)
deriving Repr, Inhabited

namespace Stmt

def span : Stmt → Span
  | expression span .. => span
  | assign span .. => span
  | augAssign span .. => span
  | importNames span .. => span
  | importFrom span .. => span
  | function span .. => span
  | classDef span .. => span
  | ret span .. => span
  | raise span .. => span
  | conditional span .. => span
  | whileLoop span .. => span
  | forLoop span .. => span
  | withBlock span .. => span
  | tryBlock span .. => span
  | keyword span .. => span

/-- Bodies nested in a compound statement, in source order.  Bodies of functions and
classes open scopes of their own and are left out. -/
def bodies : Stmt → List (List Stmt)
  | conditional _ _ body orelse => [body, orelse]
  | whileLoop _ _ body orelse => [body, orelse]
  | forLoop _ _ _ body orelse _ => [body, orelse]
  | withBlock _ _ body _ => [body]
  | tryBlock _ body handlers orelse finalbody =>
    body :: handlers.map Handler.body ++ [orelse, finalbody]
  | _ => []

end Stmt

/-- The statements of a text and the span they take. -/
structure Program where
  body : List Stmt
  span : Span
deriving Repr, Inhabited

end DocSketch
