import DocSketch.Grammar.Expr
import DocSketch.Tree.Stmt

/-!
# Grammar of statements

A simple statement ends with its line, with a semicolon or where its block ends; a
compound statement has bodies, each an indented block or simple statements on the same
line.

* `Grammar.readStmt`: a statement.
* `Grammar.readBlock`: the body of a compound statement.
* `Program.ofTokens`: the statements of a whole list of tokens.
-/

namespace DocSketch

namespace Grammar

open Parse

/-- Fails at a target that cannot be assigned to. -/
def ensureAssignable (target : Expr) : Parse Unit :=
  if target.isAssignable then pure ()
  else failAt (.unexpectedTokenDetailed "=" "cannot assign to this expression") target.span.start

/-- Fails at the first target that cannot be assigned to. -/
def ensureAllAssignable : List Expr → Parse Unit
  | [] => pure ()
  | target :: targets => do
    ensureAssignable target
    ensureAllAssignable targets

/-- Goes past the end of a simple statement; the end of a block or file stays. -/
def endSimple : Parse Unit := do
  match ← kind with
  | .semicolon | .newline =>
    let _ ← advance
    return ()
  | .eof | .dedent => return ()
  | _ => failHere "expected end of statement"

/-- End of the last statement of the last body that has one. -/
def lastStop? (bodies : List (List Stmt)) : Option Nat :=
  bodies.reverse.findSome? fun body => body.getLast?.map fun stmt => stmt.span.stop

/-- Span of a compound statement: it ends where its last nested statement ends. -/
def compoundSpan (start : Nat) (bodies : List (List Stmt)) : Parse Span :=
  match lastStop? bodies with
  | some stop => pure ⟨start, stop⟩
  | none => spanFrom start

/-- Reads the further parts of a dotted name, each with its dot. -/
def readDots : Nat → Parse String
  | 0 => giveUp
  | fuel + 1 => do
    if ← eat .dot then
      let name ← expect .identifier
      let others ← readDots fuel
      return "." ++ name.value ++ others
    else
      return ""

def readDottedName (fuel : Nat) : Parse String := do
  let name ← expect .identifier
  let others ← readDots fuel
  return name.value ++ others

/-- Reads the dots before the name of a relative module. -/
def readLeadingDots : Nat → Parse String
  | 0 => giveUp
  | fuel + 1 => do
    match ← kind with
    | .dot =>
      let _ ← advance
      return "." ++ (← readLeadingDots fuel)
    | .ellipsis =>
      let _ ← advance
      return "..." ++ (← readLeadingDots fuel)
    | _ => return ""

/-- Reads `as name`, if it is there. -/
def readAlias : Parse (Option String) := do
  if ← eat .asKw then return some (← expect .identifier).value else return none

/-- Reads the modules of an `import` statement. -/
def readImports : Nat → Parse (List ImportName)
  | 0 => giveUp
  | fuel + 1 => do
    let path ← readDottedName fuel
    let localName ← readAlias
    if ← eat .comma then
      let others ← readImports fuel
      return ⟨path, localName⟩ :: others
    else
      return [⟨path, localName⟩]

/-- Reads the names of a `from` statement; in parentheses a comma may end them. -/
def readImportedNames : Nat → Bool → Parse (List ImportName)
  | 0, _ => giveUp
  | fuel + 1, inParens => do
    let path ← expect .identifier
    let localName ← readAlias
    let name : ImportName := ⟨path.value, localName⟩
    if ← eat .comma then
      if inParens ∧ (← kind) = .closeParen then
        return [name]
      else
        let others ← readImportedNames fuel inParens
        return name :: others
    else
      return [name]

def readImport (fuel : Nat) : Parse Stmt := do
  let start := (← advance).span.start
  let names ← readImports fuel
  let span ← spanFrom start
  endSimple
  return .importNames span names

def readImportList (fuel : Nat) : Parse (List ImportName) := do
  let inParens ← eat .openParen
  let names ← readImportedNames fuel inParens
  if inParens then
    let _ ← expect .closeParen
    return names
  else
    return names

def readFromImport (fuel : Nat) : Parse Stmt := do
  let start := (← advance).span.start
  let dots ← readLeadingDots fuel
  let path ← if (← kind) = .identifier then readDottedName fuel else pure ""
  let _ ← expect .importKw
  let isWildcard ← eat .star
  let names ← if isWildcard then pure [] else readImportList fuel
  let span ← spanFrom start
  endSimple
  return .importFrom span (dots ++ path) names isWildcard

def readReturn (fuel : Nat) : Parse Stmt := do
  let start := (← advance).span.start
  let value ←
    if ← atExpression then do pure (some (← readTuple fuel .default)) else pure none
  let span ← spanFrom start
  endSimple
  return .ret span value

/-- Reads a `raise` statement; only an exception can have a cause. -/
def readRaise (fuel : Nat) : Parse Stmt := do
  let start := (← advance).span.start
  if ← atExpression then
    let exception ← readExpr fuel .default
    let cause ← readOptional fuel .fromKw
    let span ← spanFrom start
    endSimple
    return .raise span (some exception) cause
  else
    let span ← spanFrom start
    endSimple
    return .raise span none none

def readOperands : Nat → Parse (List Expr)
  | 0 => giveUp
  | fuel + 1 => do
    if ← atExpression then
      let operand ← readExpr fuel .default
      if ← eat .comma then
        let others ← readOperands fuel
        return operand :: others
      else
        return [operand]
    else
      return []

/-- Reads a statement that is a keyword with a list of expressions; some keywords
stand alone. -/
def readKeyword (fuel : Nat) : Parse Stmt := do
  let token ← advance
  let arguments ←
    match token.kind with
    | .passKw | .breakKw | .continueKw => pure []
    | _ => readOperands fuel
  let span ← spanFrom token.span.start
  endSimple
  return .keyword span token.kind arguments

/-- Reads the further links `= expression` of a chain of assignments. -/
def readLinks : Nat → Parse (List Expr)
  | 0 => giveUp
  | fuel + 1 => do
    if ← eat .assignment then
      let link ← readTuple fuel .default
      let others ← readLinks fuel
      return link :: others
    else
      return []

/-- Reads a statement that starts with an expression, up to its end. -/
def readSimpleHead (fuel : Nat) : Parse Stmt := do
  let start ← offset
  let first ← readTuple fuel .default
  match ← kind with
  | .assignment =>
    let chain := first :: (← readLinks fuel)
    ensureAllAssignable chain.dropLast
    return .assign (← spanFrom start) chain.dropLast chain.getLast? none
  | .colon =>
    let _ ← advance
    ensureAssignable first
    let annotation ← readExpr fuel .default
    let value ←
      if ← eat .assignment then do pure (some (← readTuple fuel .default)) else pure none
    return .assign (← spanFrom start) [first] value (some annotation)
  | next =>
    if next.isAugmentedAssignment then
      ensureAssignable first
      let operator ← advance
      let value ← readTuple fuel .default
      return .augAssign (← spanFrom start) first operator value
    else
      return .expression first.span first

/-- Reads a statement that starts with an expression. -/
def readSimple (fuel : Nat) : Parse Stmt := do
  let stmt ← readSimpleHead fuel
  endSimple
  return stmt

/-- Reads the items of a `with` statement. -/
def readWithItems : Nat → Parse (List WithItem)
  | 0 => giveUp
  | fuel + 1 => do
    let context ← readExpr fuel .default
    let target ←
      if ← eat .asKw then do pure (some (← readExpr fuel .relational)) else pure none
    if ← eat .comma then
      let others ← readWithItems fuel
      return ⟨context, target⟩ :: others
    else
      return [⟨context, target⟩]

/-- Reads decorators, each on lines of its own. -/
def readDecorators : Nat → Parse (List Expr)
  | 0 => giveUp
  | fuel + 1 => do
    if ← eat .atSign then
      let decorator ← readExpr fuel .default
      let _ ← expect .newline
      let _ ← takeAll .newline
      let others ← readDecorators fuel
      return decorator :: others
    else
      return []

/-- Reads the bases and keywords of a class, if it has parentheses. -/
def readBases (fuel : Nat) : Parse (List Expr × List (Keyword Expr)) := do
  if ← eat .openParen then readArguments fuel else return ([], [])

/-- Reads what a function declares before its body, from `def` on. -/
def readSignature (fuel : Nat) : Parse (String × Signature) := do
  let _ ← expect .defKw
  let name ← expectOr .identifier "expected function name after `def`"
  let _ ← expect .openParen
  let parameters ← readParameters fuel .closeParen .positional
  let _ ← expect .closeParen
  let returns ← readOptional fuel .arrow
  return (name.value, ⟨parameters, returns⟩)

mutual

/-- Reads a statement. -/
def readStmt : Nat → Parse Stmt
  | 0 => giveUp
  | fuel + 1 => do
    match (← get).statement? with
    | some form => readForm fuel form
    | none => readSimple fuel

/-- Reads a statement that starts with a keyword or a decorator. -/
def readForm : Nat → StatementForm → Parse Stmt
  | 0, _ => giveUp
  | fuel + 1, form => do
    match form with
    | .function => readFunction fuel (← offset) [] false
    | .classDef => readClass fuel (← offset) []
    | .forLoop => readFor fuel (← offset) false
    | .withBlock => readWith fuel (← offset) false
    | .decorated => readDecorated fuel
    | .async =>
      let start := (← advance).span.start
      match ← kind with
      | .defKw => readFunction fuel start [] true
      | .forKw => readFor fuel start true
      | .withKw => readWith fuel start true
      | _ => failHere "expected `def`, `for` or `with` after `async`"
    | .conditional => readConditional fuel
    | .whileLoop =>
      let start := (← advance).span.start
      let test ← readExpr fuel .default
      let body ← readBlock fuel
      let orelse ← readElse fuel
      return .whileLoop (← compoundSpan start [body, orelse]) test body orelse
    | .tryBlock => readTry fuel
    | .ret => readReturn fuel
    | .raise => readRaise fuel
    | .importNames => readImport fuel
    | .importFrom => readFromImport fuel
    | .keyword => readKeyword fuel

def readFunction : Nat → Nat → List Expr → Bool → Parse Stmt
  | 0, _, _, _ => giveUp
  | fuel + 1, start, decorators, isAsync => do
    let (name, signature) ← readSignature fuel
    let body ← readBlock fuel
    return .function (← compoundSpan start [body]) name signature body decorators isAsync

def readClass : Nat → Nat → List Expr → Parse Stmt
  | 0, _, _ => giveUp
  | fuel + 1, start, decorators => do
    let _ ← expect .classKw
    let name ← expect .identifier
    let (bases, keywords) ← readBases fuel
    let body ← readBlock fuel
    return .classDef (← compoundSpan start [body]) name.value bases keywords body decorators

/-- Reads a function or a class with its decorators. -/
def readDecorated : Nat → Parse Stmt
  | 0 => giveUp
  | fuel + 1 => do
    let start ← offset
    let decorators ← readDecorators fuel
    match ← kind with
    | .defKw => readFunction fuel start decorators false
    | .asyncKw =>
      let _ ← advance
      readFunction fuel start decorators true
    | .classKw => readClass fuel start decorators
    | _ => failHere "expected `def` or `class` after decorator"

/-- Reads a `for` loop from `for` on. -/
def readFor : Nat → Nat → Bool → Parse Stmt
  | 0, _, _ => giveUp
  | fuel + 1, start, isAsync => do
    let _ ← expect .forKw
    let target ← readTuple fuel .relational
    let _ ← expect .inKw
    let iter ← readTuple fuel .default
    let body ← readBlock fuel
    let orelse ← readElse fuel
    return .forLoop (← compoundSpan start [body, orelse]) target iter body orelse isAsync

/-- Reads a `with` statement from `with` on. -/
def readWith : Nat → Nat → Bool → Parse Stmt
  | 0, _, _ => giveUp
  | fuel + 1, start, isAsync => do
    let _ ← expect .withKw
    let items ← readWithItems fuel
    let body ← readBlock fuel
    return .withBlock (← compoundSpan start [body]) items body isAsync

/-- Reads a conditional from `if` or `elif` on; a chained condition is nested. -/
def readConditional : Nat → Parse Stmt
  | 0 => giveUp
  | fuel + 1 => do
    let start := (← advance).span.start
    let test ← readExpr fuel .default
    let body ← readBlock fuel
    let orelse ←
      if (← kind) = .elifKw then do pure [← readConditional fuel] else readElse fuel
    return .conditional (← compoundSpan start [body, orelse]) test body orelse

/-- Reads a `try` statement, which has a handler or a final body. -/
def readTry : Nat → Parse Stmt
  | 0 => giveUp
  | fuel + 1 => do
    let start := (← advance).span.start
    let body ← readBlock fuel
    let handlers ← readHandlers fuel
    let orelse ← readElse fuel
    let finalbody ← if ← eat .finallyKw then readBlock fuel else pure []
    if handlers.isEmpty ∧ finalbody.isEmpty then
      failHere "expected `except` or `finally` after `try` block"
    else
      let span ← compoundSpan start (body :: handlers.map Handler.body ++ [orelse, finalbody])
      return .tryBlock span body handlers orelse finalbody

/-- Reads the handlers of a `try` statement; a star after `except` changes nothing. -/
def readHandlers : Nat → Parse (List (Handler Stmt))
  | 0 => giveUp
  | fuel + 1 => do
    if (← kind) = .exceptKw then
      let start := (← advance).span.start
      let _ ← eat .star
      let exception ←
        if (← kind) = .colon then pure none else do pure (some (← readExpr fuel .default))
      let name ← readAlias
      let body ← readBlock fuel
      let span ← compoundSpan start [body]
      let others ← readHandlers fuel
      return ⟨span, exception, name, body⟩ :: others
    else
      return []

/-- Reads an `else` clause, if it is there. -/
def readElse : Nat → Parse (List Stmt)
  | 0 => giveUp
  | fuel + 1 => do
    if ← eat .elseKw then readBlock fuel else return []

/-- Reads a body from its colon on: an indented block, or statements on the same line. -/
def readBlock : Nat → Parse (List Stmt)
  | 0 => giveUp
  | fuel + 1 => do
    let _ ← expect .colon
    if ← eat .newline then
      let _ ← expectOr .indent "expected an indented block"
      let body ← readIndented fuel
      let _ ← eat .dedent
      return body
    else
      readInline fuel

/-- Reads the statements of an indented block; its end stays. -/
def readIndented : Nat → Parse (List Stmt)
  | 0 => giveUp
  | fuel + 1 => do
    match ← kind with
    | .dedent | .eof => return []
    | .newline =>
      let _ ← advance
      readIndented fuel
    | _ =>
      let stmt ← readStmt fuel
      let others ← readIndented fuel
      return stmt :: others

/-- Reads statements on one line; after a semicolon there can be more. -/
def readInline : Nat → Parse (List Stmt)
  | 0 => giveUp
  | fuel + 1 => do
    let stmt ← readStmt fuel
    let cursor ← get
    if cursor.previous.kind = .semicolon ∧
        ¬(cursor.kind = .newline ∨ cursor.kind = .dedent ∨ cursor.kind = .eof) then
      let others ← readInline fuel
      return stmt :: others
    else
      return [stmt]

end

/-- Reads statements up to the end of the file. -/
def readProgram : Nat → Parse (List Stmt)
  | 0 => giveUp
  | fuel + 1 => do
    match ← kind with
    | .eof => return []
    | .newline =>
      let _ ← advance
      readProgram fuel
    | _ =>
      let stmt ← readStmt fuel
      let others ← readProgram fuel
      return stmt :: others

end Grammar

def Parse.stmt : Parse Stmt := do
  Grammar.readStmt (← get).budget

/-- The statements of a list of tokens. -/
def Parse.program : Parse Program := do
  let body ← Grammar.readProgram (← get).budget
  return ⟨body, ⟨0, ← Parse.offset⟩⟩

/-- The program that a list of tokens stands for. -/
def Program.ofTokens (file : String) (tokens : List Token) : Except Fault Program :=
  match Parse.program (Cursor.ofTokens file false tokens) with
  | .ok program _ => .ok program
  | .error fault _ => .error fault

end DocSketch
