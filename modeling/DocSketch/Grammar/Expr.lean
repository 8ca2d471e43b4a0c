import DocSketch.Grammar.Cursor
import DocSketch.Grammar.Literal

/-!
# Grammar of expressions

Expressions are read by operator precedence: what an expression starts with is read
first, and then every operator that binds tighter than the place allows takes what has
been read as its left operand.

The readers call each other, and each takes a bound on how deeply; `Cursor.budget`
gives one that suffices.

* `Grammar.readExpr`: an expression.
* `Grammar.readTuple`: an expression, or several as a tuple without parentheses.
* `Grammar.readArguments`: the arguments of a call.
* `Grammar.readParameters`: the parameters of a function or a lambda.
-/

namespace DocSketch

namespace Grammar

open Parse

def atClause : Parse Bool := do
  let cursor ← get
  return cursor.kind = .forKw ∨ (cursor.kind = .asyncKw ∧ cursor.peek 1 = .forKw)

/-- Whether a part of a slice is absent here. -/
def endsSlicePart : TokenKind → Bool
  | .colon | .comma | .closeBracket => true
  | _ => false

def readNumber : Parse Expr := do
  let token ← advance
  if token.value.isEmpty then
    failAt (.malformedNumber token.value) token.span.start
  else
    return .number token.span (numberKind token.value) token.value

def readString : Parse Expr := do
  let first ← advance
  let others ← takeAll .string
  let parts := others.foldl joinStrings (stringParts first.value)
  return .string (← spanFrom first.span.start) parts.1 parts.2

mutual

/-- Reads an expression whose operators bind tighter than `level`. -/
def readExpr : Nat → Power → Parse Expr
  | 0, _ => giveUp
  | fuel + 1, level => do
    match (← get).opening? with
    | none => failHere "expected an expression"
    | some form =>
      let left ← readOpening fuel form
      readJoins fuel level left

/-- Lets operators that bind tighter than `level` take `left` as their left operand. -/
def readJoins : Nat → Power → Expr → Parse Expr
  | 0, _, _ => giveUp
  | fuel + 1, level, left => do
    match (← get).joining? with
    | none => return left
    | some (next, form) =>
      if next ≤ level then
        return left
      else
        let joined ← readJoining fuel form next left
        readJoins fuel level joined

/-- Reads what an expression starts with. -/
def readOpening : Nat → Opening → Parse Expr
  | 0, _ => giveUp
  | fuel + 1, form => do
    match form with
    | .number => readNumber
    | .string => readString
    | .identifier =>
      let token ← advance
      return .symbol token.span token.value
    | .constant value =>
      let token ← advance
      return .constant token.span value
    | .unary level =>
      let token ← advance
      let operand ← readExpr fuel level
      return .unary ⟨token.span.start, operand.span.stop⟩ token operand
    | .star =>
      let token ← advance
      let value ← readExpr fuel .bitwiseOr
      return .starred ⟨token.span.start, value.span.stop⟩ value (token.kind = .power)
    | .group => readGroup fuel
    | .list => readListDisplay fuel
    | .curly => readCurly fuel
    | .lambda =>
      let token ← advance
      let parameters ← readParameters fuel .colon .positional
      let _ ← expect .colon
      let body ← readExpr fuel .default
      return .lambda ⟨token.span.start, body.span.stop⟩ parameters body
    | .yield =>
      let token ← advance
      if ← eat .fromKw then
        let value ← readExpr fuel .default
        return .yield (← spanFrom token.span.start) (some value) true
      else if ← atExpression then
        let value ← readTuple fuel .default
        return .yield (← spanFrom token.span.start) (some value) false
      else
        return .yield (← spanFrom token.span.start) none false

/-- Reads what joins `left` to what follows; `level` is the level of the joining token. -/
def readJoining : Nat → Joining → Power → Expr → Parse Expr
  | 0, _, _, _ => giveUp
  | fuel + 1, form, level, left => do
    match form with
    | .binary right =>
      let operator ← advance
      let operand ← readExpr fuel right
      return .binary ⟨left.span.start, operand.span.stop⟩ left operator operand
    | .identity =>
      let operator ← advance
      let negated ← eat .notKw
      let operand ← readExpr fuel level
      let operator := if negated then { operator with value := "is not" } else operator
      return .binary ⟨left.span.start, operand.span.stop⟩ left operator operand
    | .exclusion =>
      let _ ← advance
      let operator ← expectOr .inKw "expected `in` after `not`"
      let operand ← readExpr fuel level
      return .binary ⟨left.span.start, operand.span.stop⟩ left
        { operator with value := "not in" } operand
    | .ternary =>
      let _ ← advance
      let test ← readExpr fuel .ternary
      let _ ← expect .elseKw
      let orelse ← readExpr fuel .lambda
      return .ternary ⟨left.span.start, orelse.span.stop⟩ left test orelse
    | .call =>
      let _ ← advance
      let (arguments, keywords) ← readArguments fuel
      return .call (← spanFrom left.span.start) left arguments keywords
    | .subscript =>
      let _ ← advance
      let start ← offset
      let first ← readSliceItem fuel
      let index ←
        if (← kind) = .comma then do
          let others ← readSliceItems fuel
          pure (.sequence (← spanFrom start) .tuple (first :: others))
        else
          pure first
      let _ ← expect .closeBracket
      return .subscript (← spanFrom left.span.start) left index
    | .member =>
      let _ ← advance
      let property ← expectOr .identifier "expected attribute name after `.`"
      return .member ⟨left.span.start, property.span.stop⟩ left property.value

/-- Reads an expression, or several with commas between them as a tuple; all operators
bind tighter than `level`. -/
def readTuple : Nat → Power → Parse Expr
  | 0, _ => giveUp
  | fuel + 1, level => do
    let first ← readExpr fuel level
    if (← kind) = .comma then
      let others ← readTupleRest fuel level
      return .sequence (← spanFrom first.span.start) .tuple (first :: others)
    else
      return first

/-- Reads the further elements of a tuple without parentheses. -/
def readTupleRest : Nat → Power → Parse (List Expr)
  | 0, _ => giveUp
  | fuel + 1, level => do
    if ← eat .comma then
      if ← atExpression then
        let element ← readExpr fuel level
        let others ← readTupleRest fuel level
        return element :: others
      else
        return []
    else
      return []

def readClauses : Nat → Parse (List (Clause Expr))
  | 0 => giveUp
  | fuel + 1 => do
    if ← atClause then
      let isAsync ← eat .asyncKw
      let _ ← expect .forKw
      let target ← readTuple fuel .relational
      let _ ← expect .inKw
      let iter ← readExpr fuel .ternary
      let conditions ← readConditions fuel
      let others ← readClauses fuel
      return ⟨target, iter, conditions, isAsync⟩ :: others
    else
      return []

def readConditions : Nat → Parse (List Expr)
  | 0 => giveUp
  | fuel + 1 => do
    if ← eat .ifKw then
      let condition ← readExpr fuel .ternary
      let others ← readConditions fuel
      return condition :: others
    else
      return []

/-- Reads the further elements of a display that `closing` ends. -/
def readElements : Nat → TokenKind → Parse (List Expr)
  | 0, _ => giveUp
  | fuel + 1, closing => do
    if ← eat .comma then
      if (← kind) = closing then
        return []
      else
        let element ← readExpr fuel .default
        let others ← readElements fuel closing
        return element :: others
    else
      return []

/-- Reads what stands in parentheses: a grouped expression, a tuple or a generator. -/
def readGroup : Nat → Parse Expr
  | 0 => giveUp
  | fuel + 1 => do
    let start := (← advance).span.start
    if ← eat .closeParen then
      return .sequence (← spanFrom start) .tuple []
    else
      let first ← readExpr fuel .default
      if ← atClause then
        let clauses ← readClauses fuel
        let _ ← expect .closeParen
        return .comprehension (← spanFrom start) .generator first none clauses
      else if (← kind) = .comma then
        let others ← readElements fuel .closeParen
        let _ ← expect .closeParen
        return .sequence (← spanFrom start) .tuple (first :: others)
      else
        let _ ← expect .closeParen
        return first

/-- Reads what stands in brackets: a list or a list comprehension. -/
def readListDisplay : Nat → Parse Expr
  | 0 => giveUp
  | fuel + 1 => do
    let start := (← advance).span.start
    if ← eat .closeBracket then
      return .sequence (← spanFrom start) .list []
    else
      let first ← readExpr fuel .default
      if ← atClause then
        let clauses ← readClauses fuel
        let _ ← expect .closeBracket
        return .comprehension (← spanFrom start) .list first none clauses
      else
        let others ← readElements fuel .closeBracket
        let _ ← expect .closeBracket
        return .sequence (← spanFrom start) .list (first :: others)

/-- Reads what stands in braces: a mapping, a set or a comprehension of either. -/
def readCurly : Nat → Parse Expr
  | 0 => giveUp
  | fuel + 1 => do
    let start := (← advance).span.start
    if ← eat .closeCurly then
      return .dict (← spanFrom start) []
    else if (← kind) = .power then
      let first ← readEntry fuel
      readDict fuel start first
    else
      let first ← readExpr fuel .default
      if ← eat .colon then
        let value ← readExpr fuel .default
        if ← atClause then
          let clauses ← readClauses fuel
          let _ ← expect .closeCurly
          return .comprehension (← spanFrom start) .dict first (some value) clauses
        else
          readDict fuel start ⟨some first, value⟩
      else if ← atClause then
        let clauses ← readClauses fuel
        let _ ← expect .closeCurly
        return .comprehension (← spanFrom start) .set first none clauses
      else
        let others ← readElements fuel .closeCurly
        let _ ← expect .closeCurly
        return .sequence (← spanFrom start) .set (first :: others)

/-- Reads the rest of a mapping that starts at `start` with the entry `first`. -/
def readDict : Nat → Nat → Entry Expr → Parse Expr
  | 0, _, _ => giveUp
  | fuel + 1, start, first => do
    let others ← readEntries fuel
    let _ ← expect .closeCurly
    return .dict (← spanFrom start) (first :: others)

def readEntry : Nat → Parse (Entry Expr)
  | 0 => giveUp
  | fuel + 1 => do
    if ← eat .power then
      let value ← readExpr fuel .bitwiseOr
      return ⟨none, value⟩
    else
      let key ← readExpr fuel .default
      let _ ← expect .colon
      let value ← readExpr fuel .default
      return ⟨some key, value⟩

/-- Reads the further entries of a mapping. -/
def readEntries : Nat → Parse (List (Entry Expr))
  | 0 => giveUp
  | fuel + 1 => do
    if ← eat .comma then
      if (← kind) = .closeCurly then
        return []
      else
        let entry ← readEntry fuel
        let others ← readEntries fuel
        return entry :: others
    else
      return []

/-- Reads the arguments of a call up to and including the closing parenthesis. -/
def readArguments : Nat → Parse (List Expr × List (Keyword Expr))
  | 0 => giveUp
  | fuel + 1 => do
    let cursor ← get
    if cursor.kind = .closeParen then
      let _ ← advance
      return ([], [])
    else if cursor.kind = .power then
      let _ ← advance
      let value ← readExpr fuel .default
      let (arguments, keywords) ← readMoreArguments fuel
      return (arguments, ⟨none, value⟩ :: keywords)
    else if cursor.kind = .identifier ∧ cursor.peek 1 = .assignment then
      let name ← advance
      let _ ← advance
      let value ← readExpr fuel .default
      let (arguments, keywords) ← readMoreArguments fuel
      return (arguments, ⟨some name.value, value⟩ :: keywords)
    else
      let argument ← readArgument fuel
      let (arguments, keywords) ← readMoreArguments fuel
      return (argument :: arguments, keywords)

/-- Reads a positional argument, which may be a generator without parentheses. -/
def readArgument : Nat → Parse Expr
  | 0 => giveUp
  | fuel + 1 => do
    let argument ← readExpr fuel .default
    if ← atClause then
      let clauses ← readClauses fuel
      return .comprehension (← spanFrom argument.span.start) .generator argument none clauses
    else
      return argument

def readMoreArguments : Nat → Parse (List Expr × List (Keyword Expr))
  | 0 => giveUp
  | fuel + 1 => do
    if ← eat .comma then
      readArguments fuel
    else
      let _ ← expect .closeParen
      return ([], [])

def readSliceItem : Nat → Parse Expr
  | 0 => giveUp
  | fuel + 1 => do
    let start ← offset
    if (← kind) = .colon then
      readSlice fuel start none
    else
      let lower ← readExpr fuel .default
      if (← kind) = .colon then readSlice fuel start (some lower) else return lower

/-- Reads a slice from its first colon on; `lower` stands before it. -/
def readSlice : Nat → Nat → Option Expr → Parse Expr
  | 0, _, _ => giveUp
  | fuel + 1, start, lower => do
    let _ ← advance
    let upper ← readSlicePart fuel
    let step ← if ← eat .colon then readSlicePart fuel else pure none
    return .slice (← spanFrom start) lower upper step

/-- Reads a part of a slice that may be absent. -/
def readSlicePart : Nat → Parse (Option Expr)
  | 0 => giveUp
  | fuel + 1 => do
    if endsSlicePart (← kind) then return none
    else return some (← readExpr fuel .default)

/-- Reads the further items of a subscript. -/
def readSliceItems : Nat → Parse (List Expr)
  | 0 => giveUp
  | fuel + 1 => do
    if ← eat .comma then
      if (← kind) = .closeBracket then
        return []
      else
        let item ← readSliceItem fuel
        let others ← readSliceItems fuel
        return item :: others
    else
      return []

/-- Reads parameters up to a token of the kind `closing`, which stays; `usual` is the
kind of a parameter without a star.  After a star parameters are keyword-only, and a
slash only marks those before it. -/
def readParameters : Nat → TokenKind → ParameterKind → Parse (List (Parameter Expr))
  | 0, _, _ => giveUp
  | fuel + 1, closing, usual => do
    if (← kind) = closing then
      return []
    else
      let start ← offset
      if ← eat .slash then
        if ← eat .comma then readParameters fuel closing usual else return []
      else if ← eat .star then
        if (← kind) = .identifier then
          readParameter fuel closing start .varPositional .keywordOnly
        else if ← eat .comma then
          readParameters fuel closing .keywordOnly
        else
          return []
      else if ← eat .power then
        readParameter fuel closing start .varKeyword usual
      else
        readParameter fuel closing start usual usual

/-- Reads a parameter of the kind `own` from its name on, and the parameters after it.
Only parameters that a colon does not close can have annotations. -/
def readParameter : Nat → TokenKind → Nat → ParameterKind → ParameterKind →
    Parse (List (Parameter Expr))
  | 0, _, _, _, _ => giveUp
  | fuel + 1, closing, start, own, usual => do
    let name ← expectOr .identifier "expected parameter name"
    let annotation ←
      if closing ≠ .colon then readOptional fuel .colon else pure none
    let default ← readOptional fuel .assignment
    let parameter := ⟨name.value, annotation, default, own, ← spanFrom start⟩
    if ← eat .comma then
      let others ← readParameters fuel closing usual
      return parameter :: others
    else
      return [parameter]

/-- Reads an expression that is there only if a token of the kind `mark` announces it. -/
def readOptional : Nat → TokenKind → Parse (Option Expr)
  | 0, _ => giveUp
  | fuel + 1, mark => do
    if ← eat mark then return some (← readExpr fuel .default) else return none

end

end Grammar

namespace Parse

/-- An expression whose operators bind tighter than `level`. -/
def expr (level : Power) : Parse Expr := do
  Grammar.readExpr (← get).budget level

/-- An expression, or a tuple without parentheses. -/
def exprList : Parse Expr := do
  Grammar.readTuple (← get).budget .default

/-- A target of an assignment or a loop; it ends before `in` and `=`. -/
def targetList : Parse Expr := do
  Grammar.readTuple (← get).budget .relational

/-- Parameters up to a token of the kind `closing`. -/
def parameters (closing : TokenKind) : Parse (List (Parameter Expr)) := do
  Grammar.readParameters (← get).budget closing .positional

/-- Arguments of a call up to and including the closing parenthesis. -/
def callArguments : Parse (List Expr × List (Keyword Expr)) := do
  Grammar.readArguments (← get).budget

end Parse

end DocSketch
