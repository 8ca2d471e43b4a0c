import DocSketch.Fault.Basic
import DocSketch.Grammar.Precedence

/-!
# Reading tokens

A cursor stands in a list of tokens that an end-of-file token closes.  It never moves
beyond that token, so there is always a current one.

* `Cursor`: the tokens ahead and the one read last.
* `Parse`: a reader that moves a cursor; a reader that fails leaves the cursor where
  it stopped.
* `Parse.expect`, `Parse.eat`: the two ways to go past a token of a given kind.
-/

namespace DocSketch

/-- A place in a list of tokens. -/
structure Cursor where
  /-- Name of the file the tokens come from. -/
  file : String
  /-- Whether the grammar's tables are to be ignored, so that no token starts or
  joins anything. -/
  isBare : Bool
  /-- The token read last, or the very first one. -/
  previous : Token
  /-- The tokens ahead, without the closing one. -/
  rest : List Token
  /-- The end-of-file token that closes the list. -/
  stop : Token
deriving DecidableEq, Repr, Inhabited

namespace Cursor

/-- A cursor before the first of the tokens `body`, which `stop` closes. -/
def before (file : String) (isBare : Bool) (body : List Token) (stop : Token) : Cursor :=
  ⟨file, isBare, body.headD stop, body, stop⟩

/-- The end-of-file token for a list that has none. -/
def missingStop (tokens : List Token) : Token :=
  let offset := (tokens.getLast?.map fun token => token.span.stop).getD 0
  ⟨.eof, "EOF", ⟨offset, offset⟩⟩

/-- A cursor at the start of a list of tokens, which is closed if it is not yet. -/
def ofTokens (file : String) (isBare : Bool) (tokens : List Token) : Cursor :=
  match tokens.getLast? with
  | some last =>
    if last.kind = .eof then before file isBare tokens.dropLast last
    else before file isBare tokens (missingStop tokens)
  | none => before file isBare tokens (missingStop tokens)

def current (cursor : Cursor) : Token := cursor.rest.headD cursor.stop

def kind (cursor : Cursor) : TokenKind := cursor.current.kind

/-- Kind of the token `n` places ahead. -/
def peek (cursor : Cursor) (n : Nat) : TokenKind := (cursor.rest.getD n cursor.stop).kind

/-- The cursor behind the current token; at the end it stays. -/
def advance (cursor : Cursor) : Cursor :=
  match cursor.rest with
  | [] => cursor
  | token :: tokens => { cursor with previous := token, rest := tokens }

/-- Whether the current token is not the end of the file. -/
def hasTokens (cursor : Cursor) : Bool := cursor.kind != .eof

/-- What an expression that starts here is. -/
def opening? (cursor : Cursor) : Option Opening :=
  if cursor.isBare then none else cursor.kind.opening?

/-- How an expression before the cursor goes on here. -/
def joining? (cursor : Cursor) : Option (Power × Joining) :=
  if cursor.isBare then none else cursor.kind.joining?

/-- The statement that starts here with a keyword or a decorator. -/
def statement? (cursor : Cursor) : Option StatementForm :=
  if cursor.isBare then none else cursor.kind.statement?

/-- Span from `start` to the end of the token read last. -/
def spanFrom (cursor : Cursor) (start : Nat) : Span := ⟨start, cursor.previous.span.stop⟩

/-- Bound on the nesting of readers: a token is gone past at least once in sixteen
levels. -/
def budget (cursor : Cursor) : Nat := 16 * (cursor.rest.length + 1)

end Cursor

/-- Readers of tokens. -/
abbrev Parse := EStateM Fault Cursor

namespace Parse

def current : Parse Token := return (← get).current

def kind : Parse TokenKind := return (← get).kind

def offset : Parse Nat := return (← get).current.span.start

def advance : Parse Token := do
  let cursor ← get
  set cursor.advance
  return cursor.current

/-- Span from `start` to the end of the token read last. -/
def spanFrom (start : Nat) : Parse Span := return (← get).spanFrom start

def atExpression : Parse Bool := return (← get).opening?.isSome

def failAt {α : Type} (cause : Cause) (offset : Nat) : Parse α := do
  let cursor ← get
  throw ⟨cause, ⟨offset, cursor.file⟩⟩

/-- Fails at the current token with a message on what should stand there. -/
def failHere {α : Type} (message : String) : Parse α := do
  let token ← current
  failAt (.unexpectedTokenDetailed token.describe message) token.span.start

/-- Fails because the nesting of readers exceeds its bound. -/
def giveUp {α : Type} : Parse α := do
  let token ← current
  failAt (.unexpectedToken token.describe) token.span.start

/-- Goes past a token of the given kind, or fails with the given message. -/
def expectOr (expected : TokenKind) (message : String) : Parse Token := do
  if (← kind) = expected then advance else failHere message

/-- Goes past a token of the given kind, or fails. -/
def expect (expected : TokenKind) : Parse Token :=
  expectOr expected s!"expected {expected.name}"

/-- Goes past the current token if it has the given kind. -/
def eat (expected : TokenKind) : Parse Bool := do
  if (← kind) = expected then
    let _ ← advance
    return true
  else
    return false

/-- Goes past all tokens of the given kind and collects their texts. -/
def takeAll (expected : TokenKind) : Parse (List String) := do
  let cursor ← get
  let taken := cursor.rest.takeWhile (·.kind == expected)
  set
    { cursor with
      previous := taken.getLastD cursor.previous
      rest := cursor.rest.dropWhile (·.kind == expected) }
  return taken.map Token.value

end Parse

end DocSketch
