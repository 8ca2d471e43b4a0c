import DocSketch.Text.Quoted

/-!
# Faults

Everything that can go wrong is a `Cause`; a `Fault` is a cause together with the
place it was found at.  The wording of all messages is kept here.

* `Cause.describe`, `Fault.message`: the plain description, and the description with
  its place.
* `Cause.tip?`: a hint for the reader, where there is one.
* `Fault.isRecoverable`: the faults after which a source text can stand in for a type.
-/

namespace DocSketch

/-- A byte offset in a named text; it fits 32 bits where the text has less than `2 ^ 32`
bytes. -/
structure Position where
  offset : Nat
  file : String
deriving DecidableEq, Repr, Inhabited

/-- The place of a fault that belongs to no text. -/
def Position.nowhere : Position := ⟨0, "<null>"⟩

/-- What went wrong. -/
inductive Cause where
  /-- No token starts with this character. -/
  | unrecognisedToken (token : String)
  /-- Reading gave up at this token. -/
  | unexpectedToken (token : String)
  /-- A token stands where something else was needed. -/
  | unexpectedTokenDetailed (token message : String)
  /-- A number literal without text. -/
  | malformedNumber (token : String)
  /-- A line is indented to a width that no enclosing block has. -/
  | inconsistentIndentation (width : Nat)
  /-- An expression of a form that has no type. -/
  | unsupportedConstruct (construct : String)
  /-- Lookups of names are nested too deeply. -/
  | recursionGuardTripped (depth : Nat)
  /-- The braces of a template do not match. -/
  | malformedTemplate (message : String)
  /-- No function has the requested name. -/
  | functionNotFound (function : String)
  /-- The source file cannot be read. -/
  | unreadableFile (path message : String)
deriving DecidableEq, Repr, Inhabited

namespace Cause

/-- Short name of the kind of cause. -/
def name : Cause → String
  | unrecognisedToken _ => "UnrecognisedToken"
  | unexpectedToken _ => "UnexpectedToken"
  | unexpectedTokenDetailed _ _ => "UnexpectedTokenDetailed"
  | malformedNumber _ => "NumberParseError"
  | inconsistentIndentation _ => "InconsistentIndentation"
  | unsupportedConstruct _ => "UnsupportedConstruct"
  | recursionGuardTripped _ => "RecursionGuardTripped"
  | malformedTemplate _ => "MalformedTemplateText"
  | functionNotFound _ => "FunctionNotFound"
  | unreadableFile _ _ => "UnreadableFile"

/-- One-line description; texts taken from the input are quoted. -/
def describe : Cause → String
  | unrecognisedToken token => "unrecognised token: " ++ Text.quote token
  | unexpectedToken token => "unexpected token: " ++ Text.quote token
  | unexpectedTokenDetailed token message =>
    "unexpected token (" ++ Text.quote message ++ "): " ++ Text.quote token
  | malformedNumber token => "error parsing number: " ++ Text.quote token
  | inconsistentIndentation width => s!"inconsistent indentation (width {width})"
  | unsupportedConstruct construct => "unsupported construct: " ++ construct
  | recursionGuardTripped depth => s!"recursion guard tripped at depth {depth}"
  | malformedTemplate message => "malformed template text: " ++ message
  | functionNotFound function => "function " ++ Text.quote function ++ " not found"
  | unreadableFile path message => "cannot read " ++ Text.quote path ++ ": " ++ message

/-- Hint for the reader of the message. -/
def tip? : Cause → Option String
  | unrecognisedToken _ => none
  | unexpectedToken token => some s!"Unexpected token: `{token}`"
  | unexpectedTokenDetailed token message => some s!"Unexpected token: `{token}`, {message}"
  | malformedNumber token => some s!"Invalid number literal: `{token}`"
  | inconsistentIndentation width =>
    some s!"Dedent to column {width} does not match any enclosing block"
  | unsupportedConstruct construct =>
    some s!"`{construct}` expressions cannot be typed, substitute a placeholder"
  | recursionGuardTripped depth =>
    some s!"Resolution of local definitions stopped at depth {depth}"
  | malformedTemplate message => some s!"Generated template text is malformed: {message}"
  | functionNotFound function => some s!"No function named `{function}` in this file"
  | unreadableFile path message => some s!"Could not read `{path}`: {message}"

/-- Causes that concern a single expression, whose source text can stand in for its type. -/
def isRecoverable : Cause → Bool
  | unsupportedConstruct _ => true
  | recursionGuardTripped _ => true
  | _ => false

/-- Whether lookups were cut because they are nested too deeply. -/
def isRecursionGuard : Cause → Bool
  | recursionGuardTripped _ => true
  | _ => false

end Cause

/-- A cause and the place it was found at. -/
structure Fault where
  cause : Cause
  position : Position
deriving DecidableEq, Repr, Inhabited

/-- Description of a fault with its place. -/
def Fault.message (fault : Fault) : String :=
  s!"{fault.cause.describe} at {fault.position.file}:{fault.position.offset}"

/-- Whether the source text of an expression can stand in for its type. -/
def Fault.isRecoverable (fault : Fault) : Bool := fault.cause.isRecoverable

end DocSketch
