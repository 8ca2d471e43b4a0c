import DocSketch.Fault.Basic
import DocSketch.Token.Basic
import DocSketch.Token.Lexeme

/-!
# From text to tokens

Lexemes become tokens, and the indentation of lines becomes layout tokens: `indent`
where a block opens, `dedent` where one closes, `newline` at the end of a logical
line.  Inside brackets line breaks do not count.

* `Layout`: the tokens read so far with the open brackets and blocks.
* `Layout.indentTo`: what the indentation of a new line adds.
* `Token.scan`: all tokens of a text.
-/

namespace DocSketch

/-- Tokens read so far, and the brackets and blocks that are open. -/
structure Layout where
  /-- Tokens, the latest first. -/
  tokens : List Token
  /-- Number of open brackets. -/
  nesting : Nat
  /-- Indentation widths of the enclosing blocks, the innermost first; the outermost
  block has width zero. -/
  indents : List Nat
  /-- Whether the next line has not been measured yet. -/
  lineStart : Bool
deriving DecidableEq, Repr, Inhabited

namespace Layout

/-- The layout at the start of a text. -/
def initial : Layout := ⟨[], 0, [0], true⟩

def lastKind? (layout : Layout) : Option TokenKind := layout.tokens.head?.map Token.kind

def width (layout : Layout) : Nat := layout.indents.headD 0

/-- Bracket depth after a token of the given kind. -/
def nestingAfter (nesting : Nat) (kind : TokenKind) : Nat :=
  if kind.isOpening then nesting + 1
  else if kind.isClosing then nesting - 1
  else nesting

def push (layout : Layout) (token : Token) : Layout :=
  { layout with
    tokens := token :: layout.tokens
    nesting := nestingAfter layout.nesting token.kind }

/-- Width that blanks at the start of a line reach: a tabulator goes to the next
multiple of eight, a form feed back to zero. -/
def indentWidth (blanks : List Char) : Nat :=
  blanks.foldl
    (fun width c =>
      if c = '\t' then (width / 8 + 1) * 8
      else if c = '\x0c' then 0
      else width + 1)
    0

/-- Whether nothing but a comment or a line break follows; such lines have no
indentation. -/
def isLineEnd : List Char → Bool
  | [] => true
  | c :: _ => c == '\n' || c == '\r' || c == '#'

/-- Closes the blocks that are wider than `width`. -/
def closeTo (layout : Layout) (width offset : Nat) : Layout :=
  { layout with
    tokens :=
      List.replicate (layout.indents.takeWhile (width < ·)).length (Token.layout .dedent offset) ++
        layout.tokens
    indents := layout.indents.dropWhile (width < ·) }

/-- Opens or closes blocks for a line indented to `width`; a line that closes blocks
must have the width of the block it returns to. -/
def indentTo (layout : Layout) (file : String) (width offset : Nat) : Except Fault Layout :=
  if layout.width < width then
    .ok
      { layout with
        tokens := Token.layout .indent offset :: layout.tokens
        indents := width :: layout.indents }
  else
    let closed := layout.closeTo width offset
    if closed.width = width then .ok closed
    else .error ⟨.inconsistentIndentation width, ⟨offset, file⟩⟩

/-- Measures the line that starts with `blanks` and goes on with `rest`. -/
def beginLine (layout : Layout) (file : String) (blanks rest : List Char) (offset : Nat) :
    Except Fault Layout :=
  if isLineEnd rest then .ok layout
  else layout.indentTo file (indentWidth blanks) (offset + Text.byteLength blanks)

/-- Whether a line break ends a logical line: empty lines and lines that only open
or close blocks have no end. -/
def endsLine : Option TokenKind → Bool
  | none | some .newline | some .indent | some .dedent => false
  | some _ => true

/-- Adds a token for the lexeme `chars` at the byte offset `offset`. -/
def pushLexeme (layout : Layout) (kind : TokenKind) (chars : List Char) (offset : Nat) : Layout :=
  layout.push ⟨kind, String.ofList chars, ⟨offset, offset + Text.byteLength chars⟩⟩

/-- Takes account of a line break at the byte offset `offset`. -/
def breakLine (layout : Layout) (chars : List Char) (offset : Nat) : Layout :=
  if layout.nesting = 0 then
    let ended :=
      if endsLine layout.lastKind? then
        layout.push ⟨.newline, "\n", ⟨offset, offset + Text.byteLength chars⟩⟩
      else
        layout
    { ended with lineStart := true }
  else
    layout

/-- Takes account of a lexeme of the class `cls`. -/
def accept (layout : Layout) (cls : LexemeClass) (chars : List Char) (offset : Nat) : Layout :=
  match cls with
  | .skipped => layout
  | .lineBreak => layout.breakLine chars offset
  | .string => layout.pushLexeme .string chars offset
  | .number => layout.pushLexeme .number chars offset
  | .word => layout.pushLexeme (wordKind (String.ofList chars)) chars offset
  | .mark kind => layout.pushLexeme kind chars offset

/-- Whether the end of the text ends a logical line. -/
def endsText : Option TokenKind → Bool
  | none | some .newline | some .dedent => false
  | some _ => true

/-- Ends the last line and all blocks at the byte offset `offset`. -/
def finish (layout : Layout) (offset : Nat) : List Token :=
  let ended :=
    if endsText layout.lastKind? then Token.layout .newline offset :: layout.tokens
    else layout.tokens
  let dedents := List.replicate (layout.indents.length - 1) (Token.layout .dedent offset)
  (Token.layout .eof offset :: (dedents ++ ended)).reverse

/-- Reads the text `cs`, which starts at the byte offset `offset` of the file. -/
def scanFrom (layout : Layout) (file : String) (offset : Nat) (cs : List Char) :
    Except Fault (List Token) :=
  match cs with
  | [] => .ok (layout.finish offset)
  | c :: rest =>
    if layout.lineStart ∧ layout.nesting = 0 then
      let blanks := (c :: rest).takeWhile Lexeme.isBlank
      let after := (c :: rest).dropWhile Lexeme.isBlank
      match layout.beginLine file blanks after offset with
      | .error fault => .error fault
      | .ok next =>
        { next with lineStart := false }.scanFrom file (offset + Text.byteLength blanks) after
    else
      match _hnext : Lexeme.next? (c :: rest) with
      | none => .error ⟨.unrecognisedToken (String.singleton c), ⟨offset, file⟩⟩
      | some (cls, length) =>
        let chars := (c :: rest).take length
        (layout.accept cls chars offset).scanFrom file (offset + Text.byteLength chars)
          ((c :: rest).drop length)
termination_by (cs.length, if layout.lineStart then 1 else 0)
decreasing_by
  · have hle := List.IsSuffix.length_le (List.dropWhile_suffix Lexeme.isBlank : _ <:+ c :: rest)
    rcases Nat.lt_or_eq_of_le hle with hlt | heq
    · exact Prod.Lex.left _ _ hlt
    · simp_all [Prod.lex_def]
  · have hpos := Lexeme.pos_of_next? _hnext
    apply Prod.Lex.left
    simp only [List.length_drop, List.length_cons]
    omega

end Layout

/-- Name of a text that comes from no file. -/
def unnamedFile : String := "<string>"

/-- The tokens of a text. -/
def Token.scan (source : String) (file : String) : Except Fault (List Token) :=
  Layout.initial.scanFrom file 0 source.toList

end DocSketch
