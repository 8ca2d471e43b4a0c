/-!
# Token kinds

* `TokenKind`: the kinds of tokens of the source language.
* `TokenKind.name`: how messages name a kind.
* `reservedWords`, `marks`: the fixed spellings, marks in the order in which they
  are tried.
-/

namespace DocSketch

/-- Kinds of tokens: literals and names, layout, marks, and reserved words. -/
inductive TokenKind where
  | eof | number | string | identifier | newline | indent | dedent
  | openBracket | closeBracket | openCurly | closeCurly | openParen | closeParen | assignment
  | equals | notEquals | less | lessEquals | greater | greaterEquals | dot | ellipsis | semicolon
  | colon | comma | arrow | atSign | plusEquals | minusEquals | starEquals | slashEquals
  | doubleSlashEquals | percentEquals | powerEquals | ampersandEquals | pipeEquals | caretEquals
  | shiftLeftEquals | shiftRightEquals | atEquals | plus | dash | slash | doubleSlash | star
  | power | percent | ampersand | pipe | caret | tilde | shiftLeft | shiftRight
  | defKw | classKw | returnKw | yieldKw | raiseKw | importKw | fromKw | asKw | ifKw | elifKw
  | elseKw | forKw | whileKw | inKw | isKw | notKw | andKw | orKw | withKw | tryKw | exceptKw
  | finallyKw | lambdaKw | passKw | breakKw | continueKw | globalKw | nonlocalKw | delKw
  | assertKw | asyncKw | awaitKw | trueKw | falseKw | noneKw
deriving DecidableEq, Repr, Inhabited

namespace TokenKind

def all : List TokenKind :=
  [eof, number, string, identifier, newline, indent, dedent, openBracket, closeBracket,
   openCurly, closeCurly, openParen, closeParen, assignment, equals, notEquals, less, lessEquals,
   greater, greaterEquals, dot, ellipsis, semicolon, colon, comma, arrow, atSign, plusEquals,
   minusEquals, starEquals, slashEquals, doubleSlashEquals, percentEquals, powerEquals,
   ampersandEquals, pipeEquals, caretEquals, shiftLeftEquals, shiftRightEquals, atEquals, plus,
   dash, slash, doubleSlash, star, power, percent, ampersand, pipe, caret, tilde, shiftLeft,
   shiftRight, defKw, classKw, returnKw, yieldKw, raiseKw, importKw, fromKw, asKw, ifKw, elifKw,
   elseKw, forKw, whileKw, inKw, isKw, notKw, andKw, orKw, withKw, tryKw, exceptKw, finallyKw,
   lambdaKw, passKw, breakKw, continueKw, globalKw, nonlocalKw, delKw, assertKw, asyncKw,
   awaitKw, trueKw, falseKw, noneKw]

def name : TokenKind → String
  | eof => "EOF"
  | number => "Number"
  | string => "String"
  | identifier => "Identifier"
  | newline => "Newline"
  | indent => "Indent"
  | dedent => "Dedent"
  | openBracket => "OpenBracket"
  | closeBracket => "CloseBracket"
  | openCurly => "OpenCurly"
  | closeCurly => "CloseCurly"
  | openParen => "OpenParen"
  | closeParen => "CloseParen"
  | assignment => "Assignment"
  | equals => "Equals"
  | notEquals => "NotEquals"
  | less => "Less"
  | lessEquals => "LessEquals"
  | greater => "Greater"
  | greaterEquals => "GreaterEquals"
  | dot => "Dot"
  | ellipsis => "Ellipsis"
  | semicolon => "Semicolon"
  | colon => "Colon"
  | comma => "Comma"
  | arrow => "Arrow"
  | atSign => "At"
  | plusEquals => "PlusEquals"
  | minusEquals => "MinusEquals"
  | starEquals => "StarEquals"
  | slashEquals => "SlashEquals"
  | doubleSlashEquals => "DoubleSlashEquals"
  | percentEquals => "PercentEquals"
  | powerEquals => "PowerEquals"
  | ampersandEquals => "AmpersandEquals"
  | pipeEquals => "PipeEquals"
  | caretEquals => "CaretEquals"
  | shiftLeftEquals => "ShiftLeftEquals"
  | shiftRightEquals => "ShiftRightEquals"
  | atEquals => "AtEquals"
  | plus => "Plus"
  | dash => "Dash"
  | slash => "Slash"
  | doubleSlash => "DoubleSlash"
  | star => "Star"
  | power => "Power"
  | percent => "Percent"
  | ampersand => "Ampersand"
  | pipe => "Pipe"
  | caret => "Caret"
  | tilde => "Tilde"
  | shiftLeft => "ShiftLeft"
  | shiftRight => "ShiftRight"
  | defKw => "Def"
  | classKw => "Class"
  | returnKw => "Return"
  | yieldKw => "Yield"
  | raiseKw => "Raise"
  | importKw => "Import"
  | fromKw => "From"
  | asKw => "As"
  | ifKw => "If"
  | elifKw => "Elif"
  | elseKw => "Else"
  | forKw => "For"
  | whileKw => "While"
  | inKw => "In"
  | isKw => "Is"
  | notKw => "Not"
  | andKw => "And"
  | orKw => "Or"
  | withKw => "With"
  | tryKw => "Try"
  | exceptKw => "Except"
  | finallyKw => "Finally"
  | lambdaKw => "Lambda"
  | passKw => "Pass"
  | breakKw => "Break"
  | continueKw => "Continue"
  | globalKw => "Global"
  | nonlocalKw => "Nonlocal"
  | delKw => "Del"
  | assertKw => "Assert"
  | asyncKw => "Async"
  | awaitKw => "Await"
  | trueKw => "True"
  | falseKw => "False"
  | noneKw => "None"

def ofName? (text : String) : Option TokenKind :=
  all.find? fun kind => kind.name == text

/-- Assignments that combine a target with a value, such as `+=`. -/
def isAugmentedAssignment : TokenKind → Bool
  | plusEquals | minusEquals | starEquals | slashEquals | doubleSlashEquals | percentEquals
  | powerEquals | ampersandEquals | pipeEquals | caretEquals | shiftLeftEquals
  | shiftRightEquals | atEquals => true
  | _ => false

/-- Operators whose result is always a truth value. -/
def isRelationalOrLogical : TokenKind → Bool
  | equals | notEquals | less | lessEquals | greater | greaterEquals | inKw | isKw | notKw
  | andKw | orKw => true
  | _ => false

def isOpening : TokenKind → Bool
  | openParen | openBracket | openCurly => true
  | _ => false

def isClosing : TokenKind → Bool
  | closeParen | closeBracket | closeCurly => true
  | _ => false

end TokenKind

/-- Words that are not identifiers, with their kinds. -/
def reservedWords : List (String × TokenKind) :=
  [("def", .defKw), ("class", .classKw), ("return", .returnKw), ("yield", .yieldKw),
   ("raise", .raiseKw), ("import", .importKw), ("from", .fromKw), ("as", .asKw), ("if", .ifKw),
   ("elif", .elifKw), ("else", .elseKw), ("for", .forKw), ("while", .whileKw), ("in", .inKw),
   ("is", .isKw), ("not", .notKw), ("and", .andKw), ("or", .orKw), ("with", .withKw),
   ("try", .tryKw), ("except", .exceptKw), ("finally", .finallyKw), ("lambda", .lambdaKw),
   ("pass", .passKw), ("break", .breakKw), ("continue", .continueKw), ("global", .globalKw),
   ("nonlocal", .nonlocalKw), ("del", .delKw), ("assert", .assertKw), ("async", .asyncKw),
   ("await", .awaitKw), ("True", .trueKw), ("False", .falseKw), ("None", .noneKw)]

/-- Operators and punctuation in the order in which they are tried; a mark comes
before the marks that it starts with. -/
def marks : List (String × TokenKind) :=
  [("...", .ellipsis), ("**=", .powerEquals), ("//=", .doubleSlashEquals),
   ("<<=", .shiftLeftEquals), (">>=", .shiftRightEquals), ("->", .arrow), ("**", .power),
   ("//", .doubleSlash), ("==", .equals), ("!=", .notEquals), ("<=", .lessEquals),
   (">=", .greaterEquals), ("<<", .shiftLeft), (">>", .shiftRight), ("+=", .plusEquals),
   ("-=", .minusEquals), ("*=", .starEquals), ("/=", .slashEquals), ("%=", .percentEquals),
   ("&=", .ampersandEquals), ("|=", .pipeEquals), ("^=", .caretEquals), ("@=", .atEquals),
   ("(", .openParen), (")", .closeParen), ("[", .openBracket), ("]", .closeBracket),
   ("\x7b", .openCurly), ("\x7d", .closeCurly), (",", .comma), (":", .colon), (";", .semicolon),
   (".", .dot), ("=", .assignment), ("<", .less), (">", .greater), ("+", .plus), ("-", .dash),
   ("*", .star), ("/", .slash), ("%", .percent), ("&", .ampersand), ("|", .pipe), ("^", .caret),
   ("~", .tilde), ("@", .atSign)]

/-- Kind of a word: reserved, or else an identifier. -/
def wordKind (word : String) : TokenKind :=
  (reservedWords.lookup word).getD .identifier

end DocSketch
