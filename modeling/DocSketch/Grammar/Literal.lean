import DocSketch.Tree.Expr

/-!
# Literals

* `numberKind`: the type of a number literal, from its text.
* `stringParts`: the type of a string literal and the text between its quotes.
* `joinStrings`: adjacent string literals as one.
-/

namespace DocSketch

/-- Whether the text of a number starts with a zero and a radix letter. -/
def hasRadix : List Char → Bool
  | '0' :: c :: _ => ['x', 'o', 'b'].contains c.toLower
  | _ => false

/-- Type of a number literal: radix literals are integers, and otherwise a final `j`
comes before a point or an exponent. -/
def numberKind (text : String) : NumberKind :=
  let cs := text.toList
  if hasRadix cs then .int
  else if (cs.getLast?.map Char.toLower) = some 'j' then .complex
  else if cs.any fun c => c == '.' || c.toLower == 'e' then .float
  else .int

def isQuote (c : Char) : Bool := c == '\'' || c == '"'

/-- Splits a string literal into the letters before its first quote and the rest; a
text without quotes has no letters. -/
def splitLetters (raw : List Char) : List Char × List Char :=
  if raw.any isQuote then raw.span (!isQuote ·) else ([], raw)

/-- Number of quotes at each end of a string literal. -/
def quoteCount (quoted : List Char) : Nat :=
  if ['"', '"', '"'].isPrefixOf quoted || ['\'', '\'', '\''].isPrefixOf quoted then 3 else 1

/-- Text between the quotes of a string literal; a text too short to have quotes at both
ends is empty. -/
def unquote (quoted : List Char) : List Char :=
  let count := quoteCount quoted
  (Text.slice? ⟨count, Text.byteLength quoted - count⟩ quoted).getD []

/-- Type of a string literal with the given letters before its quotes. -/
def stringKind (letters : List Char) : StringKind :=
  if letters.any (·.toLower == 'b') then .bytes
  else if letters.any (·.toLower == 'f') then .formatted
  else .str

/-- Type and text of a string literal. -/
def stringParts (raw : String) : StringKind × String :=
  let (letters, quoted) := splitLetters raw.toList
  (stringKind letters, String.ofList (unquote quoted))

/-- Joins a string with the literal `raw` after it; a formatted literal makes plain
text formatted. -/
def joinStrings (parts : StringKind × String) (raw : String) : StringKind × String :=
  let (kind, text) := stringParts raw
  (if kind = .formatted ∧ parts.1 = .str then .formatted else parts.1, parts.2 ++ text)

end DocSketch
