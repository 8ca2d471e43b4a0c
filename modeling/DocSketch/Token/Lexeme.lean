import DocSketch.Text.CharClass
import DocSketch.Token.Kind

/-!
# Lexemes

A lexeme is a stretch of characters that the source language reads as one unit.
Each function below measures, in characters, the lexeme of one class at the start of
a text; `0` says that there is none.

* `Lexeme.stringLength`: string literals with their letters and quotes.
* `Lexeme.numberLength`: number literals of all radices.
* `Lexeme.wordLength`: identifiers and reserved words.
* `Lexeme.next?`: the lexeme a text starts with; of several classes the first wins.
-/

namespace DocSketch

/-- Classes of lexemes. -/
inductive LexemeClass where
  /-- Blanks, continued lines and comments, which leave no token. -/
  | skipped
  | lineBreak
  | string
  | number
  | word
  | mark (kind : TokenKind)
deriving DecidableEq, Repr, Inhabited

namespace Lexeme

def isBlank (c : Char) : Bool := c == ' ' || c == '\t' || c == '\x0c'

def isBreak (c : Char) : Bool := c == '\r' || c == '\n'

def blankLength (cs : List Char) : Nat := (cs.takeWhile isBlank).length

/-- A backslash with the line break it hides. -/
def continuationLength : List Char → Nat
  | '\\' :: '\n' :: _ => 2
  | '\\' :: '\r' :: '\n' :: _ => 3
  | _ => 0

/-- A comment, up to the end of its line. -/
def commentLength : List Char → Nat
  | '#' :: cs => 1 + (cs.takeWhile fun c => !isBreak c).length
  | _ => 0

/-- A line break of one or two characters. -/
def lineBreakLength : List Char → Nat
  | '\n' :: _ => 1
  | '\r' :: '\n' :: _ => 2
  | _ => 0

/-- Letters that may stand before the quotes of a string. -/
def isStringLetter (c : Char) : Bool :=
  ['r', 'R', 'b', 'B', 'u', 'U', 'f', 'F'].contains c

/-- Body of a string in triple quotes `q`, up to and including the first three
quotes in a row; it may span lines. -/
def tripleBody? (q : Char) : List Char → Option Nat
  | [] => none
  | c :: cs =>
    if [q, q, q].isPrefixOf (c :: cs) then some 3
    else (tripleBody? q cs).map (· + 1)

/-- Body of a string in single quotes `q`, up to and including the closing quote; a
backslash takes the next character with it, and the line must not end. -/
def quotedBody? (q : Char) : List Char → Option Nat
  | [] => none
  | [c] => if c = q then some 1 else none
  | c :: d :: ds =>
    if c = q then some 1
    else if c = '\\' then
      if d = '\n' then none else (quotedBody? q ds).map (· + 2)
    else if isBreak c then none
    else (quotedBody? q (d :: ds)).map (· + 1)

/-- A string from its opening quote on; three quotes without their closing
counterpart are an empty string and the start of another. -/
def quoted? : List Char → Option Nat
  | [] => none
  | q :: cs =>
    if q = '"' ∨ q = '\'' then
      let single := (quotedBody? q cs).map (· + 1)
      if [q, q].isPrefixOf cs then
        ((tripleBody? q (cs.drop 2)).map (· + 3)).or single
      else
        single
    else
      none

/-- A string with at most two letters before its quotes. -/
def stringLength (cs : List Char) : Nat :=
  let letters := (cs.takeWhile isStringLetter).length
  if letters ≤ 2 then
    match quoted? (cs.drop letters) with
    | some n => letters + n
    | none => 0
  else
    0

/-- Decimal digits with the underscores that may group them. -/
def isDigitPart (c : Char) : Bool := c.isDigit || c == '_'

/-- Digits of the radix that the letter `c` after a zero announces. -/
def radixDigit? (c : Char) : Option (Char → Bool) :=
  if c = 'x' ∨ c = 'X' then
    some fun d => isDigitPart d || ('a' ≤ d && d ≤ 'f') || ('A' ≤ d && d ≤ 'F')
  else if c = 'o' ∨ c = 'O' then some fun d => ('0' ≤ d && d ≤ '7') || d == '_'
  else if c = 'b' ∨ c = 'B' then some fun d => d == '0' || d == '1' || d == '_'
  else none

/-- An integer with a radix letter and at least one digit. -/
def radixLength : List Char → Nat
  | '0' :: c :: cs =>
    match radixDigit? c with
    | some isRadixDigit =>
      let digits := (cs.takeWhile isRadixDigit).length
      if digits = 0 then 0 else 2 + digits
    | none => 0
  | _ => 0

/-- A decimal point with the digits after it. -/
def fractionLength : List Char → Nat
  | '.' :: cs => 1 + (cs.takeWhile isDigitPart).length
  | _ => 0

/-- Digits with an optional fraction, or a fraction with at least one digit. -/
def mantissaLength : List Char → Nat
  | [] => 0
  | c :: cs =>
    if c.isDigit then
      let digits := (cs.takeWhile isDigitPart).length
      1 + digits + fractionLength (cs.drop digits)
    else if c = '.' then
      match cs with
      | d :: ds => if d.isDigit then 2 + (ds.takeWhile isDigitPart).length else 0
      | [] => 0
    else
      0

/-- An exponent with an optional sign and at least one digit. -/
def exponentLength : List Char → Nat
  | [] => 0
  | c :: cs =>
    if c = 'e' ∨ c = 'E' then
      let sign := if cs.head? = some '+' ∨ cs.head? = some '-' then 1 else 0
      let digits := ((cs.drop sign).takeWhile isDigitPart).length
      if digits = 0 then 0 else 1 + sign + digits
    else
      0

def imaginaryLength : List Char → Nat
  | c :: _ => if c = 'j' ∨ c = 'J' then 1 else 0
  | [] => 0

/-- A decimal number with its exponent and imaginary letter. -/
def decimalLength (cs : List Char) : Nat :=
  let mantissa := mantissaLength cs
  if mantissa = 0 then 0
  else
    let number := mantissa + exponentLength (cs.drop mantissa)
    number + imaginaryLength (cs.drop number)

def numberLength (cs : List Char) : Nat :=
  if radixLength cs = 0 then decimalLength cs else radixLength cs

def isWordStart (c : Char) : Bool := Text.isLetter c || c == '_'

def isWordPart (c : Char) : Bool := Text.isLetter c || Text.isNumeral c || c == '_'

def wordLength : List Char → Nat
  | [] => 0
  | c :: cs => if isWordStart c then 1 + (cs.takeWhile isWordPart).length else 0

/-- The first mark, in the order of `marks`, that the text starts with. -/
def mark? (cs : List Char) : Option (LexemeClass × Nat) :=
  (marks.find? fun mark => mark.1.toList.isPrefixOf cs).map fun mark =>
    (.mark mark.2, mark.1.length)

/-- A lexeme of the class `cls` and length `length`, unless it is empty. -/
def sized (cls : LexemeClass) (length : Nat) : Option (LexemeClass × Nat) :=
  if length = 0 then none else some (cls, length)

/-- The lexeme that the text starts with, and its length in characters. -/
def next? (cs : List Char) : Option (LexemeClass × Nat) :=
  sized .skipped (blankLength cs) <|>
  sized .skipped (continuationLength cs) <|>
  sized .skipped (commentLength cs) <|>
  sized .lineBreak (lineBreakLength cs) <|>
  sized .string (stringLength cs) <|>
  sized .number (numberLength cs) <|>
  sized .word (wordLength cs) <|>
  mark? cs

/-- A lexeme of some size is not empty. -/
theorem pos_of_sized {cls k : LexemeClass} {length n : Nat}
    (h : sized cls length = some (k, n)) : 0 < n := by
  unfold sized at h
  split at h
  · exact absurd h (by simp)
  · simp only [Option.some.injEq, Prod.mk.injEq] at h
    omega

theorem length_pos_of_mem_marks : ∀ mark ∈ marks, 0 < mark.1.length := by
  decide

theorem pos_of_mark? {cs : List Char} {k : LexemeClass} {n : Nat}
    (h : mark? cs = some (k, n)) : 0 < n := by
  unfold mark? at h
  rw [Option.map_eq_some_iff] at h
  obtain ⟨mark, hmark, heq⟩ := h
  have hpos := length_pos_of_mem_marks mark (List.mem_of_find?_eq_some hmark)
  simp only [Prod.mk.injEq] at heq
  omega

/-- Every lexeme has at least one character. -/
theorem pos_of_next? {cs : List Char} {k : LexemeClass} {n : Nat}
    (h : next? cs = some (k, n)) : 0 < n := by
  simp only [next?, Option.orElse_eq_orElse, Option.orElse_eq_or, Option.or_eq_some_iff] at h
  rcases h with h | ⟨-, h | ⟨-, h | ⟨-, h | ⟨-, h | ⟨-, h | ⟨-, h | ⟨-, h⟩⟩⟩⟩⟩⟩⟩
  all_goals first
    | exact pos_of_sized h
    | exact pos_of_mark? h

end Lexeme

end DocSketch
