import DocSketch.Text.CharClass

/-!
# Quoted text

A text quoted for a message stands between double quotes.  The quote itself, the
backslash and the usual line characters are written with a backslash; any other
character without a visible mark is written as its code point in braces.

* `Text.quoteChar`: the written form of one character.
* `Text.quote`: the written form of a whole text, with its quotes.
-/

namespace DocSketch

namespace Text

/-- Written form of one character inside double quotes. -/
def quoteChar (c : Char) : List Char :=
  if c = '\x00' then ['\\', '0']
  else if c = '\t' then ['\\', 't']
  else if c = '\r' then ['\\', 'r']
  else if c = '\n' then ['\\', 'n']
  else if c = '"' then ['\\', '"']
  else if c = '\\' then ['\\', '\\']
  else if isHidden c then ['\\', 'u', '\x7b'] ++ Nat.toDigits 16 c.toNat ++ ['\x7d']
  else [c]

/-- Written form of a text between double quotes. -/
def quote (text : String) : String :=
  String.ofList (['"'] ++ text.toList.flatMap quoteChar ++ ['"'])

end Text

end DocSketch
