import DocSketch.Text.Span
import DocSketch.Token.Kind

/-!
# Tokens

* `Token`: a kind, the text it was written with and its span.
* `Token.describe`: how messages about unexpected tokens call it.
* `Token.display`: the token with its kind, on several lines.
-/

namespace DocSketch

/-- A token of the source language. -/
structure Token where
  kind : TokenKind
  value : String
  span : Span
deriving DecidableEq, Repr, Inhabited

namespace Token

/-- Name of a token in messages: layout tokens have no text of their own. -/
def describe (token : Token) : String :=
  match token.kind with
  | .newline => "newline"
  | .indent => "indent"
  | .dedent => "dedent"
  | .eof => "end of file"
  | _ => token.value

def display (token : Token) : String :=
  "Token \x7b\nkind: " ++ token.kind.name ++ ",\nvalue: " ++ token.value ++ "\x7d"

/-- A token without text at the byte offset `offset`. -/
def layout (kind : TokenKind) (offset : Nat) : Token :=
  ⟨kind, "", ⟨offset, offset⟩⟩

end Token

end DocSketch
