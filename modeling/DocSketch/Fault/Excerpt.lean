import DocSketch.Fault.Basic
import DocSketch.Text.Line

/-!
# Excerpts

A fault is shown with the line it points into and a caret under the place:

```text
Error: name (tip)
-> main.py
   |
20 | x = $
   | ----^
```

* `Fault.excerpt`: the whole display.
-/

namespace DocSketch

/-- Blanks and tabulators, which are left out at the start of a shown line. -/
def isIndentation (c : Char) : Bool := c == ' ' || c == '\t'

/-- First line of an excerpt: the kind of fault and its tip. -/
def Fault.headline (fault : Fault) : String :=
  match fault.cause.tip? with
  | none => s!"Error: {fault.cause.name}\n"
  | some tip => s!"Error: {fault.cause.name} ({tip})\n"

/-- The bar of an excerpt line without a number, `width` columns wide. -/
def gutter (width : Nat) : List Char :=
  List.replicate (width - 1) ' ' ++ ['|']

/-- Dashes up to the caret; columns count from the first character that is shown. -/
def pointer (point : LinePoint) : List Char :=
  let removed := Text.byteLength (point.text.takeWhile isIndentation)
  List.replicate (point.column - removed) '-' ++ ['^']

/-- The three source lines of an excerpt. -/
def LinePoint.excerpt (point : LinePoint) : List Char :=
  let number := (toString point.number).toList
  let width := number.length + 2
  gutter width ++ ['\n'] ++
    number ++ [' ', '|', ' '] ++ Text.trimEnd (point.text.dropWhile isIndentation) ++ ['\n'] ++
    gutter width ++ [' '] ++ pointer point ++ ['\n']

/-- A fault with the line of `source` it points into, for the file named `file`. -/
def Fault.excerpt (fault : Fault) (file source : String) : String :=
  fault.headline ++ s!"-> {file}\n" ++
    String.ofList (lineAt source fault.position.offset).excerpt

end DocSketch
