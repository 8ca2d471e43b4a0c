import DocSketch.Template.Arena

/-!
# Snippets

Editors read a snippet in which `$n` is a tab stop and `${n:preview}` a tab stop that
shows a preview; a backslash makes `$`, `}` and the backslash stand for themselves.

* `Template.literalSnippet`: text that stands for itself in a snippet.
* `Template.groupForm`: which groups are tab stops.
* `Template.convert`: a numbered template as a snippet.
-/

namespace DocSketch

namespace Template

/-- A character that stands for itself in a snippet. -/
def snippetChar (c : Char) : List Char :=
  if c = '\\' ∨ c = '$' ∨ c = '\x7d' then ['\\', c] else [c]

/-- Text of a template in a snippet: the backslashes of the template go, those that the
snippet needs come. -/
def literalSnippet : List Char → List Char
  | [] => []
  | '\\' :: c :: cs => snippetChar c ++ literalSnippet cs
  | c :: cs => snippetChar c ++ literalSnippet cs

/-- What a group of a numbered template is in a snippet. -/
inductive GroupForm where
  /-- A tab stop. -/
  | stop (digits : List Char)
  /-- A tab stop with a preview that starts with `rest`. -/
  | preview (digits rest : List Char)
  /-- Braces that stand for themselves. -/
  | plain
deriving DecidableEq, Repr, Inhabited

/-- Form of a group that starts with the text `leading` and, unless `isWhole`, goes on
after it: a number alone is a tab stop, and a colon after it starts a preview. -/
def groupForm (leading : List Char) (isWhole : Bool) : GroupForm :=
  let digits := leading.takeWhile Char.isDigit
  if digits.isEmpty then .plain
  else
    match leading.dropWhile Char.isDigit with
    | [] => if isWhole then .stop digits else .plain
    | c :: rest => if c = ':' then .preview digits rest else .plain

/-- A fragment in a snippet. -/
def Fragment.snippet : Fragment → List Char
  | .text chars => literalSnippet chars
  | .rendered chars => chars

/-- Fragments in a snippet, without the first `skip` characters of the text they start with. -/
def snippetFragments (skip : Nat) : List Fragment → List Char
  | .text chars :: fragments =>
    literalSnippet (chars.drop skip) ++ fragments.flatMap Fragment.snippet
  | fragments => fragments.flatMap Fragment.snippet

/-- A group of a numbered template in a snippet. -/
def snippetGroup (fragments : List Fragment) : List Char :=
  match groupForm (leadingFragment fragments) (fragments.length == 1) with
  | .stop digits => ['$'] ++ digits
  | .preview digits _ =>
    ['$', '\x7b'] ++ digits ++ [':'] ++ snippetFragments (digits.length + 1) fragments ++ ['\x7d']
  | .plain => ['\x7b'] ++ snippetFragments 0 fragments ++ ['\x7d']

/-- Makes a snippet of the groups of a numbered template. -/
def snippetRenderer : Arena.Renderer Unit where
  group _ fragments _ := (snippetGroup fragments, ())
  whole := snippetFragments 0

/-- A numbered template as a snippet. -/
def convert (options : TemplateOptions) (text : String) : Except Fault String := do
  let arena ← build options text
  return String.ofList (arena.render snippetRenderer ())

end Template

end DocSketch
