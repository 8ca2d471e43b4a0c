import DocSketch.Template.Arena
import DocSketch.Text.Affix
import DocSketch.Text.CharClass

/-!
# Numbering of fields

Every field of a template gets a number.  Fields with the same name share one, and
fields without a name have one each.  Fields inside a field are numbered before it.

* `Numbering`: the numbers that are in use.
* `Numbering.numberFor`: the number of a field, a new one if it has none yet.
* `Template.number`: a template with its fields numbered.
-/

namespace DocSketch

/-- What two fields with the same number have in common. -/
inductive FieldKey where
  | named (name : String)
  /-- A field of its own. -/
  | anonymous (id : Nat)
deriving DecidableEq, Repr, Inhabited

/-- Numbers in use. -/
structure Numbering where
  /-- Keys with their numbers, the latest first. -/
  numbers : List (FieldKey × Nat)
  /-- Number of anonymous keys handed out. -/
  minted : Nat
deriving DecidableEq, Repr, Inhabited

namespace Numbering

def empty : Numbering := ⟨[], 0⟩

def mint (numbering : Numbering) : FieldKey × Numbering :=
  (.anonymous (numbering.minted + 1), { numbering with minted := numbering.minted + 1 })

/-- The highest number in use, zero if there is none. -/
def highest (numbering : Numbering) : Nat :=
  numbering.numbers.foldr (fun entry bound => max entry.2 bound) 0

/-- Number of a key; a new key gets the number after the highest one. -/
def numberFor (numbering : Numbering) (key : FieldKey) : Nat × Numbering :=
  match numbering.numbers.lookup key with
  | some number => (number, numbering)
  | none =>
    let number := numbering.highest + 1
    (number, { numbering with numbers := (key, number) :: numbering.numbers })

def size (numbering : Numbering) : Nat := numbering.numbers.length

end Numbering

namespace Template

/-- Splits the content of a field into its name and its preview at the first colon of
the text it starts with; without a colon there is no name. -/
def splitName (leading body : List Char) : List Char × List Char :=
  if leading.contains ':' then
    let length := (leading.takeWhile (· != ':')).length
    (body.take length, body.drop (length + 1))
  else
    ([], body)

/-- Key of a field with the given name; blanks around a name do not count. -/
def fieldKey (numbering : Numbering) (name : List Char) : FieldKey × Numbering :=
  let trimmed := Text.trim name
  if trimmed.isEmpty then numbering.mint else (.named (String.ofList trimmed), numbering)

def writeField (number : Nat) (preview : List Char) : List Char :=
  let digits := (toString number).toList
  if preview.isEmpty then ['\x7b'] ++ digits ++ ['\x7d']
  else ['\x7b'] ++ digits ++ [':'] ++ preview ++ ['\x7d']

/-- Numbers a field with the given numbered content, which starts with `leading`. -/
def numberField (options : TemplateOptions) (numbering : Numbering) (leading content : List Char) :
    List Char × Numbering :=
  let body := (Text.stripEnd? options.fieldMarker.toList content).getD content
  let (name, preview) := splitName leading body
  let (key, minted) := fieldKey numbering name
  let (number, used) := minted.numberFor key
  (writeField number preview, used)

/-- A group that is no field: a number stays bare, and other content stands between
braces that count as text. -/
def writePlain (content : List Char) : List Char :=
  if !content.isEmpty && content.all Char.isDigit then content
  else ['\\', '\x7b'] ++ content ++ ['\\', '\x7d']

/-- Numbers the groups of a template. -/
def numberRenderer (options : TemplateOptions) : Arena.Renderer Numbering where
  group isField fragments numbering :=
    let content := fragments.flatMap Fragment.chars
    if isField then numberField options numbering (leadingFragment fragments) content
    else (writePlain content, numbering)
  whole fragments := fragments.flatMap Fragment.chars

/-- A template with its fields numbered. -/
def number (options : TemplateOptions) (text : String) : Except Fault String := do
  let arena ← build options text
  return String.ofList (arena.render (numberRenderer options) Numbering.empty)

end Template

end DocSketch
