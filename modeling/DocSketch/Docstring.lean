import DocSketch.Resolution.Resolver
import DocSketch.Template.Numbering
import DocSketch.Template.Snippet

/-!
# Docstrings

The docstring of a function has a summary, and sections for its arguments, for what it
returns and yields, and for what it raises.  Its template has a field for each type, which
shows the type that was found, and a field for each description.

* `Source.template`: the template of a function.
* `Source.rendered`: the template with numbered fields, and the snippet made of it.
* `Source.renderAll`: this for one function or for all functions of a text.
-/

namespace DocSketch

/-- A template and what is made of it. -/
structure Rendered where
  /-- Qualified name of the function. -/
  function : String
  template : String
  numbered : String
  snippet : String
deriving DecidableEq, Repr, Inhabited

namespace Docstring

/-- Indentation of the items of a section. -/
def indentation : String := "    "

/-- A field to be filled in. -/
def blankField : String := "\x7b!f\x7d"

/-- A field that shows `preview`, which must stand for itself in a template. -/
def field (preview : String) : String :=
  if preview.isEmpty then blankField else "\x7b:" ++ preview ++ "!f\x7d"

/-- An item of a section: what it is about, and a field for its description. -/
def item (subject : String) : String :=
  indentation ++ subject ++ ": " ++ blankField ++ ".\n"

/-- A section with its title. -/
def titled (title : String) (items : List String) : String :=
  title ++ ":\n" ++ String.join items

/-- Name of a parameter with its stars. -/
def starredName (parameter : Parameter Expr) : String :=
  match parameter.kind with
  | .varPositional => "*" ++ parameter.name
  | .varKeyword => "**" ++ parameter.name
  | .positional | .keywordOnly => parameter.name

/-- Parameters to be documented: all but the receiver of a method. -/
def documented : List (Parameter Expr) → List (Parameter Expr)
  | [] => []
  | first :: others =>
    if first.name = "self" ∨ first.name = "cls" then others else first :: others

/-- Lets `fallback` stand in for a result that a recoverable fault prevents. -/
def recover {α : Type} (fallback : α) : Except Fault α → Except Fault α
  | .ok value => .ok value
  | .error fault => if fault.isRecoverable then .ok fallback else .error fault

end Docstring

open Docstring

namespace Source

/-- A text of this source written so that it stands for itself in a template. -/
def literal (context : ResolutionContext) (text : String) : String :=
  Template.escape (TemplateOptions.ofFormat context.format) text

/-- The type of an expression, or the expression itself if it has none. -/
def typeOrText (source : Source) (context : ResolutionContext) (scope : ScopeId) (e : Expr) :
    Except Fault Descriptor :=
  recover (.unresolved (source.textOf e.span)) (source.typeOf context scope e)

/-- What is known about the type of a parameter, for a template: its annotation, the type
of its default in the scope around the function, or nothing. -/
def parameterType (source : Source) (context : ResolutionContext) (outer : ScopeId)
    (parameter : Parameter Expr) : Except Fault String :=
  match parameter.annotation, parameter.default with
  | some annotation, _ => .ok (literal context (source.textOf annotation.span))
  | none, some default => do
    let type ← source.typeOrText context outer default
    return type.renderWith context.format (literal context)
  | none, none => .ok ""

def parameterItem (source : Source) (context : ResolutionContext) (outer : ScopeId)
    (parameter : Parameter Expr) : Except Fault String := do
  let type ← source.parameterType context outer parameter
  return item (starredName parameter ++ " (" ++ field type ++ ")")

/-- The section of the parameters, if there are any. -/
def argsSection (source : Source) (context : ResolutionContext) (outer : ScopeId)
    (parameters : List (Parameter Expr)) : Except Fault (List String) := do
  let items ← (documented parameters).mapM (source.parameterItem context outer)
  return if items.isEmpty then [] else [titled "Args" items]

/-- The types of exits, each resolved on its own and added to `found`. -/
def sectionTypes (source : Source) (context : ResolutionContext) (scope : ScopeId)
    (found : Alternatives) : List Expr → Except Fault Alternatives
  | [] => .ok found
  | exit :: others => do
    let types ←
      recover [.unresolved (source.textOf exit.span)] (source.exitTypes context scope [exit])
    source.sectionTypes context scope (Alternatives.extend found types) others

/-- The section of exits, if there are any; with `omitNone` there is none either if all
that is known of them is `None`. -/
def exitsSection (source : Source) (context : ResolutionContext) (scope : ScopeId)
    (title : String) (omitNone : Bool) (exits : List Expr) : Except Fault (List String) :=
  if exits.isEmpty then .ok []
  else do
    let types ← source.sectionTypes context scope [] exits
    if omitNone ∧ Alternatives.render context.format types = "None" then
      return []
    else
      let preview := Alternatives.renderWith context.format (literal context) types
      return [titled title [item (field preview)]]

/-- The types of raised expressions, added to `found`. -/
def raisedTypes (source : Source) (context : ResolutionContext) (scope : ScopeId)
    (found : Alternatives) : List Expr → Except Fault Alternatives
  | [] => .ok found
  | raised :: others => do
    let type ← source.typeOrText context scope raised
    source.raisedTypes context scope (Alternatives.add found type) others

/-- The section of raised exceptions, if there are any. -/
def raisesSection (source : Source) (context : ResolutionContext) (scope : ScopeId)
    (raises : List Expr) : Except Fault (List String) := do
  let types ← source.raisedTypes context scope [] raises
  let items := types.map fun type => item (field (type.renderWith context.format (literal context)))
  return if items.isEmpty then [] else [titled "Raises" items]

/-- The template of the function `scope`. -/
def template (source : Source) (context : ResolutionContext) (scope : ScopeId) :
    Except Fault String := do
  let found := source.scopes.get scope
  match found.signature with
  | none =>
    throw ⟨.functionNotFound (source.scopes.qualifiedName scope), ⟨found.span.start, source.file⟩⟩
  | some signature =>
    let args ← source.argsSection context (found.parent.getD 0) signature.parameters
    let returns ← source.exitsSection context scope "Returns" true found.returns
    let yields ← source.exitsSection context scope "Yields" false found.yields
    let raises ← source.raisesSection context scope found.raises
    return "\n".intercalate ((blankField ++ ".\n") :: (args ++ returns ++ yields ++ raises))

/-- The template of the function `scope` and what is made of it. -/
def rendered (source : Source) (context : ResolutionContext) (scope : ScopeId) :
    Except Fault Rendered := do
  let options := TemplateOptions.ofFormat context.format
  let template ← source.template context scope
  let numbered ← Template.number options template
  let snippet ← Template.convert options numbered
  return ⟨source.scopes.qualifiedName scope, template, numbered, snippet⟩

/-- The scopes that a request is about: the function with the given name, or all. -/
def requested (source : Source) : Option String → Except Fault (List ScopeId)
  | none => .ok source.scopes.functions
  | some name =>
    match source.scopes.findFunction? name with
    | some scope => .ok [scope]
    | none => .error ⟨.functionNotFound name, ⟨0, source.file⟩⟩

/-- Templates of the function with the given name, or of all functions in source order. -/
def renderAll (source : Source) (context : ResolutionContext) (function : Option String) :
    Except Fault (List Rendered) := do
  let scopes ← source.requested function
  scopes.mapM (source.rendered context)

end Source

end DocSketch
