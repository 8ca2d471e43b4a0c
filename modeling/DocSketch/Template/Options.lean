import DocSketch.Types.Format

/-!
# Options of templates

* `TemplateOptions`: the mark of fields and the marks around opaque text.
* `Template.escape`: a text written so that it stands for itself in a template.
-/

namespace DocSketch

/-- Texts with a meaning in templates. -/
structure TemplateOptions where
  /-- Ends the content of a field. -/
  fieldMarker : String := "!f"
  /-- Opens text in which braces do not count. -/
  opaqueOpen : String := "<"
  /-- Closes text in which braces do not count. -/
  opaqueClose : String := ">"
deriving DecidableEq, Repr, Inhabited

/-- Options under which the names of types that are not built in are opaque. -/
def TemplateOptions.ofFormat (format : TypeFormat) : TemplateOptions :=
  { opaqueOpen := format.foreignOpen, opaqueClose := format.foreignClose }

namespace Template

/-- Whether the text starts with something that has a meaning in templates. -/
def isSpecial (options : TemplateOptions) (c : Char) (rest : List Char) : Bool :=
  c == '\\' || c == '\x7b' || c == '\x7d' ||
    [options.opaqueOpen.toList, options.opaqueClose.toList].any fun marker =>
      !marker.isEmpty && marker.isPrefixOf (c :: rest)

/-- Puts a backslash before everything that has a meaning in templates. -/
def escapeChars (options : TemplateOptions) : List Char → List Char
  | [] => []
  | c :: cs =>
    if isSpecial options c cs then '\\' :: c :: escapeChars options cs
    else c :: escapeChars options cs

/-- A text written so that it stands for itself in a template. -/
def escape (options : TemplateOptions) (text : String) : String :=
  String.ofList (escapeChars options text.toList)

end Template

end DocSketch
