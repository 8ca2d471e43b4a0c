/-!
# Formats of types

* `TypeFormat`: the texts that stand between and around the parts of a written type.
-/

namespace DocSketch

/-- Texts used to write types. -/
structure TypeFormat where
  /-- Opens the list of element types. -/
  wrapOpen : String := "["
  /-- Closes the list of element types. -/
  wrapClose : String := "]"
  /-- Stands between alternatives. -/
  alternativesJoin : String := " or "
  /-- Stands between the keys and the values of a mapping. -/
  mappingJoin : String := ", "
  /-- Opens the name of a type that is not built in. -/
  foreignOpen : String := "<"
  /-- Closes the name of a type that is not built in. -/
  foreignClose : String := ">"
deriving DecidableEq, Repr, Inhabited

end DocSketch
