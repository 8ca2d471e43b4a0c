import DocSketch.Text.Affix
import DocSketch.Types.Format

/-!
# Type descriptors

* `Descriptor`: what is known about the type of an expression.
* `Alternatives`: types that an expression can have, without repetition and in the
  order in which they were found.
* `Alternatives.add`: adds a type; containers of the same name become one, and so do
  mappings.
* `Descriptor.renderWith`, `Alternatives.renderWith`: the written form.
-/

namespace DocSketch

/-- What is known about the type of an expression. -/
inductive Descriptor where
  | leaf (name : String)
  /-- A container and the types of its elements. -/
  | container (name : String) (children : List Descriptor)
  /-- A mapping with the types of its keys and of its values. -/
  | mapping (keys values : List Descriptor)
  /-- The source text of an expression without a known type. -/
  | unresolved (text : String)
  /-- The name of a type that is not built in, with the marks around it. -/
  | foreign (text : String)
deriving Repr, Inhabited

/-- Types that an expression can have, first found first. -/
abbrev Alternatives := List Descriptor

namespace Descriptor

mutual

def same : Descriptor → Descriptor → Bool
  | leaf a, leaf b => a == b
  | container a xs, container b ys => a == b && sameAll xs ys
  | mapping ks vs, mapping ls ws => sameAll ks ls && sameAll vs ws
  | unresolved a, unresolved b => a == b
  | foreign a, foreign b => a == b
  | _, _ => false

/-- Whether two lists of descriptors are the same, order included. -/
def sameAll : List Descriptor → List Descriptor → Bool
  | [], [] => true
  | x :: xs, y :: ys => same x y && sameAll xs ys
  | _, _ => false

end

mutual

/-- The test for equal types is equality. -/
theorem same_iff : ∀ x y : Descriptor, same x y = true ↔ x = y
  | leaf a, y => by cases y <;> simp [same]
  | container a xs, y => by
    cases y with
    | container b ys => simp [same, sameAll_iff xs ys]
    | _ => simp [same]
  | mapping ks vs, y => by
    cases y with
    | mapping ls ws => simp [same, sameAll_iff ks ls, sameAll_iff vs ws]
    | _ => simp [same]
  | unresolved a, y => by cases y <;> simp [same]
  | foreign a, y => by cases y <;> simp [same]

/-- The test for equal lists of types is equality. -/
theorem sameAll_iff : ∀ xs ys : List Descriptor, sameAll xs ys = true ↔ xs = ys
  | [], [] => by simp [sameAll]
  | [], _ :: _ => by simp [sameAll]
  | _ :: _, [] => by simp [sameAll]
  | x :: xs, y :: ys => by simp [sameAll, same_iff x y, sameAll_iff xs ys]

end

instance : DecidableEq Descriptor := fun x y =>
  decidable_of_iff (same x y = true) (same_iff x y)

/-- Name of a leaf or a container; mappings are called `dict`. -/
def typeName? : Descriptor → Option String
  | leaf name => some name
  | container name _ => some name
  | mapping .. => some "dict"
  | unresolved _ | foreign _ => none

end Descriptor

namespace Alternatives

/-- Applies `change` to the element types of the first container called `name`, if there
is one. -/
def mergeContainer? (name : String) (change : Alternatives → Alternatives) :
    Alternatives → Option Alternatives
  | [] => none
  | .container kept children :: types =>
    if kept = name then some (.container kept (change children) :: types)
    else (mergeContainer? name change types).map (.container kept children :: ·)
  | type :: types => (mergeContainer? name change types).map (type :: ·)

/-- Applies changes to the keys and the values of the first mapping, if there is one. -/
def mergeMapping? (changeKeys changeValues : Alternatives → Alternatives) :
    Alternatives → Option Alternatives
  | [] => none
  | .mapping keys values :: types =>
    some (.mapping (changeKeys keys) (changeValues values) :: types)
  | type :: types => (mergeMapping? changeKeys changeValues types).map (type :: ·)

mutual

/-- Adds a type that may already be among the alternatives. -/
def add (types : Alternatives) : Descriptor → Alternatives
  | .container name children =>
    if .container name children ∈ types then types
    else
      (mergeContainer? name (fun kept => extend kept children) types).getD
        (types ++ [.container name children])
  | .mapping keys values =>
    if .mapping keys values ∈ types then types
    else
      (mergeMapping? (fun kept => extend kept keys) (fun kept => extend kept values) types).getD
        (types ++ [.mapping keys values])
  | .leaf name => if .leaf name ∈ types then types else types ++ [.leaf name]
  | .unresolved text => if .unresolved text ∈ types then types else types ++ [.unresolved text]
  | .foreign text => if .foreign text ∈ types then types else types ++ [.foreign text]

def extend (types : Alternatives) : Alternatives → Alternatives
  | [] => types
  | type :: others => extend (add types type) others

end

/-- The alternatives that a list of descriptors amounts to. -/
def ofList (types : List Descriptor) : Alternatives := extend [] types

def single (type : Descriptor) : Alternatives := [type]

/-- A single type that has just a name. -/
def leaf (name : String) : Alternatives := [.leaf name]

end Alternatives

/-- Text between the marks around a type that is not built in. -/
def TypeFormat.unmark? (format : TypeFormat) (text : String) : Option String :=
  (Text.between? format.foreignOpen.toList format.foreignClose.toList text.toList).map String.ofList

/-- Puts the marks around a type that is not built in. -/
def TypeFormat.mark (format : TypeFormat) (label : String) : String :=
  format.foreignOpen ++ label ++ format.foreignClose

mutual

/-- Written form of a type.  All texts go through `literal`, except for the marks around
types that are not built in. -/
def Descriptor.renderWith (format : TypeFormat) (literal : String → String) :
    Descriptor → String
  | .leaf name => literal name
  | .container name [] => literal name
  | .container name (child :: children) =>
    literal name ++ literal format.wrapOpen ++
      (literal format.alternativesJoin).intercalate
        (renderAll format literal (child :: children)) ++
      literal format.wrapClose
  | .mapping keys values =>
    if keys.isEmpty ∧ values.isEmpty then "dict"
    else
      "dict" ++ literal format.wrapOpen ++
        (literal format.alternativesJoin).intercalate (renderAll format literal keys) ++
        literal format.mappingJoin ++
        (literal format.alternativesJoin).intercalate (renderAll format literal values) ++
        literal format.wrapClose
  | .unresolved text => literal text
  | .foreign text =>
    match format.unmark? text with
    | some label => format.mark (literal label)
    | none => literal text

/-- Written forms of several types. -/
def renderAll (format : TypeFormat) (literal : String → String) : List Descriptor → List String
  | [] => []
  | type :: types => type.renderWith format literal :: renderAll format literal types

end

def Alternatives.renderWith (format : TypeFormat) (literal : String → String)
    (types : Alternatives) : String :=
  (literal format.alternativesJoin).intercalate (renderAll format literal types)

def Descriptor.render (format : TypeFormat) (type : Descriptor) : String :=
  type.renderWith format id

def Alternatives.render (format : TypeFormat) (types : Alternatives) : String :=
  Alternatives.renderWith format id types

end DocSketch
