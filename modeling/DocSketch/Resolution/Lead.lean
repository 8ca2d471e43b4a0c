import DocSketch.Resolution.Context
import DocSketch.Source
import DocSketch.Types.Descriptor
import DocSketch.Types.Label

/-!
# Leads

A name, an attribute or a call refers to something defined elsewhere.  A lead says what
is known about it without resolving any further expression, and which expression to
resolve next if that is not enough.

* `Trail`: the expressions that are being resolved further up.
* `Lead`: what one way of looking at a reference gives.
* `importPath?`: the path of a name that an import binds.
* `Source.localLead`: calls of functions of the same text.
* `Source.assignmentLead`: names that are assigned or are parameters.
-/

namespace DocSketch

/-- An expression of a scope, by its span. -/
abbrev VisitKey := ScopeId × Span

/-- Bound on how deeply lookups of definitions are nested. -/
def maxDepth : Nat := 32

/-- Lookups in progress. -/
structure Trail where
  /-- Expressions that are being resolved. -/
  visited : List VisitKey
  /-- How deeply lookups are nested. -/
  depth : Nat
deriving DecidableEq, Repr, Inhabited

/-- No lookup is in progress. -/
def Trail.start : Trail := ⟨[], 0⟩

/-- The trail one level deeper, on the way to the given expressions. -/
def Trail.enter (trail : Trail) (keys : List VisitKey) : Trail :=
  ⟨keys ++ trail.visited, trail.depth + 1⟩

/-- What one way of looking at a reference gives. -/
inductive Lead where
  /-- Nothing. -/
  | none
  /-- A written type. -/
  | label (text : String)
  /-- Types. -/
  | types (types : Alternatives)
  /-- The types of an expression that stands in the given scope. -/
  | value (scope : ScopeId) (expr : Expr)
  /-- The types of what a function returns and yields. -/
  | exits (function : ScopeId)
deriving Repr, Inhabited

/-- A lead, and how many expressions were passed over because they are being resolved. -/
structure Search where
  lead : Lead
  skips : Nat
deriving Repr, Inhabited

namespace Expr

/-- Identifiers of a chain of attributes and calls that starts with a name. -/
def fragments? : Expr → Option (List String)
  | symbol _ name => some [name]
  | member _ object property => (fragments? object).map (· ++ [property])
  | call _ callee _ _ => fragments? callee
  | _ => none

/-- What a reference refers to: the callee of a call, or the expression itself. -/
def target : Expr → Expr
  | call _ callee _ _ => callee
  | e => e

/-- Whether the type of an expression can be told from how it is written. -/
def isLiteral : Expr → Bool
  | string .. | number .. | constant .. | sequence .. | dict .. | comprehension .. => true
  | _ => false

/-- The literal whose attribute is taken, and the name of the attribute. -/
def literalReceiver? (e : Expr) : Option (Expr × String) :=
  match e.target with
  | member _ object property => if object.isLiteral then some (object, property) else none
  | _ => none

/-- What a reference refers to is not larger than the reference. -/
theorem sizeOf_target_le (e : Expr) : sizeOf e.target ≤ sizeOf e := by
  cases e with
  | call => simp [target]; omega
  | _ => exact Nat.le_refl _

/-- The literal receiver of a reference is smaller than the reference. -/
theorem sizeOf_lt_of_literalReceiver? {e object : Expr} {property : String}
    (h : e.literalReceiver? = some (object, property)) : sizeOf object < sizeOf e := by
  have hle := sizeOf_target_le e
  unfold literalReceiver? at h
  split at h
  · rename_i heq
    split at h
    · simp only [Option.some.injEq, Prod.mk.injEq] at h
      obtain ⟨rfl, rfl⟩ := h
      rw [heq] at hle
      simp only [member.sizeOf_spec] at hle
      omega
    · exact absurd h (by simp)
  · exact absurd h (by simp)

end Expr

def dotted (fragments : List String) : String := ".".intercalate fragments

/-- Path of a chain of identifiers whose head the last import before `offset` binds. -/
def Source.importPath? (source : Source) (fragments : List String) (offset : Nat) :
    Option String :=
  match fragments with
  | [] => none
  | head :: rest =>
    let bindings := source.imports.filter fun binding =>
      binding.position < offset ∧ binding.name = head
    bindings.getLast?.map fun binding => dotted (binding.path :: rest)

/-- Type of the result of a call of something that every program knows. -/
def builtinLead (e : Expr) : Lead :=
  match e with
  | .call _ (.symbol _ name) _ _ =>
    match builtinFunctions.lookup name with
    | some result => .types (Alternatives.leaf result)
    | none => if builtinExceptions.contains name then .types (Alternatives.leaf name) else .none
  | _ => .none

/-- Path of an imported name. -/
def Source.importLead (source : Source) (e : Expr) : Lead :=
  match e.fragments?.bind fun fragments => source.importPath? fragments e.span.start with
  | some path => .label path
  | none => .none

/-- Path of an attribute or a call as it is written. -/
def attributeLead (e : Expr) : Lead :=
  match e with
  | .call .. | .member .. =>
    match e.fragments? with
    | some fragments => .label (dotted fragments)
    | none => .none
  | _ => .none

/-- Paths under which an override can apply to a reference. -/
def Source.overridePaths (source : Source) (e : Expr) : List String :=
  match e.fragments? with
  | some fragments => dotted fragments :: (source.importPath? fragments e.span.start).toList
  | none => []

namespace Source

/-- The function of the same text that a reference in `scope` calls: the innermost one
around it, but for class bodies, or else the first one anywhere; a method of `self` or
`cls` is one of the class around it. -/
def calledFunction? (source : Source) (scope : ScopeId) (callee : Expr) : Option ScopeId :=
  let tree := source.scopes
  match callee with
  | .symbol _ name =>
    let visible :=
      (tree.ancestors scope).filter fun ancestor => (tree.get ancestor).kind ≠ .classDef
    (visible.findSome? fun ancestor => tree.childNamed? ancestor name .function).or
      (tree.functionsNamed name).head?
  | .member _ (.symbol _ receiver) property =>
    if receiver = "self" ∨ receiver = "cls" then
      (tree.enclosingClass? scope).bind fun enclosing =>
        tree.childNamed? enclosing property .function
    else
      none
  | _ => none

/-- Keys of what a function returns and yields. -/
def exitKeys (source : Source) (function : ScopeId) : List VisitKey :=
  (source.scopes.get function).exits.map fun exit => (function, exit.span)

/-- What the call of a function of the same text gives: its annotation, or the types of
its exits unless these are being resolved. -/
def localLead (source : Source) (context : ResolutionContext) (trail : Trail) (scope : ScopeId)
    (e : Expr) : Search :=
  match e with
  | .call _ callee _ _ =>
    if context.followLocal then
      match source.calledFunction? scope callee with
      | none => ⟨.none, 0⟩
      | some function =>
        let found := source.scopes.get function
        match found.signature.bind Signature.returns with
        | some annotation => ⟨.label (source.textOf annotation.span), 0⟩
        | none =>
          if found.exits.isEmpty then ⟨.types (Alternatives.leaf "None"), 0⟩
          else if (source.exitKeys function).any trail.visited.contains then ⟨.none, 1⟩
          else ⟨.exits function, 0⟩
    else
      ⟨.none, 0⟩
  | _ => ⟨.none, 0⟩

end Source

/-- How a name occurs in the target of an assignment. -/
inductive Bound where
  /-- It is bound to this expression. -/
  | value (e : Expr)
  /-- It is bound to a part of the value that cannot be told. -/
  | unpaired
deriving Repr, Inhabited

/-- The elements of a value that pair with as many targets: a list or tuple of that
length in which nothing is unpacked. -/
def pairedValues? (count : Nat) : Option Expr → Option (List Expr)
  | some (.sequence _ kind values) =>
    if kind ≠ .set ∧ values.length = count ∧ values.all (!·.isStarred) then some values else none
  | _ => none

mutual

/-- How `name` occurs in the target of an assignment of `value`. -/
def bound? (name : String) (value : Option Expr) : Expr → Option Bound
  | .symbol _ symbol =>
    if symbol = name then
      match value with
      | some e => some (.value e)
      | none => some .unpaired
    else
      none
  | .sequence _ kind targets =>
    if kind = .set then none
    else
      match pairedValues? targets.length value with
      | some values => pairedBound? name values targets
      | none => unpairedBound? name targets
  | .starred _ target _ => (bound? name none target).map fun _ => .unpaired
  | _ => none

/-- How `name` occurs in targets that pair with values. -/
def pairedBound? (name : String) (values : List Expr) : List Expr → Option Bound
  | [] => none
  | target :: targets =>
    match values with
    | [] => none
    | value :: others =>
      match bound? name (some value) target with
      | some found => some found
      | none => pairedBound? name others targets

/-- How `name` occurs in targets without values. -/
def unpairedBound? (name : String) : List Expr → Option Bound
  | [] => none
  | target :: targets =>
    match bound? name none target with
    | some found => some found
    | none => unpairedBound? name targets

end

/-- How `name` occurs in an assignment: the first target that has it counts. -/
def Assignment.bound? (assignment : Assignment) (name : String) : Option Bound :=
  assignment.targets.findSome? (DocSketch.bound? name assignment.value)

namespace Source

/-- What a parameter says about its name: its annotation, its default in the scope
around the function, or what its stars say. -/
def parameterLead (source : Source) (trail : Trail) (scope : Scope) (parameter : Parameter Expr)
    (skips : Nat) : Search :=
  let usual : Lead :=
    match parameter.kind with
    | .varPositional => .types (Alternatives.leaf "tuple")
    | .varKeyword => .types (Alternatives.leaf "dict")
    | .positional | .keywordOnly => .label parameter.name
  match parameter.annotation, parameter.default with
  | some annotation, _ => ⟨.label (source.textOf annotation.span), skips⟩
  | none, some default =>
    let outer := scope.parent.getD scope.id
    if trail.visited.contains (outer, default.span) then ⟨usual, skips + 1⟩
    else ⟨.value outer default, skips⟩
  | none, none => ⟨usual, skips⟩

/-- What a scope says about a name: the first of `assignments` that binds it and whose
value is not being resolved, or else a parameter. -/
def scopeLead (source : Source) (trail : Trail) (scope : Scope) (name : String) (skips : Nat) :
    List Assignment → Search
  | [] =>
    match scope.parameters.find? fun parameter => parameter.name = name with
    | some parameter => source.parameterLead trail scope parameter skips
    | none => ⟨.none, skips⟩
  | assignment :: others =>
    match assignment.bound? name, assignment.annotation with
    | none, _ => source.scopeLead trail scope name skips others
    | some _, some annotation => ⟨.label (source.textOf annotation.span), skips⟩
    | some .unpaired, none => ⟨.label name, skips⟩
    | some (.value e), none =>
      if trail.visited.contains (scope.id, e.span) then
        source.scopeLead trail scope name (skips + 1) others
      else
        ⟨.value scope.id e, skips⟩

/-- What the first of several scopes that knows a name says about it, the latest
assignment first; a name that none of them knows stands for itself. -/
def chainLead (source : Source) (trail : Trail) (name : String) (skips : Nat) :
    List ScopeId → Search
  | [] => ⟨.label name, skips⟩
  | id :: others =>
    let scope := source.scopes.get id
    match source.scopeLead trail scope name skips scope.assignments.reverse with
    | ⟨.none, passed⟩ => source.chainLead trail name passed others
    | found => found

/-- Scopes in which a name is looked up: the one it stands in and those around it, but
for class bodies. -/
def lookupChain (source : Source) (scope : ScopeId) : List ScopeId :=
  match source.scopes.ancestors scope with
  | [] => []
  | own :: outer =>
    own :: outer.filter fun ancestor => (source.scopes.get ancestor).kind ≠ .classDef

/-- What assignments and parameters say about a bare name. -/
def assignmentLead (source : Source) (trail : Trail) (scope : ScopeId) (e : Expr) : Search :=
  match e with
  | .symbol _ name => source.chainLead trail name 0 (source.lookupChain scope)
  | _ => ⟨.none, 0⟩

end Source

end DocSketch
