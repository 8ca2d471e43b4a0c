import DocSketch.Resolution.Lead

/-!
# Resolution of types

The types of an expression follow from its form.  References are resolved by strategies
that are tried in order; the first one that finds something decides.  Strategies follow
definitions through the text, which is bounded: an expression that is already being
resolved is passed over, and so is a strategy that would nest lookups too deeply.

* `Strategy`: the ways to resolve a reference.
* `Resolver.alternatives`: the types of an expression.
* `Source.typeOf`: the types of an expression as one descriptor.
* `Source.exitTypes`: the types of several exits of a function.
-/

namespace DocSketch

/-- Ways to resolve a reference. -/
inductive Strategy where
  /-- Calls of what every program knows. -/
  | builtin
  /-- What the caller registered for a path. -/
  | override
  /-- Calls of functions of the same text. -/
  | localDefinition
  /-- Paths of imported names. -/
  | importPath
  /-- Paths of attributes and calls as they are written. -/
  | attributePath
  /-- Assignments and parameters. -/
  | assignment
deriving DecidableEq, Repr, Inhabited

/-- All strategies in the order in which they are tried. -/
def Strategy.standard : List Strategy :=
  [builtin, override, localDefinition, importPath, attributePath, assignment]

/-- What resolutions of one request share. -/
structure Memory where
  /-- Types of the exits of functions, as far as nothing was passed over on the way. -/
  memo : List (ScopeId × Alternatives)
  /-- How often something was passed over. -/
  skips : Nat
deriving Repr, Inhabited

/-- Nothing is known yet. -/
def Memory.empty : Memory := ⟨[], 0⟩

/-- Resolutions within one request; what they share outlives a fault. -/
abbrev Resolve := EStateM Fault Memory

/-- Everything a resolution depends on. -/
structure Resolver where
  source : Source
  context : ResolutionContext
  strategies : List Strategy

/-- What a strategy found. -/
inductive Finding where
  | types (types : Alternatives)
  /-- A written type, which is marked unless all it names is built in. -/
  | label (text : String)
deriving Repr, Inhabited

/-- The types that a finding stands for. -/
def TypeFormat.classify (format : TypeFormat) : Finding → Alternatives
  | .types types => types
  | .label text =>
    if isBuiltinLabel text format.alternativesJoin then
      Alternatives.ofList ((splitAlternatives text format.alternativesJoin).map Descriptor.leaf)
    else
      [.foreign (format.mark text)]

def NumberKind.typeName : NumberKind → String
  | int => "int"
  | float => "float"
  | complex => "complex"

def StringKind.typeName : StringKind → String
  | bytes => "bytes"
  | str | formatted => "str"

def Constant.typeName : Constant → String
  | .true | .false => "bool"
  | .ellipsis => "ellipsis"
  | .none => "None"

/-- Place of a numeric type in the order in which numbers widen. -/
def numericRank? (name : String) : Option Nat :=
  ["bool", "int", "float", "complex"].idxOf? name

/-- The wider of two numeric types. -/
def widen? : Alternatives → Alternatives → Option String
  | [.leaf left], [.leaf right] =>
    match numericRank? left, numericRank? right with
    | some l, some r => some (if r ≤ l then left else right)
    | _, _ => none
  | _, _ => none

/-- Types of an arithmetic operation: numbers widen, division leaves the integers, and
otherwise both operands must agree. -/
def arithmetic? (operator : TokenKind) (left right : Alternatives) : Option Alternatives :=
  match widen? left right with
  | some name =>
    if operator = .slash ∧ name ≠ "complex" then some (Alternatives.leaf "float")
    else some (Alternatives.leaf name)
  | none => if left = right then some left else none

/-- Types of an element or a slice of a value of a single type. -/
def subscript? (object : Alternatives) (isSlice : Bool) : Option Alternatives :=
  match object with
  | [.container _ children] =>
    if isSlice then some object else if children.length = 1 then some children else none
  | [.mapping _ values] => if values.length = 1 ∧ !isSlice then some values else none
  | [.leaf name] => if name = "str" ∨ name = "bytes" then some object else none
  | _ => none

namespace Resolver

/-- An expression that stands for its own type. -/
def unresolved (resolver : Resolver) (e : Expr) : Alternatives :=
  [.unresolved (resolver.source.textOf e.span)]

/-- Fails because expressions of this form have no type. -/
def unsupported {α : Type} (resolver : Resolver) (e : Expr) (construct : String) : Resolve α :=
  throw ⟨.unsupportedConstruct construct, ⟨e.span.start, resolver.source.file⟩⟩

/-- Fails because lookups are nested too deeply. -/
def tooDeep {α : Type} (resolver : Resolver) (depth : Nat) : Resolve α :=
  throw ⟨.recursionGuardTripped depth, ⟨0, resolver.source.file⟩⟩

/-- Notes that expressions were passed over. -/
def skip (count : Nat) : Resolve Unit :=
  modify fun memory => { memory with skips := memory.skips + count }

/-- Keeps the types of the exits of a function, unless something was passed over since
the given number of skips. -/
def remember (function : ScopeId) (skips : Nat) (types : Alternatives) : Resolve Unit :=
  modify fun memory =>
    if memory.skips = skips then { memory with memo := (function, types) :: memory.memo }
    else memory

/-- What the registered overrides for the given paths say about a reference. -/
def overrideLead (resolver : Resolver) (e : Expr) (paths : List String) : Lead :=
  match resolver.context.overrideLabel? e.call? paths with
  | some text => .label text
  | none => .none

/-- What a strategy can say without resolving another expression first. -/
def search (resolver : Resolver) (trail : Trail) (scope : ScopeId) (e : Expr) :
    Strategy → Search
  | .builtin => ⟨builtinLead e, 0⟩
  | .override => ⟨resolver.overrideLead e (resolver.source.overridePaths e), 0⟩
  | .localDefinition => resolver.source.localLead resolver.context trail scope e
  | .importPath => ⟨resolver.source.importLead e, 0⟩
  | .attributePath => ⟨attributeLead e, 0⟩
  | .assignment => resolver.source.assignmentLead trail scope e

mutual

/-- The types of an expression that stands in `scope`. -/
def alternatives (resolver : Resolver) (trail : Trail) (scope : ScopeId) (e : Expr) :
    Resolve Alternatives :=
  match e with
  | .number _ kind _ => pure (Alternatives.leaf kind.typeName)
  | .string _ kind _ => pure (Alternatives.leaf kind.typeName)
  | .constant _ value => pure (Alternatives.leaf value.typeName)
  | .symbol span name => resolver.firstFinding trail scope (.symbol span name) resolver.strategies
  | .member span object property =>
    resolver.firstFinding trail scope (.member span object property) resolver.strategies
  | .call span callee arguments keywords =>
    resolver.firstFinding trail scope (.call span callee arguments keywords) resolver.strategies
  | .sequence _ kind elements => do
    let children ← resolver.elementTypes trail scope [] elements
    return [.container kind.typeName children]
  | .dict _ entries => do
    let (keys, values) ← resolver.entryTypes trail scope [] [] entries
    return [.mapping keys values]
  | .comprehension _ .list element _ _ => do
    return [.container "list" (← resolver.alternatives trail scope element)]
  | .comprehension _ .dict _ _ _ => pure (Alternatives.leaf "dict")
  | .comprehension _ .set _ _ _ => pure (Alternatives.leaf "set")
  | .comprehension _ .generator _ _ _ => pure (Alternatives.leaf "Generator")
  | .binary _ left operator right =>
    if operator.kind.isRelationalOrLogical then
      pure (Alternatives.leaf "bool")
    else do
      let leftTypes ← resolver.alternatives trail scope left
      if operator.kind = .percent ∧ leftTypes = Alternatives.leaf "str" then
        return leftTypes
      else
        let rightTypes ← resolver.alternatives trail scope right
        return (arithmetic? operator.kind leftTypes rightTypes).getD (resolver.unresolved e)
  | .unary _ operator operand =>
    if operator.kind = .notKw then pure (Alternatives.leaf "bool")
    else if operator.kind = .awaitKw then pure (resolver.unresolved e)
    else resolver.alternatives trail scope operand
  | .ternary _ body _ orelse => do
    let bodyTypes ← resolver.alternatives trail scope body
    let orelseTypes ← resolver.alternatives trail scope orelse
    return Alternatives.extend bodyTypes orelseTypes
  | .subscript _ object index => do
    let objectTypes ← resolver.alternatives trail scope object
    return (subscript? objectTypes index.isSlice).getD (resolver.unresolved e)
  | .lambda .. => resolver.unsupported e "lambda"
  | .starred .. => resolver.unsupported e "starred"
  | .slice .. => resolver.unsupported e "slice"
  | .yield .. => resolver.unsupported e "yield"
termination_by (maxDepth - trail.depth, sizeOf e, resolver.strategies.length + 2)
decreasing_by
  all_goals
    simp only [Prod.lex_def]
    simp
    try omega

/-- The types of the elements of a display, added to `found`; nothing is known about
what is unpacked. -/
def elementTypes (resolver : Resolver) (trail : Trail) (scope : ScopeId) (found : Alternatives)
    (elements : List Expr) : Resolve Alternatives :=
  match elements with
  | [] => pure found
  | element :: others =>
    if element.isStarred then
      resolver.elementTypes trail scope found others
    else do
      let types ← resolver.alternatives trail scope element
      resolver.elementTypes trail scope (Alternatives.extend found types) others
termination_by (maxDepth - trail.depth, sizeOf elements, 0)
decreasing_by
  all_goals
    simp only [Prod.lex_def]
    simp
    try omega

/-- The types of the keys and the values of a mapping, added to those found; nothing is
known about what is unpacked. -/
def entryTypes (resolver : Resolver) (trail : Trail) (scope : ScopeId)
    (foundKeys foundValues : Alternatives) (entries : List (Entry Expr)) :
    Resolve (Alternatives × Alternatives) :=
  match entries with
  | [] => pure (foundKeys, foundValues)
  | ⟨none, _⟩ :: others => resolver.entryTypes trail scope foundKeys foundValues others
  | ⟨some key, value⟩ :: others => do
    let keyTypes ← resolver.alternatives trail scope key
    let valueTypes ← resolver.alternatives trail scope value
    resolver.entryTypes trail scope (Alternatives.extend foundKeys keyTypes)
      (Alternatives.extend foundValues valueTypes) others
termination_by (maxDepth - trail.depth, sizeOf entries, 0)
decreasing_by
  all_goals
    simp only [Prod.lex_def]
    simp
    try omega

/-- The types of a reference by the first strategy that finds something; a strategy that
would nest lookups too deeply is passed over. -/
def firstFinding (resolver : Resolver) (trail : Trail) (scope : ScopeId) (e : Expr)
    (strategies : List Strategy) : Resolve Alternatives :=
  match strategies with
  | [] => pure (resolver.unresolved e)
  | strategy :: others => fun memory =>
    match resolver.attempt trail scope e strategy memory with
    | .ok (some finding) next => .ok (resolver.context.format.classify finding) next
    | .ok none next => resolver.firstFinding trail scope e others next
    | .error fault next =>
      if fault.cause.isRecursionGuard then
        resolver.firstFinding trail scope e others { next with skips := next.skips + 1 }
      else
        .error fault next
termination_by (maxDepth - trail.depth, sizeOf e, strategies.length + 1)
decreasing_by
  all_goals
    simp only [Prod.lex_def]
    simp

/-- What a strategy finds for a reference.  The override of a method of a literal is
registered under the name of its type. -/
def attempt (resolver : Resolver) (trail : Trail) (scope : ScopeId) (e : Expr)
    (strategy : Strategy) : Resolve (Option Finding) :=
  match strategy, _hreceiver : e.literalReceiver? with
  | .override, some (object, property) =>
    if resolver.context.overrides.isEmpty then
      pure none
    else do
      let types ← resolver.alternatives trail scope object
      let paths := (types.head?.bind Descriptor.typeName?).toList.map (· ++ "." ++ property)
      return (resolver.context.overrideLabel? e.call? paths).map Finding.label
  | strategy, _ => do
    let found := resolver.search trail scope e strategy
    skip found.skips
    match found.lead with
    | .none => return none
    | .label text => return some (.label text)
    | .types types => return some (.types types)
    | .value outer value =>
      if trail.depth < maxDepth then
        let types ← resolver.alternatives (trail.enter [(outer, value.span)]) outer value
        return some (.types types)
      else
        resolver.tooDeep trail.depth
    | .exits function =>
      let memory ← get
      match memory.memo.lookup function with
      | some types => return some (.types types)
      | none =>
        if trail.depth < maxDepth then
          let types ←
            resolver.exitAlternatives (trail.enter (resolver.source.exitKeys function)) function []
              (resolver.source.scopes.get function).exits
          remember function memory.skips types
          return some (.types types)
        else
          resolver.tooDeep trail.depth
termination_by (maxDepth - trail.depth, sizeOf e, 0)
decreasing_by
  · have := Expr.sizeOf_lt_of_literalReceiver? _hreceiver
    simp only [Prod.lex_def]
    simp [this]
  · apply Prod.Lex.left
    simp only [Trail.enter]
    omega
  · apply Prod.Lex.left
    simp only [Trail.enter]
    omega

/-- The types of the exits of a function, added to `found`; an exit without a type
stands for itself. -/
def exitAlternatives (resolver : Resolver) (trail : Trail) (scope : ScopeId)
    (found : Alternatives) (exits : List Expr) : Resolve Alternatives :=
  match exits with
  | [] => pure found
  | exit :: others => fun memory =>
    match resolver.alternatives trail scope exit memory with
    | .ok types next =>
      resolver.exitAlternatives trail scope (Alternatives.extend found types) others next
    | .error fault next =>
      if fault.isRecoverable then
        let own := Descriptor.unresolved (resolver.source.textOf exit.span)
        resolver.exitAlternatives trail scope (Alternatives.add found own) others next
      else
        .error fault next
termination_by (maxDepth - trail.depth, sizeOf exits, 0)
decreasing_by
  all_goals
    simp only [Prod.lex_def]
    simp
    try omega

end

def alternativesOfAll (resolver : Resolver) (trail : Trail) (scope : ScopeId)
    (found : Alternatives) : List Expr → Resolve Alternatives
  | [] => pure found
  | e :: others => do
    let types ← resolver.alternatives trail scope e
    resolver.alternativesOfAll trail scope (Alternatives.extend found types) others

/-- Answers a request of its own. -/
def run {α : Type} (request : Resolve α) : Except Fault α :=
  match request Memory.empty with
  | .ok result _ => .ok result
  | .error fault _ => .error fault

end Resolver

/-- Several alternatives as one descriptor; an expression without any stands for itself. -/
def Alternatives.collapse (format : TypeFormat) (text : String) : Alternatives → Descriptor
  | [] => .unresolved text
  | [type] => type
  | types => .leaf (Alternatives.render format types)

namespace Source

def resolver (source : Source) (context : ResolutionContext) : Resolver :=
  ⟨source, context, Strategy.standard⟩

/-- The types of an expression that stands in `scope`. -/
def alternatives (source : Source) (context : ResolutionContext) (scope : ScopeId) (e : Expr) :
    Except Fault Alternatives :=
  Resolver.run ((source.resolver context).alternatives Trail.start scope e)

/-- The type of an expression that stands in `scope`. -/
def typeOf (source : Source) (context : ResolutionContext) (scope : ScopeId) (e : Expr) :
    Except Fault Descriptor := do
  let types ← source.alternatives context scope e
  return Alternatives.collapse context.format (source.textOf e.span) types

/-- The types of exits of the function `scope`, which are all being resolved at once. -/
def exitTypes (source : Source) (context : ResolutionContext) (scope : ScopeId)
    (exits : List Expr) : Except Fault Alternatives :=
  let trail := Trail.start.enter (exits.map fun exit => (scope, exit.span))
  Resolver.run ((source.resolver context).alternativesOfAll trail scope [] exits)

end Source

end DocSketch
