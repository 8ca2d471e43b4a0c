import DocSketch.Proofs.Resolution.Memory

/-!
# Resolutions without a memory

A traced resolution follows the same steps as a resolution, but it remembers nothing: a
function that is called is looked up again every time.  It records which definitions it
looks up, and where it passes over something.

* `Lookup`: a definition that is looked up.
* `Trace`: what a resolution ends with, and what happened on the way.
* `Resolver.trace`: the types of an expression, without a memory.
* `Source.typeOfAfresh`, `Source.exitTypesAfresh`: requests without a memory.
-/

namespace DocSketch

/-- A definition that is looked up: what a name is bound to in a scope, or all that a function
returns and yields. -/
inductive Lookup where
  | value (scope : ScopeId) (e : Expr)
  | exits (function : ScopeId)

/-- What is marked as visited during a lookup. -/
def Lookup.keys (source : Source) : Lookup → List VisitKey
  | value scope e => [(scope, e.span)]
  | exits function => source.exitKeys function

/-- What a resolution ends with, and what happened on the way. -/
structure Trace (α : Type) where
  result : Except Fault α
  /-- Definitions that were looked up. -/
  lookups : List Lookup
  /-- How often something was passed over. -/
  skips : Nat
  /-- How often a lookup would have been nested too deeply. -/
  cuts : Nat

namespace Trace

variable {α β : Type}

/-- Goes on with what a resolution ends with. -/
def andThen (trace : Trace α) (others : Except Fault α → Trace β) : Trace β :=
  let further := others trace.result
  ⟨further.result, trace.lookups ++ further.lookups, trace.skips + further.skips,
    trace.cuts + further.cuts⟩

def fail (fault : Fault) : Trace α := ⟨.error fault, [], 0, 0⟩

/-- Goes on with a value that is found. -/
def onward (others : α → Trace β) : Except Fault α → Trace β
  | .ok value => others value
  | .error fault => fail fault

instance : Monad Trace where
  pure value := ⟨.ok value, [], 0, 0⟩
  bind trace others := trace.andThen (onward others)

/-- A definition is looked up. -/
def enter (lookup : Lookup) : Trace Unit := ⟨.ok (), [lookup], 0, 0⟩

def skip (count : Nat) : Trace Unit := ⟨.ok (), [], count, 0⟩

/-- No lookup was nested too deeply. -/
def Shallow (trace : Trace α) : Prop := trace.cuts = 0

/-- Nothing was passed over. -/
def Clean (trace : Trace α) : Prop := trace.skips = 0 ∧ trace.Shallow

end Trace

namespace Resolver

/-- Fails because lookups are nested too deeply. -/
def cut {α : Type} (resolver : Resolver) (depth : Nat) : Trace α :=
  ⟨.error ⟨.recursionGuardTripped depth, ⟨0, resolver.source.file⟩⟩, [], 0, 1⟩

/-- Fails because expressions of this form have no type. -/
def untraceable {α : Type} (resolver : Resolver) (e : Expr) (construct : String) : Trace α :=
  .fail ⟨.unsupportedConstruct construct, ⟨e.span.start, resolver.source.file⟩⟩

mutual

/-- The types of an expression that stands in `scope`, without a memory. -/
def trace (resolver : Resolver) (trail : Trail) (scope : ScopeId) (e : Expr) :
    Trace Alternatives :=
  match e with
  | .number _ kind _ => pure (Alternatives.leaf kind.typeName)
  | .string _ kind _ => pure (Alternatives.leaf kind.typeName)
  | .constant _ value => pure (Alternatives.leaf value.typeName)
  | .symbol span name => resolver.traceFirst trail scope (.symbol span name) resolver.strategies
  | .member span object property =>
    resolver.traceFirst trail scope (.member span object property) resolver.strategies
  | .call span callee arguments keywords =>
    resolver.traceFirst trail scope (.call span callee arguments keywords) resolver.strategies
  | .sequence _ kind elements => do
    let children ← resolver.traceElements trail scope [] elements
    return [.container kind.typeName children]
  | .dict _ entries => do
    let (keys, values) ← resolver.traceEntries trail scope [] [] entries
    return [.mapping keys values]
  | .comprehension _ .list element _ _ => do
    return [.container "list" (← resolver.trace trail scope element)]
  | .comprehension _ .dict _ _ _ => pure (Alternatives.leaf "dict")
  | .comprehension _ .set _ _ _ => pure (Alternatives.leaf "set")
  | .comprehension _ .generator _ _ _ => pure (Alternatives.leaf "Generator")
  | .binary _ left operator right =>
    if operator.kind.isRelationalOrLogical then
      pure (Alternatives.leaf "bool")
    else do
      let leftTypes ← resolver.trace trail scope left
      if operator.kind = .percent ∧ leftTypes = Alternatives.leaf "str" then
        return leftTypes
      else
        let rightTypes ← resolver.trace trail scope right
        return (arithmetic? operator.kind leftTypes rightTypes).getD (resolver.unresolved e)
  | .unary _ operator operand =>
    if operator.kind = .notKw then pure (Alternatives.leaf "bool")
    else if operator.kind = .awaitKw then pure (resolver.unresolved e)
    else resolver.trace trail scope operand
  | .ternary _ body _ orelse => do
    let bodyTypes ← resolver.trace trail scope body
    let orelseTypes ← resolver.trace trail scope orelse
    return Alternatives.extend bodyTypes orelseTypes
  | .subscript _ object index => do
    let objectTypes ← resolver.trace trail scope object
    return (subscript? objectTypes index.isSlice).getD (resolver.unresolved e)
  | .lambda .. => resolver.untraceable e "lambda"
  | .starred .. => resolver.untraceable e "starred"
  | .slice .. => resolver.untraceable e "slice"
  | .yield .. => resolver.untraceable e "yield"
termination_by (maxDepth - trail.depth, sizeOf e, resolver.strategies.length + 2)
decreasing_by
  all_goals
    simp only [Prod.lex_def]
    simp
    try omega

/-- The types of the elements of a display, added to `found`. -/
def traceElements (resolver : Resolver) (trail : Trail) (scope : ScopeId) (found : Alternatives)
    (elements : List Expr) : Trace Alternatives :=
  match elements with
  | [] => pure found
  | element :: others =>
    if element.isStarred then
      resolver.traceElements trail scope found others
    else do
      let types ← resolver.trace trail scope element
      resolver.traceElements trail scope (Alternatives.extend found types) others
termination_by (maxDepth - trail.depth, sizeOf elements, 0)
decreasing_by
  all_goals
    simp only [Prod.lex_def]
    simp
    try omega

/-- The types of the keys and the values of a mapping, added to those found. -/
def traceEntries (resolver : Resolver) (trail : Trail) (scope : ScopeId)
    (foundKeys foundValues : Alternatives) (entries : List (Entry Expr)) :
    Trace (Alternatives × Alternatives) :=
  match entries with
  | [] => pure (foundKeys, foundValues)
  | ⟨none, _⟩ :: others => resolver.traceEntries trail scope foundKeys foundValues others
  | ⟨some key, value⟩ :: others => do
    let keyTypes ← resolver.trace trail scope key
    let valueTypes ← resolver.trace trail scope value
    resolver.traceEntries trail scope (Alternatives.extend foundKeys keyTypes)
      (Alternatives.extend foundValues valueTypes) others
termination_by (maxDepth - trail.depth, sizeOf entries, 0)
decreasing_by
  all_goals
    simp only [Prod.lex_def]
    simp
    try omega

/-- The types of a reference by the first strategy that finds something. -/
def traceFirst (resolver : Resolver) (trail : Trail) (scope : ScopeId) (e : Expr)
    (strategies : List Strategy) : Trace Alternatives :=
  match strategies with
  | [] => pure (resolver.unresolved e)
  | strategy :: others =>
    (resolver.traceStrategy trail scope e strategy).andThen fun
      | .ok (some finding) => pure (resolver.context.format.classify finding)
      | .ok none => resolver.traceFirst trail scope e others
      | .error fault =>
        if fault.cause.isRecursionGuard then do
          Trace.skip 1
          resolver.traceFirst trail scope e others
        else
          .fail fault
termination_by (maxDepth - trail.depth, sizeOf e, strategies.length + 1)
decreasing_by
  all_goals
    simp only [Prod.lex_def]
    simp

/-- What a strategy finds for a reference. -/
def traceStrategy (resolver : Resolver) (trail : Trail) (scope : ScopeId) (e : Expr)
    (strategy : Strategy) : Trace (Option Finding) :=
  match strategy, _hreceiver : e.literalReceiver? with
  | .override, some (object, property) =>
    if resolver.context.overrides.isEmpty then
      pure none
    else do
      let types ← resolver.trace trail scope object
      let paths := (types.head?.bind Descriptor.typeName?).toList.map (· ++ "." ++ property)
      return (resolver.context.overrideLabel? e.call? paths).map Finding.label
  | strategy, _ => do
    let found := resolver.search trail scope e strategy
    Trace.skip found.skips
    match found.lead with
    | .none => return none
    | .label text => return some (.label text)
    | .types types => return some (.types types)
    | .value outer value =>
      if trail.depth < maxDepth then
        Trace.enter (.value outer value)
        let types ← resolver.trace (trail.enter [(outer, value.span)]) outer value
        return some (.types types)
      else
        resolver.cut trail.depth
    | .exits function =>
      if trail.depth < maxDepth then
        Trace.enter (.exits function)
        let types ←
          resolver.traceExits (trail.enter (resolver.source.exitKeys function)) function []
            (resolver.source.scopes.get function).exits
        return some (.types types)
      else
        resolver.cut trail.depth
termination_by (maxDepth - trail.depth, sizeOf e, 0)
decreasing_by
  · have := Expr.sizeOf_lt_of_literalReceiver? _hreceiver
    simp only [Prod.lex_def]
    simp [this]
  · apply Prod.Lex.left
    simp only [Trail.enter]
    omega
  · apply Prod.Lex.left
    simp only [Trail.enter]
    omega

/-- The types of the exits of a function, added to `found`. -/
def traceExits (resolver : Resolver) (trail : Trail) (scope : ScopeId) (found : Alternatives)
    (exits : List Expr) : Trace Alternatives :=
  match exits with
  | [] => pure found
  | exit :: others =>
    (resolver.trace trail scope exit).andThen fun
      | .ok types => resolver.traceExits trail scope (Alternatives.extend found types) others
      | .error fault =>
        if fault.isRecoverable then
          let own := Descriptor.unresolved (resolver.source.textOf exit.span)
          resolver.traceExits trail scope (Alternatives.add found own) others
        else
          .fail fault
termination_by (maxDepth - trail.depth, sizeOf exits, 0)
decreasing_by
  all_goals
    simp only [Prod.lex_def]
    simp
    try omega

end

/-- A trace puts the types of elements together. -/
theorem traceElements_eq (resolver : Resolver) (trail : Trail) (scope : ScopeId)
    (found : Alternatives) (elements : List Expr) :
    resolver.traceElements trail scope found elements =
      assembleElements (resolver.trace trail scope) found elements := by
  induction elements generalizing found with
  | nil => rw [traceElements, assembleElements]
  | cons element others ih =>
      rw [traceElements, assembleElements]
      simp only [ih]

/-- A trace puts the types of entries together. -/
theorem traceEntries_eq (resolver : Resolver) (trail : Trail) (scope : ScopeId)
    (foundKeys foundValues : Alternatives) (entries : List (Entry Expr)) :
    resolver.traceEntries trail scope foundKeys foundValues entries =
      assembleEntries (resolver.trace trail scope) foundKeys foundValues entries := by
  induction entries generalizing foundKeys foundValues with
  | nil => rw [traceEntries, assembleEntries]
  | cons entry others ih =>
      obtain ⟨key | key, value⟩ := entry
      all_goals
        rw [traceEntries, assembleEntries]
        simp only [ih]

/-- What a resolution without a memory finds out about an expression. -/
def tracedInquiry (resolver : Resolver) (trail : Trail) (scope : ScopeId) (e : Expr) :
    Inquiry Trace where
  part := resolver.trace trail scope
  reference := resolver.traceFirst trail scope e resolver.strategies
  untyped := resolver.untraceable e

/-- A resolution without a memory puts types together. -/
theorem trace_assembled (resolver : Resolver) (trail : Trail) (scope : ScopeId) (e : Expr) :
    resolver.trace trail scope e =
      resolver.assemble (resolver.tracedInquiry trail scope e) e := by
  cases e with
  | sequence span kind elements =>
      rw [trace, traceElements_eq]
      rfl
  | dict span entries =>
      rw [trace, traceEntries_eq]
      rfl
  | comprehension span kind element value clauses =>
      cases kind
      all_goals
        rw [trace]
        rfl
  | _ =>
      rw [trace]
      rfl

/-- The types of several expressions, added to `found`. -/
def traceAll (resolver : Resolver) (trail : Trail) (scope : ScopeId) (found : Alternatives) :
    List Expr → Trace Alternatives
  | [] => pure found
  | e :: others => do
    let types ← resolver.trace trail scope e
    resolver.traceAll trail scope (Alternatives.extend found types) others

/-- What a definition that is looked up gives. -/
def traceLookup (resolver : Resolver) (trail : Trail) : Lookup → Trace Alternatives
  | .value scope e => resolver.trace (trail.enter [(scope, e.span)]) scope e
  | .exits function =>
    resolver.traceExits (trail.enter (resolver.source.exitKeys function)) function []
      (resolver.source.scopes.get function).exits

/-- What a lookup gives to the reference that asks for it. -/
def traceDefinition (resolver : Resolver) (trail : Trail) (lookup : Lookup) :
    Trace (Option Finding) :=
  if trail.depth < maxDepth then do
    Trace.enter lookup
    let types ← resolver.traceLookup trail lookup
    return some (.types types)
  else
    resolver.cut trail.depth

def traceLead (resolver : Resolver) (trail : Trail) : Lead → Trace (Option Finding)
  | .none => pure none
  | .label text => pure (some (.label text))
  | .types types => pure (some (.types types))
  | .value scope e => resolver.traceDefinition trail (.value scope e)
  | .exits function => resolver.traceDefinition trail (.exits function)

end Resolver

namespace Source

/-- The type of an expression that stands in `scope`, without a memory. -/
def typeOfAfresh (source : Source) (context : ResolutionContext) (scope : ScopeId) (e : Expr) :
    Except Fault Descriptor := do
  let types ← ((source.resolver context).trace Trail.start scope e).result
  return Alternatives.collapse context.format (source.textOf e.span) types

/-- A resolution of exits of the function `scope`, which are all being resolved at once. -/
def traceExitTypes (source : Source) (context : ResolutionContext) (scope : ScopeId)
    (exits : List Expr) : Trace Alternatives :=
  let trail := Trail.start.enter (exits.map fun exit => (scope, exit.span))
  (source.resolver context).traceAll trail scope [] exits

/-- The types of exits of the function `scope`, without a memory. -/
def exitTypesAfresh (source : Source) (context : ResolutionContext) (scope : ScopeId)
    (exits : List Expr) : Except Fault Alternatives :=
  (source.traceExitTypes context scope exits).result

end Source

/-- The definition that a lead refers to. -/
def Lead.lookup? : Lead → Option Lookup
  | .value scope e => some (.value scope e)
  | .exits function => some (.exits function)
  | .none | .label _ | .types _ => .none

/-- The definition that a lead refers to is not being resolved. -/
def Lead.Free (source : Source) (trail : Trail) (lead : Lead) : Prop :=
  ∀ lookup, lead.lookup? = some lookup → ∀ key ∈ lookup.keys source, key ∉ trail.visited

namespace Source

variable {source : Source} {trail : Trail} {name : String}

/-- A value is free if it is not marked as visited. -/
theorem free_value {scope : ScopeId} {e : Expr} :
    (Lead.value scope e).Free source trail ↔ (scope, e.span) ∉ trail.visited := by
  simp only [Lead.Free, Lead.lookup?, Option.some.injEq, forall_eq', Lookup.keys,
    List.forall_mem_singleton]

/-- A lead that refers to no definition is free. -/
theorem free_of_none {lead : Lead} (plain : lead.lookup? = none) : lead.Free source trail := by
  intro lookup found
  rw [plain] at found
  cases found

/-- A parameter never refers to a definition that is being resolved, and it says what it says
while no lookup is in progress unless that is being resolved. -/
theorem parameterLead_free (scope : Scope) (parameter : Parameter Expr) (skips : Nat) :
    (source.parameterLead trail scope parameter skips).lead.Free source trail ∧
      ((source.parameterLead Trail.start scope parameter skips).lead.Free source trail →
        source.parameterLead trail scope parameter skips =
          source.parameterLead Trail.start scope parameter skips) := by
  cases annotated : parameter.annotation with
  | some annotation =>
      simp only [parameterLead, annotated]
      exact ⟨free_of_none rfl, fun _ => trivial⟩
  | none =>
      cases given : parameter.default with
      | none =>
          simp only [parameterLead, annotated, given]
          refine ⟨free_of_none ?_, fun _ => trivial⟩
          cases parameter.kind <;> rfl
      | some default =>
          simp only [parameterLead, annotated, given, Trail.start, List.contains_nil,
            Bool.false_eq_true, ↓reduceIte, free_value]
          split
          case isTrue visited =>
            refine ⟨free_of_none ?_, fun unseen => absurd (List.contains_iff_mem.mp visited) unseen⟩
            cases parameter.kind <;> rfl
          case isFalse unseen =>
            exact ⟨free_value.mpr fun member => unseen (List.contains_iff_mem.mpr member),
              fun _ => rfl⟩

/-- A scope leads to what is free, and it leads there while no lookup is in progress. -/
theorem scopeLead_free (source : Source) (trail : Trail) (name : String) (scope : Scope)
    (assignments : List Assignment) (skips : Nat) :
    (source.scopeLead trail scope name skips assignments).lead.Free source trail ∧
      ((source.scopeLead Trail.start scope name skips assignments).lead.Free source trail →
        source.scopeLead trail scope name skips assignments =
          source.scopeLead Trail.start scope name skips assignments) := by
  induction assignments generalizing skips with
  | nil =>
      rw [scopeLead, scopeLead]
      split
      · exact parameterLead_free scope _ skips
      · exact ⟨free_of_none rfl, fun _ => rfl⟩
  | cons assignment others ih =>
      rw [scopeLead, scopeLead]
      split
      · exact ih skips
      · exact ⟨free_of_none rfl, fun _ => rfl⟩
      · exact ⟨free_of_none rfl, fun _ => rfl⟩
      · simp only [Trail.start, List.contains_nil, Bool.false_eq_true, ↓reduceIte, free_value]
        split
        case isTrue visited =>
          exact ⟨(ih (skips + 1)).1,
            fun unseen => absurd (List.contains_iff_mem.mp visited) unseen⟩
        case isFalse unseen =>
          exact ⟨free_value.mpr fun member => unseen (List.contains_iff_mem.mpr member),
            fun _ => rfl⟩

/-- A chain of scopes leads to what is free, and it leads there while no lookup is in progress. -/
theorem chainLead_free (chain : List ScopeId) (skips : Nat) :
    (source.chainLead trail name skips chain).lead.Free source trail ∧
      ((source.chainLead Trail.start name skips chain).lead.Free source trail →
        source.chainLead trail name skips chain =
          source.chainLead Trail.start name skips chain) := by
  induction chain generalizing skips with
  | nil => exact ⟨free_of_none rfl, fun _ => rfl⟩
  | cons id others ih =>
      obtain ⟨free, same⟩ := scopeLead_free source trail name (source.scopes.get id)
        (source.scopes.get id).assignments.reverse skips
      rw [chainLead, chainLead]
      generalize source.scopeLead trail (source.scopes.get id) name skips _ = own at free same
      generalize source.scopeLead Trail.start (source.scopes.get id) name skips _ = idle at same
      constructor
      · obtain ⟨lead, passed⟩ := own
        cases lead with
        | none => exact (ih passed).1
        | _ => exact free
      · obtain ⟨lead, passed⟩ := idle
        cases lead with
        | none =>
            rw [same (free_of_none rfl)]
            exact (ih passed).2
        | _ =>
            intro unseen
            rw [same unseen]

/-- A search leads to what is free, and it leads there while no lookup is in progress. -/
theorem localLead_free {context : ResolutionContext} {scope : ScopeId} {e : Expr} :
    (source.localLead context trail scope e).lead.Free source trail ∧
      ((source.localLead context Trail.start scope e).lead.Free source trail →
        source.localLead context trail scope e =
          source.localLead context Trail.start scope e) := by
  cases e with
  | call span callee arguments keywords =>
      simp only [localLead]
      split
      case isFalse => exact ⟨free_of_none rfl, fun _ => rfl⟩
      case isTrue =>
        split
        case h_1 => exact ⟨free_of_none rfl, fun _ => rfl⟩
        case h_2 function called =>
          split
          case h_1 => exact ⟨free_of_none rfl, fun _ => rfl⟩
          case h_2 =>
            split
            · exact ⟨free_of_none rfl, fun _ => rfl⟩
            · have idle : (source.exitKeys function).any Trail.start.visited.contains = false :=
                List.any_eq_false.mpr fun key _ => by simp [Trail.start]
              simp only [idle, Bool.false_eq_true, ↓reduceIte]
              split
              case isTrue busy =>
                refine ⟨free_of_none rfl, fun unseen => ?_⟩
                obtain ⟨key, member, visited⟩ := List.any_eq_true.mp busy
                exact absurd (List.contains_iff_mem.mp visited) (unseen _ rfl key member)
              case isFalse unseen =>
                refine ⟨?_, fun _ => rfl⟩
                rintro lookup ⟨⟩ key member visited
                exact unseen (List.any_eq_true.mpr
                  ⟨key, member, List.contains_iff_mem.mpr visited⟩)
  | _ => exact ⟨free_of_none rfl, fun _ => rfl⟩

end Source

namespace Resolver

variable {resolver : Resolver}

/-- A strategy never refers to a definition that is being resolved, and it says what it says
while no lookup is in progress unless that is being resolved. -/
theorem search_free (trail : Trail) (scope : ScopeId) (e : Expr) (strategy : Strategy) :
    (resolver.search trail scope e strategy).lead.Free resolver.source trail ∧
      ((resolver.search Trail.start scope e strategy).lead.Free resolver.source trail →
        resolver.search trail scope e strategy =
          resolver.search Trail.start scope e strategy) := by
  cases strategy with
  | localDefinition => exact Source.localLead_free
  | assignment =>
      cases e with
      | symbol span name => exact Source.chainLead_free _ 0
      | _ => exact ⟨Source.free_of_none rfl, fun _ => rfl⟩
  | builtin | override | importPath | attributePath =>
      refine ⟨Source.free_of_none ?_, fun _ => rfl⟩
      simp only [search, builtinLead, overrideLead, Source.importLead, attributeLead]
      (repeat' split) <;> rfl

end Resolver

end DocSketch
