import DocSketch.Proofs.Resolution.Assembly

/-!
# Resolutions that pass over nothing

Resolutions pass over lookups that are in progress or nested too deeply, and they
remember what the exits of functions are.  A pursuit does none of this: it asks for the
types of whatever it needs, and it ends if all that it asks for does.

* `Pursuit`: a resolution that is done, or that asks for the types of an expression.
* `Resolver.pursue`: what is asked for to find the types of an expression.
* `Resolver.Ends`: what a pursuit ends with, if it ends.
* `Resolver.Ends.unique`: a pursuit ends in one way only.
-/

namespace DocSketch

/-- A resolution that is done, or that asks for the types of an expression in a scope and
goes on with the answer. -/
inductive Pursuit (α : Type) where
  | done (result : Except Fault α)
  | ask (scope : ScopeId) (e : Expr) (next : Except Fault Alternatives → Pursuit α)

namespace Pursuit

variable {α β : Type}

/-- Goes on with the value that a pursuit finds. -/
def andThen (pursuit : Pursuit α) (others : α → Pursuit β) : Pursuit β :=
  match pursuit with
  | done (.ok value) => others value
  | done (.error fault) => done (.error fault)
  | ask scope e next => ask scope e fun answer => (next answer).andThen others

instance : Monad Pursuit where
  pure value := done (.ok value)
  bind := andThen

/-- Asks for the types of an expression. -/
def types (scope : ScopeId) (e : Expr) : Pursuit Alternatives := ask scope e done

end Pursuit

namespace Resolver

/-- The types of the elements of a display, added to `found`. -/
def pursueElements (scope : ScopeId) (found : Alternatives) : List Expr → Pursuit Alternatives
  | [] => pure found
  | element :: others =>
    if element.isStarred then
      pursueElements scope found others
    else do
      let types ← Pursuit.types scope element
      pursueElements scope (Alternatives.extend found types) others

/-- The types of the keys and the values of a mapping, added to those found. -/
def pursueEntries (scope : ScopeId) (foundKeys foundValues : Alternatives) :
    List (Entry Expr) → Pursuit (Alternatives × Alternatives)
  | [] => pure (foundKeys, foundValues)
  | ⟨none, _⟩ :: others => pursueEntries scope foundKeys foundValues others
  | ⟨some key, value⟩ :: others => do
    let keyTypes ← Pursuit.types scope key
    let valueTypes ← Pursuit.types scope value
    pursueEntries scope (Alternatives.extend foundKeys keyTypes)
      (Alternatives.extend foundValues valueTypes) others

/-- The types of the exits of a function, added to `found`. -/
def pursueExits (resolver : Resolver) (scope : ScopeId) (found : Alternatives) :
    List Expr → Pursuit Alternatives
  | [] => pure found
  | exit :: others => .ask scope exit fun
    | .ok types => resolver.pursueExits scope (Alternatives.extend found types) others
    | .error fault =>
      if fault.isRecoverable then
        let own := Descriptor.unresolved (resolver.source.textOf exit.span)
        resolver.pursueExits scope (Alternatives.add found own) others
      else
        .done (.error fault)

def pursueLead (resolver : Resolver) : Lead → Pursuit (Option Finding)
  | .none => return none
  | .label text => return some (.label text)
  | .types types => return some (.types types)
  | .value outer value => do
    let types ← Pursuit.types outer value
    return some (.types types)
  | .exits function => do
    let types ← resolver.pursueExits function [] (resolver.source.scopes.get function).exits
    return some (.types types)

/-- What a strategy finds for a reference while no lookup is in progress. -/
def pursueStrategy (resolver : Resolver) (scope : ScopeId) (e : Expr) (strategy : Strategy) :
    Pursuit (Option Finding) :=
  match strategy, e.literalReceiver? with
  | .override, some (object, property) =>
    if resolver.context.overrides.isEmpty then
      pure none
    else do
      let types ← Pursuit.types scope object
      let paths := (types.head?.bind Descriptor.typeName?).toList.map (· ++ "." ++ property)
      return (resolver.context.overrideLabel? e.call? paths).map Finding.label
  | strategy, _ => resolver.pursueLead (resolver.search Trail.start scope e strategy).lead

/-- The types of a reference by the first strategy that finds something. -/
def pursueFirst (resolver : Resolver) (scope : ScopeId) (e : Expr) :
    List Strategy → Pursuit Alternatives
  | [] => pure (resolver.unresolved e)
  | strategy :: others => do
    match ← resolver.pursueStrategy scope e strategy with
    | some finding => return resolver.context.format.classify finding
    | none => resolver.pursueFirst scope e others

/-- What is asked for to find the types of an expression when nothing is passed over. -/
def pursue (resolver : Resolver) (scope : ScopeId) (e : Expr) : Pursuit Alternatives :=
  match e with
  | .number _ kind _ => pure (Alternatives.leaf kind.typeName)
  | .string _ kind _ => pure (Alternatives.leaf kind.typeName)
  | .constant _ value => pure (Alternatives.leaf value.typeName)
  | .symbol span name => resolver.pursueFirst scope (.symbol span name) resolver.strategies
  | .member span object property =>
    resolver.pursueFirst scope (.member span object property) resolver.strategies
  | .call span callee arguments keywords =>
    resolver.pursueFirst scope (.call span callee arguments keywords) resolver.strategies
  | .sequence _ kind elements => do
    let children ← pursueElements scope [] elements
    return [.container kind.typeName children]
  | .dict _ entries => do
    let (keys, values) ← pursueEntries scope [] [] entries
    return [.mapping keys values]
  | .comprehension _ .list element _ _ => do
    return [.container "list" (← Pursuit.types scope element)]
  | .comprehension _ .dict _ _ _ => pure (Alternatives.leaf "dict")
  | .comprehension _ .set _ _ _ => pure (Alternatives.leaf "set")
  | .comprehension _ .generator _ _ _ => pure (Alternatives.leaf "Generator")
  | .binary _ left operator right =>
    if operator.kind.isRelationalOrLogical then
      pure (Alternatives.leaf "bool")
    else do
      let leftTypes ← Pursuit.types scope left
      if operator.kind = .percent ∧ leftTypes = Alternatives.leaf "str" then
        return leftTypes
      else
        let rightTypes ← Pursuit.types scope right
        return (arithmetic? operator.kind leftTypes rightTypes).getD (resolver.unresolved e)
  | .unary _ operator operand =>
    if operator.kind = .notKw then pure (Alternatives.leaf "bool")
    else if operator.kind = .awaitKw then pure (resolver.unresolved e)
    else Pursuit.types scope operand
  | .ternary _ body _ orelse => do
    let bodyTypes ← Pursuit.types scope body
    let orelseTypes ← Pursuit.types scope orelse
    return Alternatives.extend bodyTypes orelseTypes
  | .subscript _ object index => do
    let objectTypes ← Pursuit.types scope object
    return (subscript? objectTypes index.isSlice).getD (resolver.unresolved e)
  | .lambda .. =>
    .done (.error ⟨.unsupportedConstruct "lambda", ⟨e.span.start, resolver.source.file⟩⟩)
  | .starred .. =>
    .done (.error ⟨.unsupportedConstruct "starred", ⟨e.span.start, resolver.source.file⟩⟩)
  | .slice .. =>
    .done (.error ⟨.unsupportedConstruct "slice", ⟨e.span.start, resolver.source.file⟩⟩)
  | .yield .. =>
    .done (.error ⟨.unsupportedConstruct "yield", ⟨e.span.start, resolver.source.file⟩⟩)

/-- A pursuit puts the types of elements together. -/
theorem pursueElements_eq (scope : ScopeId) (found : Alternatives) (elements : List Expr) :
    pursueElements scope found elements =
      assembleElements (Pursuit.types scope) found elements := by
  induction elements generalizing found with
  | nil => rfl
  | cons element others ih =>
      rw [pursueElements, assembleElements]
      simp only [ih]

/-- A pursuit puts the types of entries together. -/
theorem pursueEntries_eq (scope : ScopeId) (foundKeys foundValues : Alternatives)
    (entries : List (Entry Expr)) :
    pursueEntries scope foundKeys foundValues entries =
      assembleEntries (Pursuit.types scope) foundKeys foundValues entries := by
  induction entries generalizing foundKeys foundValues with
  | nil => rfl
  | cons entry others ih =>
      obtain ⟨key | key, value⟩ := entry
      all_goals
        rw [pursueEntries, assembleEntries]
        simp only [ih]

/-- What a pursuit asks for about an expression. -/
def pursuedInquiry (resolver : Resolver) (scope : ScopeId) (e : Expr) : Inquiry Pursuit where
  part := Pursuit.types scope
  reference := resolver.pursueFirst scope e resolver.strategies
  untyped construct :=
    .done (.error ⟨.unsupportedConstruct construct, ⟨e.span.start, resolver.source.file⟩⟩)

/-- A pursuit puts types together. -/
theorem pursue_assembled (resolver : Resolver) (scope : ScopeId) (e : Expr) :
    resolver.pursue scope e = resolver.assemble (resolver.pursuedInquiry scope e) e := by
  cases e with
  | sequence span kind elements =>
      rw [pursue, pursueElements_eq]
      rfl
  | dict span entries =>
      rw [pursue, pursueEntries_eq]
      rfl
  | comprehension span kind element value clauses => cases kind <;> rfl
  | _ => rfl

/-- A pursuit ends with a result: whatever is asked for on the way is pursued to its end. -/
inductive Ends (resolver : Resolver) : {α : Type} → Pursuit α → Except Fault α → Prop
  | done {α : Type} (result : Except Fault α) : Ends resolver (.done result) result
  | ask {α : Type} {scope : ScopeId} {e : Expr} {answer : Except Fault Alternatives}
      {next : Except Fault Alternatives → Pursuit α} {result : Except Fault α}
      (asked : Ends resolver (resolver.pursue scope e) answer)
      (continued : Ends resolver (next answer) result) :
      Ends resolver (.ask scope e next) result

namespace Ends

variable {resolver : Resolver} {α β : Type} {pursuit : Pursuit α}

/-- The question for the types of an expression ends as its pursuit does. -/
theorem types {scope : ScopeId} {e : Expr} {answer : Except Fault Alternatives}
    (asked : resolver.Ends (resolver.pursue scope e) answer) :
    resolver.Ends (Pursuit.types scope e) answer :=
  .ask asked (.done answer)

/-- A question that is answered goes on with its answer. -/
theorem answer {scope : ScopeId} {e : Expr} {answer : Except Fault Alternatives}
    {next : Except Fault Alternatives → Pursuit α} {result : Except Fault α}
    (ends : resolver.Ends (Pursuit.types scope e) answer)
    (continued : resolver.Ends (next answer) result) :
    resolver.Ends (.ask scope e next) result := by
  cases ends with
  | ask asked last =>
      cases last
      exact .ask asked continued

/-- A pursuit ends in one way only. -/
theorem unique {first second : Except Fault α} (ends : resolver.Ends pursuit first)
    (again : resolver.Ends pursuit second) : first = second := by
  induction ends with
  | done result =>
      cases again with
      | done => rfl
  | ask asked continued ihAsked ihContinued =>
      cases again with
      | ask other further =>
          cases ihAsked other
          exact ihContinued further

/-- A pursuit that finds a value goes on with it. -/
theorem bind {value : α} {others : α → Pursuit β} {result : Except Fault β}
    (ends : resolver.Ends pursuit (.ok value)) (further : resolver.Ends (others value) result) :
    resolver.Ends (pursuit >>= others) result := by
  generalize found : Except.ok value = first at ends
  induction ends with
  | done first =>
      cases found
      exact further
  | ask asked continued ihAsked ihContinued => exact .ask asked (ihContinued further found)

/-- A pursuit that ends with a fault goes no further. -/
theorem bind_error {fault : Fault} (others : α → Pursuit β)
    (ends : resolver.Ends pursuit (.error fault)) :
    resolver.Ends (pursuit >>= others) (.error fault) := by
  generalize failed : Except.error fault = first at ends
  induction ends with
  | done first =>
      cases failed
      exact .done _
  | ask asked continued ihAsked ihContinued => exact .ask asked (ihContinued others failed)

end Ends

end Resolver

end DocSketch
