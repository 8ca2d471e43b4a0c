import DocSketch.Proofs.Resolution.Faults
import DocSketch.Proofs.Token.Steps

/-!
# Outcomes of requests

Resolutions of the expressions of a text stay among these expressions, so a request
ends with types, or with a fault at a node of the text that has no type.

* `Source.resolver_stays`: leads only point to what the text has.
* `Source.request_outcome`: the outcome of a request for an expression or for exits.
-/

namespace DocSketch

variable {Known : Expr → Prop}

/-- Values that are paired with targets are parts of a known value. -/
theorem known_of_pairedValues? {count : Nat} {value : Option Expr} {values : List Expr}
    (closed : ∀ {e child : Expr}, Known e → child ∈ e.children → Known child)
    (known : ∀ e, value = some e → Known e) (paired : pairedValues? count value = some values) :
    ∀ e ∈ values, Known e := by
  unfold pairedValues? at paired
  split at paired
  case h_1 span kind elements =>
    split at paired
    · cases paired
      exact fun e member => closed (known _ rfl) member
    · exact absurd paired (by simp)
  case h_2 => exact absurd paired (by simp)

mutual

/-- A name is bound to the value of its assignment or to a part of it. -/
theorem known_of_bound? {name : String}
    (closed : ∀ {e child : Expr}, Known e → child ∈ e.children → Known child) :
    ∀ {target : Expr} {value : Option Expr} {e : Expr}, (∀ v, value = some v → Known v) →
      bound? name value target = some (.value e) → Known e
  | .symbol span symbol, value, e, known, found => by
      unfold bound? at found
      split at found
      · cases value with
        | none => simp only [Option.some.injEq, reduceCtorEq] at found
        | some v =>
            simp only [Option.some.injEq, Bound.value.injEq] at found
            exact known e (found ▸ rfl)
      · exact absurd found (by simp)
  | .sequence span kind targets, value, e, known, found => by
      rw [bound?] at found
      split at found
      · exact absurd found (by simp)
      · split at found
        case h_1 values paired =>
          exact known_of_pairedBound? closed (known_of_pairedValues? closed known paired) found
        case h_2 => exact known_of_unpairedBound? closed found
  | .starred span target isDouble, value, e, known, found => by
      rw [bound?, Option.map_eq_some_iff] at found
      obtain ⟨bound, -, equal⟩ := found
      exact absurd equal (by simp)
  | .number .., _, _, _, found | .string .., _, _, _, found | .constant .., _, _, _, found
  | .member .., _, _, _, found | .call .., _, _, _, found | .dict .., _, _, _, found
  | .comprehension .., _, _, _, found | .binary .., _, _, _, found | .unary .., _, _, _, found
  | .ternary .., _, _, _, found | .subscript .., _, _, _, found | .slice .., _, _, _, found
  | .lambda .., _, _, _, found | .yield .., _, _, _, found => by
      simp only [bound?, reduceCtorEq] at found

/-- What a name is bound to in a pairing is one of the values or a part of one. -/
theorem known_of_pairedBound? {name : String}
    (closed : ∀ {e child : Expr}, Known e → child ∈ e.children → Known child) :
    ∀ {targets values : List Expr} {e : Expr}, (∀ v ∈ values, Known v) →
      pairedBound? name values targets = some (.value e) → Known e
  | [], values, e, known, found => by simp only [pairedBound?, reduceCtorEq] at found
  | target :: targets, [], e, known, found => by simp only [pairedBound?, reduceCtorEq] at found
  | target :: targets, value :: others, e, known, found => by
      rw [pairedBound?] at found
      cases first : bound? name (some value) target with
      | some bound =>
          rw [first] at found
          cases found
          refine known_of_bound? closed (fun v equal => ?_) first
          cases equal
          exact known value List.mem_cons_self
      | none =>
          rw [first] at found
          exact known_of_pairedBound? closed
            (fun v member => known v (List.mem_cons_of_mem _ member)) found

/-- A name in a target without a pairing is bound to no value. -/
theorem known_of_unpairedBound? {name : String}
    (closed : ∀ {e child : Expr}, Known e → child ∈ e.children → Known child) :
    ∀ {targets : List Expr} {e : Expr}, unpairedBound? name targets = some (.value e) → Known e
  | [], e, found => by simp only [unpairedBound?, reduceCtorEq] at found
  | target :: targets, e, found => by
      rw [unpairedBound?] at found
      cases first : bound? name none target with
      | some bound =>
          rw [first] at found
          cases found
          refine known_of_bound? closed (fun v equal => ?_) first
          cases equal
      | none =>
          rw [first] at found
          exact known_of_unpairedBound? closed found

end

namespace Source

variable {source : Source} {program : Program}

/-- The value that a parameter leads to is a node of the program. -/
theorem hasNode_of_parameterLead {trail : Trail} {scope : Scope} {parameter : Parameter Expr}
    {skips : Nat} {outer : ScopeId} {e : Expr} (drawn : scope.DrawnFrom program)
    (member : parameter ∈ scope.parameters)
    (found : (source.parameterLead trail scope parameter skips).lead = .value outer e) :
    program.HasNode e := by
  cases annotated : parameter.annotation with
  | some annotation => simp only [parameterLead, annotated, reduceCtorEq] at found
  | none =>
      cases given : parameter.default with
      | none =>
          simp only [parameterLead, annotated, given] at found
          split at found <;> exact absurd found (by simp)
      | some default =>
          simp only [parameterLead, annotated, given] at found
          split at found
          · dsimp only at found
            split at found <;> exact absurd found (by simp)
          · cases found
            exact drawn.default member given

/-- The value that a name in a scope leads to is a node of the program. -/
theorem hasNode_of_scopeLead {trail : Trail} {scope : Scope} {name : String} {outer : ScopeId}
    {e : Expr} (drawn : scope.DrawnFrom program) :
    ∀ {assignments : List Assignment} {skips : Nat},
      (∀ assignment ∈ assignments, assignment ∈ scope.assignments) →
      (source.scopeLead trail scope name skips assignments).lead = .value outer e →
      program.HasNode e
  | [], skips, _, found => by
      rw [scopeLead] at found
      split at found
      case h_1 parameter declared =>
        exact hasNode_of_parameterLead drawn (List.mem_of_find?_eq_some declared) found
      case h_2 => exact absurd found (by simp)
  | assignment :: others, skips, among, found => by
      have later : ∀ other ∈ others, other ∈ scope.assignments :=
        fun other member => among other (List.mem_cons_of_mem _ member)
      rw [scopeLead] at found
      split at found
      · exact hasNode_of_scopeLead drawn later found
      · exact absurd found (by simp)
      · exact absurd found (by simp)
      case h_4 value bound _ =>
        split at found
        · exact hasNode_of_scopeLead drawn later found
        · cases found
          obtain ⟨target, -, matched⟩ := List.exists_of_findSome?_eq_some bound
          exact known_of_bound? Program.HasNode.child
            (drawn.values assignment (among assignment List.mem_cons_self)) matched

/-- The value that a name in a chain of scopes leads to is a node of the program. -/
theorem hasNode_of_chainLead (drawn : ∀ id, (source.scopes.get id).DrawnFrom program)
    {trail : Trail} {name : String} {outer : ScopeId} {e : Expr} :
    ∀ {chain : List ScopeId} {skips : Nat},
      (source.chainLead trail name skips chain).lead = .value outer e → program.HasNode e
  | [], skips, found => by simp only [chainLead, reduceCtorEq] at found
  | id :: others, skips, found => by
      simp only [chainLead] at found
      split at found
      · exact hasNode_of_chainLead drawn found
      · exact hasNode_of_scopeLead (drawn id) (fun _ => List.mem_reverse.mp) found

/-- The value that a strategy leads to is a node of the program. -/
theorem hasNode_of_search {resolver : Resolver}
    (drawn : ∀ id, (resolver.source.scopes.get id).DrawnFrom program) {trail : Trail}
    {scope outer : ScopeId} {e value : Expr} {strategy : Strategy}
    (found : (resolver.search trail scope e strategy).lead = .value outer value) :
    program.HasNode value := by
  cases strategy with
  | builtin =>
      simp only [Resolver.search, builtinLead] at found
      split at found
      · split at found
        · exact absurd found (by simp)
        · split at found <;> exact absurd found (by simp)
      · exact absurd found (by simp)
  | override =>
      simp only [Resolver.search, Resolver.overrideLead] at found
      split at found <;> exact absurd found (by simp)
  | localDefinition =>
      simp only [Resolver.search, localLead] at found
      -- Every branch gives a label, types or exits.
      repeat' split at found
      all_goals exact absurd found (by simp)
  | importPath =>
      simp only [Resolver.search, importLead] at found
      split at found <;> exact absurd found (by simp)
  | attributePath =>
      simp only [Resolver.search, attributeLead] at found
      repeat' split at found
      all_goals exact absurd found (by simp)
  | assignment =>
      simp only [Resolver.search, assignmentLead] at found
      split at found
      · exact hasNode_of_chainLead drawn found
      · exact absurd found (by simp)

/-- Resolutions stay among the expressions of the program. -/
theorem resolver_stays (text file : String) (program : Program) (context : ResolutionContext) :
    ((Source.ofProgram text file program).resolver context).Stays program.Expresses where
  child := fun expresses member => .inl (expresses.child member)
  value := fun found => .inl (hasNode_of_search (scope_drawnFrom text file program) found)
  exit := fun {function exit} member =>
    (scope_drawnFrom text file program function).exits exit member

/-- The outcomes of a request about a program: a result, or the fault of a node that has
no type. -/
def Outcome {α : Type} (source : Source) (outcome : Except Fault α) : Prop :=
  (∃ result, outcome = .ok result) ∨
    ∃ node construct, source.program.HasNode node ∧ node.untyped? = some construct ∧
      outcome = .error ⟨.unsupportedConstruct construct, ⟨node.span.start, source.file⟩⟩

/-- A request that fails at untyped expressions of the program only has such an outcome. -/
theorem outcome_of_faults {α : Type} {context : ResolutionContext} {request : Resolve α}
    (faults : Resolver.Faults
      ((source.resolver context).Untyped source.program.Expresses) request) :
    source.Outcome (Resolver.run request) := by
  cases ended : Resolver.run request with
  | ok result => exact .inl ⟨result, rfl⟩
  | error fault =>
      obtain ⟨node, construct, has | ⟨span, rfl⟩, form, rfl⟩ := Resolver.run_faults faults ended
      · exact .inr ⟨node, construct, has, form, rfl⟩
      · exact absurd form (by simp [Expr.untyped?])

/-- An outcome stays one whatever is made of its result. -/
theorem Outcome.map {α β : Type} {outcome : Except Fault α} (ended : source.Outcome outcome)
    (change : α → β) : source.Outcome (change <$> outcome) := by
  obtain ⟨result, rfl⟩ | ⟨node, construct, has, form, rfl⟩ := ended
  · exact .inl ⟨change result, rfl⟩
  · exact .inr ⟨node, construct, has, form, rfl⟩

/-- **Requests end.** For every accepted text and every context, a request for the type
of an expression of the text, or for the types of exits, gives a result or the fault of a
node that has no type; it never fails because lookups are nested too deeply.  Everything
that a resolution asks for has fewer levels of lookups left, or as many and a smaller
expression, so no chain of requests goes on for ever. -/
theorem request_outcome {text file : String} {source : Source}
    (accepted : Source.read text file = .ok source) (context : ResolutionContext)
    (scope : ScopeId) :
    (∀ e, source.program.Expresses e → source.Outcome (source.typeOf context scope e)) ∧
      (∀ exits : List Expr, (∀ e ∈ exits, source.program.Expresses e) →
        source.Outcome (source.exitTypes context scope exits)) ∧
      (∀ request next, (source.resolver context).Asks request next →
        Prod.Lex (· < ·) (· < ·) next.rank request.rank) ∧
      WellFounded fun next request => (source.resolver context).Asks request next := by
  obtain ⟨tokens, program, -, -, rfl⟩ := eq_ofProgram_of_read accepted
  have stays := resolver_stays text file program context
  refine ⟨fun e expresses => ?_, fun exits expresses => ?_, fun _ _ asks => asks.rank_lt,
    Resolver.asks_wellFounded _⟩
  · exact (outcome_of_faults
      (Resolver.alternatives_faults stays Trail.start scope e expresses)).map _
  · exact outcome_of_faults (Resolver.alternativesOfAll_faults stays _ scope exits [] expresses)

/-- The text `x=lambda:x`, in which a name is assigned a function that refers to it. -/
theorem read_self_reference :
    Source.read "x=lambda:x" "m.py" = .ok (Source.ofProgram "x=lambda:x" "m.py"
      ⟨[.assign ⟨0, 10⟩ [.symbol ⟨0, 1⟩ "x"]
        (some (.lambda ⟨2, 10⟩ [] (.symbol ⟨9, 10⟩ "x"))) none], ⟨0, 10⟩⟩) := by
  have scanned : Layout.scanWithin 10 .initial "m.py" 0 "x=lambda:x".toList =
      some (.ok [⟨.identifier, "x", ⟨0, 1⟩⟩, ⟨.assignment, "=", ⟨1, 2⟩⟩,
        ⟨.lambdaKw, "lambda", ⟨2, 8⟩⟩, ⟨.colon, ":", ⟨8, 9⟩⟩, ⟨.identifier, "x", ⟨9, 10⟩⟩,
        ⟨.newline, "", ⟨10, 10⟩⟩, ⟨.eof, "", ⟨10, 10⟩⟩]) := by
    with_unfolding_all rfl
  exact read_of_steps 10 scanned (by with_unfolding_all rfl)

/-- In `x=lambda:x` the request about `x` comes to the lambda, which has no type. -/
theorem request_outcome_self_reference :
    ∃ source, Source.read "x=lambda:x" "m.py" = .ok source ∧
      source.program.Expresses (.symbol ⟨9, 10⟩ "x") ∧
      source.Outcome (source.typeOf {} 0 (.symbol ⟨9, 10⟩ "x")) := by
  refine ⟨_, read_self_reference, ?_⟩
  have body : (Source.ofProgram "x=lambda:x" "m.py"
      ⟨[.assign ⟨0, 10⟩ [.symbol ⟨0, 1⟩ "x"]
        (some (.lambda ⟨2, 10⟩ [] (.symbol ⟨9, 10⟩ "x"))) none], ⟨0, 10⟩⟩).program.Expresses
      (.symbol ⟨9, 10⟩ "x") := by
    refine .inl (.part (e := .lambda ⟨2, 10⟩ [] (.symbol ⟨9, 10⟩ "x")) ?_ List.mem_cons_self)
    exact .top (.top List.mem_cons_self) (List.mem_cons_of_mem _ List.mem_cons_self)
  exact ⟨body, (request_outcome read_self_reference {} 0).1 _ body⟩

end Source

end DocSketch
