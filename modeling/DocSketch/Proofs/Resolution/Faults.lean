import DocSketch.Proofs.Resolution.Assembly
import DocSketch.Proofs.Resolution.Requests
import DocSketch.Proofs.Scope.Collection

/-!
# Faults of resolutions

A resolution fails only because it meets an expression of a form that has no type: the
fault that too deeply nested lookups raise is caught where the strategies are tried.

* `Resolver.Faults`: the faults with which a computation can fail.
* `Resolver.Stays`: expressions that resolutions do not leave.
* `Resolver.alternatives_faults`: the faults of a resolution.
-/

namespace DocSketch

/-- The receiver of a literal's attribute is part of the reference, or of its callee. -/
theorem Expr.mem_children_of_literalReceiver? {e object : Expr} {property : String}
    (found : e.literalReceiver? = some (object, property)) :
    object ∈ e.children ∨ ∃ callee ∈ e.children, object ∈ callee.children := by
  have inTarget : object ∈ e.target.children := by
    unfold literalReceiver? at found
    split at found
    case h_1 span receiver name target =>
      split at found
      · simp only [Option.some.injEq, Prod.mk.injEq] at found
        simp only [target, children, found.1, List.mem_singleton]
      · exact absurd found (by simp)
    case h_2 => exact absurd found (by simp)
  cases e with
  | call span callee arguments keywords =>
      exact .inr ⟨callee, by simp only [children, List.cons_append, List.mem_cons, true_or],
        inTarget⟩
  | _ => exact .inl inTarget

namespace Resolver

variable {resolver : Resolver} {α β : Type} {allowed : Fault → Prop}

/-- A computation fails with allowed faults only. -/
def Faults (allowed : Fault → Prop) (request : Resolve α) : Prop :=
  ∀ memory fault next, request memory = .error fault next → allowed fault

namespace Faults

theorem pure (value : α) : Faults allowed (pure value : Resolve α) := by
  intro memory fault next failed
  cases failed

theorem get : Faults allowed (get : Resolve Memory) := by
  intro memory fault next failed
  cases failed

/-- Changing the memory does not fail. -/
theorem modify (change : Memory → Memory) : Faults allowed (modify change : Resolve Unit) := by
  intro memory fault next failed
  cases failed

theorem throw {fault : Fault} (fits : allowed fault) :
    Faults allowed (throw fault : Resolve α) := by
  intro memory raised next failed
  cases failed
  exact fits

/-- Two computations in turn fail with allowed faults if each of them does. -/
theorem bind {first : Resolve α} {others : α → Resolve β} (head : Faults allowed first)
    (tail : ∀ value, Faults allowed (others value)) : Faults allowed (first >>= others) := by
  intro memory fault next failed
  change EStateM.bind first others memory = _ at failed
  unfold EStateM.bind at failed
  cases outcome : first memory with
  | ok value middle =>
      rw [outcome] at failed
      exact tail value middle fault next failed
  | error raised middle =>
      rw [outcome] at failed
      cases failed
      exact head memory fault next outcome

theorem mono {wider : Fault → Prop} {request : Resolve α} (faults : Faults allowed request)
    (weaker : ∀ fault, allowed fault → wider fault) : Faults wider request :=
  fun memory fault next failed => weaker fault (faults memory fault next failed)

/-- Values add no faults, and going on adds none that are not allowed. -/
theorem congruence : Congruence fun α (request _ : Resolve α) => Faults allowed request where
  pure := .pure
  bind := .bind

end Faults

/-- Exits that fail stand for themselves, so they never fail together. -/
theorem exitAlternatives_faults {trail : Trail} {scope : ScopeId}
    (recoverable : ∀ fault, allowed fault → fault.isRecoverable = true)
    (exits : List Expr) (found : Alternatives)
    (each : ∀ e ∈ exits, Faults allowed (resolver.alternatives trail scope e)) :
    Faults (fun _ => False) (resolver.exitAlternatives trail scope found exits) := by
  induction exits generalizing found with
  | nil =>
      rw [exitAlternatives]
      exact .pure found
  | cons exit others ih =>
      have later : ∀ e ∈ others, Faults allowed (resolver.alternatives trail scope e) :=
        fun e member => each e (List.mem_cons_of_mem _ member)
      intro memory fault next failed
      rw [exitAlternatives] at failed
      cases outcome : resolver.alternatives trail scope exit memory with
      | ok types middle =>
          simp only [outcome] at failed
          exact ih _ later middle fault next failed
      | error raised middle =>
          have caught := recoverable raised
            (each exit List.mem_cons_self memory raised middle outcome)
          simp only [outcome, caught, ↓reduceIte] at failed
          exact ih _ later middle fault next failed

/-- Whether lookups were cut because they are nested too deeply. -/
abbrev Deep (fault : Fault) : Prop := fault.cause.isRecursionGuard = true

/-- Trying strategies in turn catches the fault of too deeply nested lookups. -/
theorem firstFinding_faults {trail : Trail} {scope : ScopeId} {e : Expr}
    (strategies : List Strategy)
    (each : ∀ strategy, Faults (fun fault => allowed fault ∨ Deep fault)
      (resolver.attempt trail scope e strategy)) :
    Faults allowed (resolver.firstFinding trail scope e strategies) := by
  induction strategies with
  | nil =>
      rw [firstFinding]
      exact .pure _
  | cons strategy others ih =>
      intro memory fault next failed
      rw [firstFinding] at failed
      cases outcome : resolver.attempt trail scope e strategy memory with
      | ok finding middle =>
          cases finding with
          | none =>
              simp only [outcome] at failed
              exact ih middle fault next failed
          | some finding => simp only [outcome, reduceCtorEq] at failed
      | error raised middle =>
          by_cases deep : Deep raised
          · simp only [outcome, deep, ↓reduceIte] at failed
            exact ih _ fault next failed
          · simp only [outcome, deep, ↓reduceIte] at failed
            cases failed
            exact (each strategy memory fault next outcome).resolve_right deep

/-- A strategy fails as the expression it turns to does, or because lookups are nested
too deeply. -/
theorem attempt_faults {trail : Trail} {scope : ScopeId} {e : Expr} (strategy : Strategy)
    (recoverable : ∀ fault, allowed fault → fault.isRecoverable = true)
    (asked : ∀ next : Request, resolver.Asks ⟨trail, scope, e⟩ next →
      Faults allowed (resolver.alternatives next.trail next.scope next.expr)) :
    Faults (fun fault => allowed fault ∨ Deep fault)
      (resolver.attempt trail scope e strategy) := by
  rw [attempt.eq_def]
  split
  case h_1 object property found =>
    split
    · exact .pure _
    · exact .bind ((asked _ (.receiver found)).mono fun _ => .inl) fun types => .pure _
  case h_2 =>
    refine .bind (.modify _) fun _ => ?_
    split
    · exact .pure _
    · exact .pure _
    · exact .pure _
    case h_4 outer value found =>
      split
      case isTrue below =>
        exact .bind ((asked _ (.value found below)).mono fun _ => .inl) fun types => .pure _
      case isFalse => exact .throw (.inr rfl)
    case h_5 function found =>
      refine .bind .get fun memory => ?_
      split
      · exact .pure _
      · split
        case isTrue below =>
          refine .bind ?_ fun types => .bind (.modify _) fun _ => .pure _
          exact (exitAlternatives_faults recoverable _ _ fun exit member =>
            asked _ (.exit found below member)).mono fun _ => False.elim
        case isFalse => exact .throw (.inr rfl)

/-- Expressions that resolutions do not leave. -/
structure Stays (resolver : Resolver) (Known : Expr → Prop) : Prop where
  child : ∀ {e child : Expr}, Known e → child ∈ e.children → Known child
  value : ∀ {trail : Trail} {scope outer : ScopeId} {e value : Expr} {strategy : Strategy},
    (resolver.search trail scope e strategy).lead = .value outer value → Known value
  exit : ∀ {function : ScopeId} {exit : Expr},
    exit ∈ (resolver.source.scopes.get function).exits → Known exit

/-- What is asked for because of a known expression is known. -/
theorem Stays.asks {Known : Expr → Prop} (stays : resolver.Stays Known) {request next : Request}
    (known : Known request.expr) (asks : resolver.Asks request next) : Known next.expr := by
  cases asks with
  | part member => exact stays.child known member
  | receiver found =>
      obtain direct | ⟨callee, outer, inner⟩ := Expr.mem_children_of_literalReceiver? found
      · exact stays.child known direct
      · exact stays.child (stays.child known outer) inner
  | value found allowed => exact stays.value found
  | exit found allowed member => exact stays.exit member

/-- A fault at the start of a known expression that has no type. -/
def Untyped (resolver : Resolver) (Known : Expr → Prop) (fault : Fault) : Prop :=
  ∃ node construct, Known node ∧ node.untyped? = some construct ∧
    fault = ⟨.unsupportedConstruct construct, ⟨node.span.start, resolver.source.file⟩⟩

/-- An expression can stand in for the type it does not have. -/
theorem Untyped.isRecoverable {Known : Expr → Prop} {fault : Fault}
    (untyped : resolver.Untyped Known fault) : fault.isRecoverable = true := by
  obtain ⟨node, construct, -, -, rfl⟩ := untyped
  rfl

/-- A resolution of a known expression fails only at a known expression without a type. -/
theorem alternatives_faults {Known : Expr → Prop} (stays : resolver.Stays Known) (trail : Trail)
    (scope : ScopeId) (e : Expr) (known : Known e) :
    Faults (resolver.Untyped Known) (resolver.alternatives trail scope e) := by
  induction trail, scope, e using resolver.request_induction with
  | step trail scope e ih =>
      have asked : ∀ next : Request, resolver.Asks ⟨trail, scope, e⟩ next →
          Faults (resolver.Untyped Known)
            (resolver.alternatives next.trail next.scope next.expr) :=
        fun next asks => ih next asks (stays.asks known asks)
      have reference : Faults (resolver.Untyped Known)
          (resolver.firstFinding trail scope e resolver.strategies) :=
        firstFinding_faults _ fun strategy =>
          attempt_faults strategy (fun _ => Untyped.isRecoverable) asked
      rw [alternatives_assembled]
      exact Faults.congruence.assemble (resolver.inquiry trail scope e)
        (resolver.inquiry trail scope e) (fun child member => asked _ (.part member)) reference
        fun construct form => .throw ⟨e, construct, known, form, rfl⟩

/-- Resolving known expressions fails at known expressions without a type only. -/
theorem alternativesOfAll_faults {Known : Expr → Prop} (stays : resolver.Stays Known)
    (trail : Trail) (scope : ScopeId) :
    ∀ (exprs : List Expr) (found : Alternatives), (∀ e ∈ exprs, Known e) →
      Faults (resolver.Untyped Known) (resolver.alternativesOfAll trail scope found exprs)
  | [], found, _ => .pure found
  | e :: others, _, known =>
      .bind (alternatives_faults stays trail scope e (known e List.mem_cons_self)) fun _ =>
        alternativesOfAll_faults stays trail scope others _ fun other member =>
          known other (List.mem_cons_of_mem _ member)

/-- A request of its own fails with the faults of its computation. -/
theorem run_faults {request : Resolve α} (faults : Faults allowed request) {fault : Fault}
    (failed : Resolver.run request = .error fault) : allowed fault := by
  unfold Resolver.run at failed
  cases outcome : request Memory.empty with
  | ok value next => simp only [outcome, reduceCtorEq] at failed
  | error raised next =>
      simp only [outcome, Except.error.injEq] at failed
      exact failed ▸ faults _ raised next outcome

end Resolver

end DocSketch
