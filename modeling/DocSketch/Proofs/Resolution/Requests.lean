import DocSketch.Resolution.Resolver
import Mathlib.Order.RelClasses

/-!
# What a resolution asks for

To find the types of an expression, a resolution asks for the types of other
expressions: of parts of it, of what a name is bound to, and of what a function
returns.  Only the first kind leads to something smaller, but the other two nest
lookups one level deeper, of which there are at most `maxDepth`.

* `Request`: an expression of a scope, with the lookups in progress.
* `Resolver.Asks`: the requests that a request asks for.
* `Resolver.asks_wellFounded`: no chain of requests goes on for ever.
* `Resolver.request_induction`: a property of all requests follows from what the
  requests asked for pass on.
-/

namespace DocSketch

/-- An expression whose types are wanted, in its scope and under lookups in progress. -/
structure Request where
  trail : Trail
  scope : ScopeId
  expr : Expr

/-- Levels of lookups that are left, and the size of the expression. -/
noncomputable def Request.rank (request : Request) : Nat × Nat :=
  (maxDepth - request.trail.depth, sizeOf request.expr)

namespace Resolver

variable {resolver : Resolver}

/-- The requests that `resolver` turns to in order to answer a request. -/
inductive Asks (resolver : Resolver) : Request → Request → Prop
  /-- A part of the expression. -/
  | part {trail : Trail} {scope : ScopeId} {e child : Expr} (member : child ∈ e.children) :
      Asks resolver ⟨trail, scope, e⟩ ⟨trail, scope, child⟩
  /-- The literal whose attribute is taken. -/
  | receiver {trail : Trail} {scope : ScopeId} {e object : Expr} {property : String}
      (found : e.literalReceiver? = some (object, property)) :
      Asks resolver ⟨trail, scope, e⟩ ⟨trail, scope, object⟩
  /-- What a name is bound to. -/
  | value {trail : Trail} {scope outer : ScopeId} {e value : Expr} {strategy : Strategy}
      (found : (resolver.search trail scope e strategy).lead = .value outer value)
      (allowed : trail.depth < maxDepth) :
      Asks resolver ⟨trail, scope, e⟩ ⟨trail.enter [(outer, value.span)], outer, value⟩
  /-- What a function returns or yields. -/
  | exit {trail : Trail} {scope function : ScopeId} {e exit : Expr} {strategy : Strategy}
      (found : (resolver.search trail scope e strategy).lead = .exits function)
      (allowed : trail.depth < maxDepth)
      (member : exit ∈ (resolver.source.scopes.get function).exits) :
      Asks resolver ⟨trail, scope, e⟩
        ⟨trail.enter (resolver.source.exitKeys function), function, exit⟩

/-- Each lookup leaves fewer levels for the next one. -/
theorem levels_enter_lt {trail : Trail} (keys : List VisitKey) (allowed : trail.depth < maxDepth) :
    maxDepth - (trail.enter keys).depth < maxDepth - trail.depth := by
  simp only [Trail.enter]
  omega

/-- What is asked for has fewer levels left, or as many and a smaller expression. -/
theorem Asks.rank_lt {request next : Request} (asks : resolver.Asks request next) :
    Prod.Lex (· < ·) (· < ·) next.rank request.rank := by
  cases asks with
  | part member => exact Prod.Lex.right _ (Expr.sizeOf_lt_of_mem_children member)
  | receiver found => exact Prod.Lex.right _ (Expr.sizeOf_lt_of_literalReceiver? found)
  | value found allowed => exact Prod.Lex.left _ _ (levels_enter_lt _ allowed)
  | exit found allowed member => exact Prod.Lex.left _ _ (levels_enter_lt _ allowed)

/-- No chain of requests goes on for ever. -/
theorem asks_wellFounded (resolver : Resolver) :
    WellFounded fun next request => resolver.Asks request next :=
  Subrelation.wf (fun asks => asks.rank_lt)
    (InvImage.wf Request.rank (WellFounded.prod_lex Nat.lt_wfRel.wf Nat.lt_wfRel.wf))

/-- What holds of a request as soon as it holds of everything asked for holds of all
requests. -/
theorem request_induction (resolver : Resolver) {motive : Trail → ScopeId → Expr → Prop}
    (step : ∀ trail scope e,
      (∀ next : Request, resolver.Asks ⟨trail, scope, e⟩ next →
        motive next.trail next.scope next.expr) → motive trail scope e)
    (trail : Trail) (scope : ScopeId) (e : Expr) : motive trail scope e :=
  (asks_wellFounded resolver).induction
    (C := fun request => motive request.trail request.scope request.expr) ⟨trail, scope, e⟩
    fun request answered => step request.trail request.scope request.expr answered

end Resolver

end DocSketch
