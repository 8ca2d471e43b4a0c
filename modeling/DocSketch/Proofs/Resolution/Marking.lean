import DocSketch.Proofs.Resolution.Findings
import DocSketch.Proofs.Types.Marking

/-!
# Resolved types are marked

Leaves come from literals, from the tables of what every program knows, from widened numbers
and from labels, and they travel through containers, through what is remembered and through
other expressions.  Wherever they come from they are built in, and what is not built in has
marks around it.

* `Resolver.upholds_marked`: the ways of putting types together keep them marked.
* `Resolver.alternatives_finds`: resolutions find types that are marked.
* `Source.resolved_marked`: this for every request.
-/

namespace DocSketch

open Alternatives

variable {format : TypeFormat}

/-- A single built-in name is marked as it should be. -/
theorem marked_leaf {name : String} (joined : format.alternativesJoin = " or ")
    (builtin : isBuiltinName name = true) : Marked format (Alternatives.leaf name) :=
  List.forall_mem_singleton.mpr (.leaf (isBuiltinLabel_of_isBuiltinName joined builtin))

namespace Resolver

variable {resolver : Resolver} {memory : Memory}

/-- The ways of putting types together keep them marked. -/
theorem upholds_marked (joined : resolver.context.format.alternativesJoin = " or ") :
    resolver.Upholds (Marked resolver.context.format) (Marked resolver.context.format) where
  nothing := marked_nil
  part := id
  extend left right := extend_marked left right
  builtin := marked_leaf joined
  label _ := resolver.context.format.classify_marked fun _ own => by cases own
  unresolved _ := List.forall_mem_singleton.mpr (.unresolved _)
  container inside := List.forall_mem_singleton.mpr (.container inside)
  mapping left right := List.forall_mem_singleton.mpr (.mapping left right)
  element marked _ := by
    cases List.forall_mem_singleton.mp marked with
    | container inside => exact inside
  value marked _ := by
    cases List.forall_mem_singleton.mp marked with
    | mapping left right => exact right

/-- Resolutions find types that are marked, as long as what they remember is. -/
theorem alternatives_finds (joined : resolver.context.format.alternativesJoin = " or ")
    (trail : Trail) (scope : ScopeId) (e : Expr) :
    Finds (Marked resolver.context.format) (Marked resolver.context.format)
      (resolver.alternatives trail scope e) :=
  (upholds_marked joined).alternatives trail scope e

/-- The types of several expressions are marked. -/
theorem alternativesOfAll_finds (joined : resolver.context.format.alternativesJoin = " or ")
    (trail : Trail) (scope : ScopeId) (exprs : List Expr) {found : Alternatives}
    (marked : Marked resolver.context.format found) :
    Finds (Marked resolver.context.format) (Marked resolver.context.format)
      (resolver.alternativesOfAll trail scope found exprs) :=
  (upholds_marked joined).alternativesOfAll trail scope exprs marked

/-- Whatever requests came before, what is remembered is marked. -/
theorem Reachable.remembers (joined : resolver.context.format.alternativesJoin = " or ")
    (reached : resolver.Reachable memory) :
    Remembers (Marked resolver.context.format) memory :=
  (upholds_marked joined).remembers reached

end Resolver

namespace Source

/-- **Types are marked exactly if they are not built in.**  Where alternatives are joined as
usual, all types that a resolution finds are marked as they should be at every level, for every
source, expression and scope: whatever requests came before, whatever lookups are in progress,
and for the exits of a function as well. -/
theorem resolved_marked (source : Source) {context : ResolutionContext}
    (joined : context.format.alternativesJoin = " or ") (scope : ScopeId) :
    (∀ memory, (source.resolver context).Reachable memory →
      ∀ (trail : Trail) (e : Expr) (types : Alternatives),
        Resolver.outcome ((source.resolver context).alternatives trail scope e) memory = .ok types →
          Marked context.format types) ∧
    ∀ (exits : List Expr) (types : Alternatives),
      source.exitTypes context scope exits = .ok types → Marked context.format types := by
  constructor
  · intro memory reached trail e types found
    have kept := Resolver.Reachable.remembers joined reached
    exact (Resolver.alternatives_finds joined trail scope e memory kept).good types found
  · intro exits types found
    have start := Resolver.Reachable.remembers joined
      (.empty : (source.resolver context).Reachable _)
    exact (Resolver.alternativesOfAll_finds joined _ scope exits marked_nil _ start).good
      types found

/-- A context in which `y` is called `Path or None`. -/
def pathContext : ResolutionContext :=
  { overrides := .register .empty "y" (.label "Path or None") }

/-- The source `[1, y]`. -/
def pathList : Source :=
  .ofProgram "[1, y]" "m.py" ⟨[.expression ⟨0, 6⟩ (.sequence ⟨0, 6⟩ .list
    [.number ⟨1, 2⟩ .int "1", .symbol ⟨4, 5⟩ "y"])], ⟨0, 6⟩⟩

/-- The name in the list is known by its path only, which is marked as one alternative. -/
theorem pathList_name (memory : Memory) :
    (pathList.resolver pathContext).alternatives Trail.start 0 (.symbol ⟨4, 5⟩ "y") memory =
      .ok [.foreign "<Path or None>"] memory := by
  have plain : (Expr.symbol ⟨4, 5⟩ "y").literalReceiver? = none := rfl
  have standard : (pathList.resolver pathContext).strategies = Strategy.standard := rfl
  rw [Resolver.alternatives, standard, Strategy.standard, Resolver.firstFinding,
    Resolver.attempt_of_none plain (by with_unfolding_all rfl), Resolver.firstFinding,
    Resolver.attempt.eq_def]
  with_unfolding_all rfl

/-- The list has the types of its two elements in it. -/
theorem pathList_outcome :
    Resolver.outcome ((pathList.resolver pathContext).alternatives Trail.start 0
      (.sequence ⟨0, 6⟩ .list [.number ⟨1, 2⟩ .int "1", .symbol ⟨4, 5⟩ "y"])) Memory.empty =
      .ok [.container "list" [.leaf "int", .foreign "<Path or None>"]] := by
  have elements : (pathList.resolver pathContext).elementTypes Trail.start 0 []
      [.number ⟨1, 2⟩ .int "1", .symbol ⟨4, 5⟩ "y"] Memory.empty =
      .ok [.leaf "int", .foreign "<Path or None>"] Memory.empty := by
    have first : (Expr.number ⟨1, 2⟩ .int "1").isStarred = false := rfl
    have second : (Expr.symbol ⟨4, 5⟩ "y").isStarred = false := rfl
    have number (memory : Memory) : (pathList.resolver pathContext).alternatives Trail.start 0
        (.number ⟨1, 2⟩ .int "1") memory = .ok [.leaf "int"] memory := by
      rw [Resolver.alternatives]
      rfl
    rw [Resolver.elementTypes, first]
    change EStateM.bind _ _ _ = _
    simp only [EStateM.bind, number]
    rw [Resolver.elementTypes, second]
    change EStateM.bind _ _ _ = _
    simp only [EStateM.bind, pathList_name]
    rw [Resolver.elementTypes]
    rfl
  rw [Resolver.alternatives]
  simp only [Resolver.outcome, bind, pure, EStateM.bind, EStateM.pure, elements]
  rfl

/-- A list with a path in it is marked at every level. -/
theorem resolved_marked_pathList :
    pathContext.format.alternativesJoin = " or " ∧
      Resolver.outcome ((pathList.resolver pathContext).alternatives Trail.start 0
        (.sequence ⟨0, 6⟩ .list [.number ⟨1, 2⟩ .int "1", .symbol ⟨4, 5⟩ "y"])) Memory.empty =
        .ok [.container "list" [.leaf "int", .foreign "<Path or None>"]] ∧
      Marked pathContext.format [.container "list" [.leaf "int", .foreign "<Path or None>"]] :=
  ⟨rfl, pathList_outcome,
    (resolved_marked pathList rfl 0).1 Memory.empty .empty Trail.start _ _ pathList_outcome⟩

end Source

end DocSketch
