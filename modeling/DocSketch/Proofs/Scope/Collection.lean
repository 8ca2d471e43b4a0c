import DocSketch.Proofs.Scope.Walk
import DocSketch.Source

/-!
# What scopes hold

The walk over a program only records what it finds: every expression of a scope stands
in the program or is a `None` that the program leaves out, and every function scope has
the signature of a function of the program.

* `Scope.DrawnFrom`: a scope holds nothing but what a program has.
* `Collection.DrawnFrom`: this for all scopes found so far, each at the place of its
  number.
* `Source.scope_drawnFrom`: this for the scopes of a text that was read.
* `ScopeTree.functions_eq`: the function scopes by their numbers.
-/

namespace DocSketch

/-- A scope holds nothing but what a program has. -/
structure Scope.DrawnFrom (program : Program) (scope : Scope) : Prop where
  returns : ∀ e ∈ scope.returns, program.Expresses e
  yields : ∀ e ∈ scope.yields, program.Expresses e
  values : ∀ assignment ∈ scope.assignments, ∀ e, assignment.value = some e → program.HasNode e
  declared : scope.kind = .function → scope.signature.isSome
  signatures : ∀ signature, scope.signature = some signature → program.Declares signature

/-- All scopes hold nothing but what a program has, and each is at the place of its
number. -/
structure Collection.DrawnFrom (program : Program) (found : Collection) : Prop where
  ids : found.scopes.map Scope.id = List.range found.scopes.length
  scopes : ∀ scope ∈ found.scopes, scope.DrawnFrom program

open Program

variable {program : Program}

namespace Scope.DrawnFrom

/-- What a scope returns and yields stands in the program. -/
theorem exits {scope : Scope} (drawn : scope.DrawnFrom program) :
    ∀ e ∈ scope.exits, program.Expresses e := by
  intro e member
  obtain returned | yielded := List.mem_append.mp member
  · exact drawn.returns e returned
  · exact drawn.yields e yielded

/-- The default of a parameter of a scope is a node of the program. -/
theorem default {scope : Scope} (drawn : scope.DrawnFrom program) {parameter : Parameter Expr}
    (member : parameter ∈ scope.parameters) {e : Expr} (given : parameter.default = some e) :
    program.HasNode e := by
  unfold Scope.parameters at member
  cases declared : scope.signature with
  | none => simp only [declared, Option.map_none, Option.getD_none, List.not_mem_nil] at member
  | some signature =>
      simp only [declared, Option.map_some, Option.getD_some] at member
      exact (drawn.signatures signature declared).hasNode_default member given

theorem empty (id : ScopeId) (kind : ScopeKind) (name : String) (parent : Option ScopeId)
    (span : Span) (signature : Option Signature) (declared : kind = .function → signature.isSome)
    (signatures : ∀ own, signature = some own → program.Declares own) :
    (Scope.empty id kind name parent span signature).DrawnFrom program where
  returns := by simp only [Scope.empty, List.not_mem_nil, false_implies, implies_true]
  yields := by simp only [Scope.empty, List.not_mem_nil, false_implies, implies_true]
  values := by simp only [Scope.empty, List.not_mem_nil, false_implies, implies_true]
  declared := declared
  signatures := signatures

end Scope.DrawnFrom

namespace Collection

namespace DrawnFrom

variable {found : Collection}

/-- A change that keeps the number of a scope, and keeps it within the program. -/
theorem modify (drawn : found.DrawnFrom program) (id : ScopeId) (change : Scope → Scope)
    (same : ∀ scope, (change scope).id = scope.id)
    (kept : ∀ scope, scope.DrawnFrom program → (change scope).DrawnFrom program) :
    (found.modify id change).DrawnFrom program where
  ids := by
    have unchanged : (found.scopes.modify id change).map Scope.id = found.scopes.map Scope.id := by
      apply List.ext_getElem
      · simp only [List.length_map, List.length_modify]
      · intro index _ _
        simp only [List.getElem_map, List.getElem_modify]
        split
        · exact same _
        · rfl
    simp only [Collection.modify, unchanged, drawn.ids, List.length_modify]
  scopes := by
    intro scope member
    obtain ⟨index, inside, rfl⟩ := List.mem_iff_getElem.mp member
    simp only [Collection.modify, List.getElem_modify]
    split
    · exact kept _ (drawn.scopes _ (List.getElem_mem _))
    · exact drawn.scopes _ (List.getElem_mem _)

/-- Opening a scope adds nothing that the program does not have. -/
theorem openScope (drawn : found.DrawnFrom program) (kind : ScopeKind) (name : String)
    (parent : ScopeId) (span : Span) (signature : Option Signature)
    (declared : kind = .function → signature.isSome)
    (signatures : ∀ own, signature = some own → program.Declares own) :
    (found.openScope kind name parent span signature).DrawnFrom program := by
  have linked := drawn.modify parent
    (fun scope => { scope with children := scope.children ++ [found.scopes.length] })
    (fun _ => rfl)
    (fun scope held => ⟨held.returns, held.yields, held.values, held.declared, held.signatures⟩)
  have size : (found.modify parent fun scope =>
      { scope with children := scope.children ++ [found.scopes.length] }).scopes.length =
        found.scopes.length := by
    simp only [Collection.modify, List.length_modify]
  constructor
  · simp only [Collection.openScope, List.map_append, List.map_cons, List.map_nil, linked.ids,
      List.length_append, List.length_singleton, List.range_succ, size, Scope.empty]
  · intro scope member
    obtain old | new := List.mem_append.mp member
    · exact linked.scopes scope old
    · cases List.mem_singleton.mp new
      exact Scope.DrawnFrom.empty _ _ _ _ _ _ declared signatures

/-- What yields in an expression of the program is of the program. -/
theorem addYields (drawn : found.DrawnFrom program) (id : ScopeId) {e : Expr}
    (has : program.HasNode e) : (found.addYields id e).DrawnFrom program := by
  refine drawn.modify id _ (fun _ => rfl) fun scope held =>
    ⟨held.returns, ?_, held.values, held.declared, held.signatures⟩
  intro operand member
  obtain old | new := List.mem_append.mp member
  · exact held.yields operand old
  · exact has.expresses_of_mem_yields new

/-- A returned expression of the program is of the program. -/
theorem addReturn (drawn : found.DrawnFrom program) (id : ScopeId) {e : Expr}
    (expresses : program.Expresses e) : (found.addReturn id e).DrawnFrom program := by
  refine drawn.modify id _ (fun _ => rfl) fun scope held =>
    ⟨?_, held.yields, held.values, held.declared, held.signatures⟩
  intro returned member
  obtain old | new := List.mem_append.mp member
  · exact held.returns returned old
  · cases List.mem_singleton.mp new
    exact expresses

/-- What is raised is not of concern here. -/
theorem addRaises (drawn : found.DrawnFrom program) (id : ScopeId) (es : List Expr) :
    (found.addRaises id es).DrawnFrom program :=
  drawn.modify id _ (fun _ => rfl) fun _ held =>
    ⟨held.returns, held.yields, held.values, held.declared, held.signatures⟩

/-- The value of an assignment is of the program. -/
theorem addAssignment (drawn : found.DrawnFrom program) (id : ScopeId) {assignment : Assignment}
    (has : ∀ e, assignment.value = some e → program.HasNode e) :
    (found.addAssignment id assignment).DrawnFrom program := by
  refine drawn.modify id _ (fun _ => rfl) fun scope held =>
    ⟨held.returns, held.yields, ?_, held.declared, held.signatures⟩
  intro recorded member e given
  obtain old | new := List.mem_append.mp member
  · exact held.values recorded old e given
  · cases List.mem_singleton.mp new
    exact has e given

/-- Imports are not of concern here. -/
theorem addImports (drawn : found.DrawnFrom program) (bindings : List ImportBinding) :
    (found.addImports bindings).DrawnFrom program :=
  ⟨drawn.ids, drawn.scopes⟩

/-- A statement without others inside of it adds nothing but what the program has. -/
theorem addStmt (drawn : found.DrawnFrom program) (id : ScopeId) (handled : List Expr)
    {stmt : Stmt} (simple : stmt.isSimple = true) (has : program.HasStmt stmt) :
    (found.addStmt id handled stmt).DrawnFrom program := by
  have node : ∀ e ∈ stmt.expressions, program.HasNode e := fun e => HasNode.top has
  cases stmt with
  | ret span value =>
      cases value with
      | none =>
          rw [Collection.addStmt]
          exact drawn.addReturn id (.inr ⟨span, rfl⟩)
      | some value =>
          have known := node value (List.mem_singleton.mpr rfl)
          rw [Collection.addStmt]
          exact (drawn.addYields id known).addReturn id (.inl known)
  | raise span exception cause =>
      cases exception <;> rw [Collection.addStmt] <;> exact drawn.addRaises id _
  | assign span targets value annotation =>
      cases value with
      | none =>
          rw [Collection.addStmt]
          exact drawn.addAssignment id nofun
      | some value =>
          have known : program.HasNode value := node value (by
            simp only [Stmt.expressions, Option.toList, List.mem_append, List.mem_singleton,
              or_true, true_or])
          rw [Collection.addStmt]
          refine (drawn.addYields id known).addAssignment id ?_
          intro e given
          cases given
          exact known
  | augAssign span target operator value =>
      rw [Collection.addStmt]
      exact drawn.addYields id (node value (List.mem_cons_of_mem _ List.mem_cons_self))
  | expression span value =>
      rw [Collection.addStmt]
      exact drawn.addYields id (node value List.mem_cons_self)
  | importNames | importFrom =>
      rw [Collection.addStmt]
      exact drawn.addImports _
  | keyword =>
      rw [Collection.addStmt]
      exact drawn
  | _ => cases simple

/-- Statements of the program add nothing but what the program has. -/
theorem follows : Follows fun found _ stmts later =>
    (∀ stmt ∈ stmts, program.HasStmt stmt) → found.DrawnFrom program →
      later.DrawnFrom program where
  nothing _ _ _ drawn := drawn
  trans first second has drawn := by
    obtain ⟨front, back⟩ := List.forall_mem_append.mp has
    exact second back (first front drawn)
  simple found id handled stmt simple has drawn :=
    drawn.addStmt id handled simple (has stmt List.mem_cons_self)
  block block inside has drawn := by
    refine inside (fun nested member => ?_) drawn
    exact (has _ List.mem_cons_self).inner (Stmt.inner_of_bodies block ▸ member)
  function inside has drawn := by
    have own := has _ List.mem_cons_self
    refine inside (fun nested member => own.inner member)
      (drawn.openScope _ _ _ _ _ (fun _ => rfl) ?_)
    intro signature equal
    cases equal
    exact ⟨_, _, _, _, _, own⟩
  classDef inside has drawn := by
    have own := has _ List.mem_cons_self
    exact inside (fun nested member => own.inner member)
      (drawn.openScope _ _ _ _ _ nofun nofun)

end DrawnFrom

end Collection

/-- The scopes of a program hold nothing but what it has. -/
theorem Program.collect_drawnFrom (program : Program) : program.collect.DrawnFrom program := by
  have root : (⟨[Scope.empty 0 .module "" none program.span none], []⟩ : Collection).DrawnFrom
      program := by
    constructor
    · rfl
    · intro scope member
      cases List.mem_singleton.mp member
      exact Scope.DrawnFrom.empty _ _ _ _ _ _ nofun nofun
  exact Collection.DrawnFrom.follows.addStmts _ 0 [] program.body (fun stmt member => .top member)
    root

/-- What is read from a text is the program with its scopes. -/
theorem Source.eq_ofProgram_of_read {text file : String} {source : Source}
    (accepted : Source.read text file = .ok source) :
    ∃ tokens program, Token.scan text file = .ok tokens ∧
      Program.ofTokens file tokens = .ok program ∧ source = Source.ofProgram text file program := by
  unfold Source.read at accepted
  cases scanned : Token.scan text file with
  | error fault => simp only [scanned, bind, Except.bind, reduceCtorEq] at accepted
  | ok tokens =>
      cases parsed : Program.ofTokens file tokens with
      | error fault => simp only [scanned, parsed, bind, Except.bind, reduceCtorEq] at accepted
      | ok program =>
          simp only [scanned, parsed, bind, Except.bind, pure, Except.pure,
            Except.ok.injEq] at accepted
          exact ⟨tokens, program, rfl, parsed, accepted.symm⟩

namespace ScopeTree

/-- What holds of all scopes and of empty ones holds of the scope with any number. -/
theorem get_drawnFrom {tree : ScopeTree} (drawn : ∀ scope ∈ tree.scopes, scope.DrawnFrom program)
    (id : ScopeId) : (tree.get id).DrawnFrom program := by
  unfold get
  rw [List.getD_eq_getElem?_getD]
  cases found : tree.scopes[id]? with
  | none => exact Scope.DrawnFrom.empty _ _ _ _ _ _ nofun nofun
  | some scope => exact drawn scope (List.mem_of_getElem? found)

/-- If each scope is at the place of its number, the function scopes are those whose
number leads to a function, in the order of the numbers. -/
theorem functions_eq {tree : ScopeTree}
    (ids : tree.scopes.map Scope.id = List.range tree.scopes.length) :
    tree.functions =
      (List.range tree.size).filter fun id => (tree.get id).kind = .function := by
  have place : ∀ scope ∈ tree.scopes, tree.get scope.id = scope := by
    intro scope member
    obtain ⟨index, inside, rfl⟩ := List.mem_iff_getElem.mp member
    have same : (tree.scopes[index]).id = index := by
      have := congrArg (fun list => list[index]?) ids
      simpa only [List.getElem?_map, List.getElem?_eq_getElem inside, Option.map_some,
        List.getElem?_range inside, Option.some.injEq] using this
    unfold get
    rw [same, List.getD_eq_getElem?_getD, List.getElem?_eq_getElem inside, Option.getD_some]
  unfold functions size
  rw [← ids, List.filter_map]
  congr 1
  refine List.filter_congr fun scope member => ?_
  simp only [Function.comp_apply, place scope member]

end ScopeTree

namespace Source

variable (text file : String) (program : Program)

/-- The scopes of a text hold nothing but what its program has. -/
theorem scope_drawnFrom (id : ScopeId) :
    ((Source.ofProgram text file program).scopes.get id).DrawnFrom program :=
  ScopeTree.get_drawnFrom program.collect_drawnFrom.scopes id

/-- The function scopes of a text in the order of their numbers. -/
theorem functions_ofProgram :
    (Source.ofProgram text file program).scopes.functions =
      (List.range (Source.ofProgram text file program).scopes.size).filter fun id =>
        ((Source.ofProgram text file program).scopes.get id).kind = .function :=
  ScopeTree.functions_eq program.collect_drawnFrom.ids

end Source

end DocSketch
