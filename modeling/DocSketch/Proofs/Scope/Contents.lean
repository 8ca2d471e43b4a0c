import DocSketch.Proofs.Grammar.SourceOrder
import Mathlib.Data.List.Nodup

/-!
# What each scope gathers

The walk over a program finds in each scope exactly what the statements that its body owns
return, yield, raise and assign, in source order.

* `Stmt.returned`, `Stmt.assigned`, `Stmt.raised`, `Stmt.yielded`: what one statement adds.
* `Program.Opens`: the body that belongs to a scope.
* `Collection.Grown`: what a part of the walk changes.
* `Source.scope_holds`: what is gathered in a scope of an accepted text.
* `Source.scope_contents`: what a scope returns, assigns and raises.
-/

namespace DocSketch

namespace Stmt

/-- What a statement returns. -/
@[simp] def returned : Stmt → List Expr
  | ret _ (some value) => [value]
  | ret span none => [.constant span .none]
  | _ => []

/-- What a statement assigns, unless it changes a target that has a value. -/
@[simp] def assigned : Stmt → List Assignment
  | assign _ targets value annotation => [⟨targets, value, annotation⟩]
  | _ => []

/-- What a bare `raise` raises again where `clause` is the innermost `except` clause. -/
abbrev caught (clause : Option (Handler Stmt)) : List Expr :=
  caughtExceptions (clause.bind Handler.exception)

/-- What a statement raises where `clause` is the innermost `except` clause. -/
@[simp] def raised (clause : Option (Handler Stmt)) : Stmt → List Expr
  | raise _ (some exception) _ => [exception]
  | raise _ none _ => caught clause
  | _ => []

/-- What the value of a statement yields. -/
@[simp] def yielded (stmt : Stmt) : List Expr := stmt.value?.toList.flatMap Expr.yields

end Stmt

/-- What is gathered in a scope comes from the given statements. -/
structure Scope.Holds (scope : Scope) (items : List PlacedStmt) : Prop where
  returns : scope.returns = items.flatMap fun item => item.2.returned
  assignments : scope.assignments = items.flatMap fun item => item.2.assigned
  raises : scope.raises = items.flatMap fun item => item.2.raised item.1
  yields : scope.yields = items.flatMap fun item => item.2.yielded

/-- A scope is opened by the program or by one of its functions and classes, which has the
given body. -/
inductive Program.Opens (program : Program) (scope : Scope) : List Stmt → Prop
  | module (kind : scope.kind = .module) : Opens program scope program.body
  | function {signature : Signature} {body : List Stmt} {decorators : List Expr} {isAsync : Bool}
      (kind : scope.kind = .function) (declared : scope.signature = some signature)
      (has : program.HasStmt
        (.function scope.span scope.name signature body decorators isAsync)) :
      Opens program scope body
  | classDef {bases : List Expr} {keywords : List (Keyword Expr)} {body : List Stmt}
      {decorators : List Expr} (kind : scope.kind = .classDef)
      (has : program.HasStmt (.classDef scope.span scope.name bases keywords body decorators)) :
      Opens program scope body

/-- A scope of the program in which all statements of its body have been found. -/
def Scope.Complete (program : Program) (scope : Scope) : Prop :=
  ∃ body, program.Opens scope body ∧ scope.Holds (body.flatMap (Stmt.walk none))

/-- A scope in which further statements have been found, and further scopes opened. -/
def Scope.extend (scope : Scope) (children : List ScopeId) (items : List PlacedStmt) : Scope :=
  { scope with
    children := scope.children ++ children
    returns := scope.returns ++ items.flatMap fun item => item.2.returned
    yields := scope.yields ++ items.flatMap fun item => item.2.yielded
    raises := scope.raises ++ items.flatMap fun item => item.2.raised item.1
    assignments := scope.assignments ++ items.flatMap fun item => item.2.assigned }

namespace Scope

theorem extend_nil (scope : Scope) : scope.extend [] [] = scope := by
  simp only [extend, List.flatMap_nil, List.append_nil]

/-- Statements that are found in two steps are found in one. -/
theorem extend_extend (scope : Scope) (children others : List ScopeId)
    (items more : List PlacedStmt) :
    (scope.extend children items).extend others more =
      scope.extend (children ++ others) (items ++ more) := by
  simp only [extend, List.flatMap_append, List.append_assoc]

/-- A new scope holds what is found in it. -/
theorem holds_extend_empty (id : ScopeId) (kind : ScopeKind) (name : String)
    (parent : Option ScopeId) (span : Span) (signature : Option Signature)
    (children : List ScopeId) (items : List PlacedStmt) :
    ((empty id kind name parent span signature).extend children items).Holds items :=
  ⟨rfl, rfl, rfl, rfl⟩

end Scope

namespace Collection

/-- The walk has found further statements of the scope `id`, and further scopes, each with all
statements of its body. -/
def Grown (program : Program) (found : Collection) (id : ScopeId) (items : List PlacedStmt)
    (later : Collection) : Prop :=
  ∃ children opened, later.scopes = found.scopes.modify id (·.extend children items) ++ opened ∧
    ∀ scope ∈ opened, scope.Complete program

variable {program : Program} {found later last : Collection} {id : ScopeId}
  {items more : List PlacedStmt} {item : PlacedStmt} {clause : Option (Handler Stmt)}

/-- Changing a scope leaves those opened later alone. -/
theorem scopes_modify_append {scopes : List Scope} (inside : id < scopes.length)
    (opened : List Scope) (change : Scope → Scope) :
    (scopes ++ opened).modify id change = scopes.modify id change ++ opened := by
  rw [List.modify_eq_take_cons_drop (by rw [List.length_append]; exact Nat.lt_add_right _ inside),
    List.modify_eq_take_cons_drop inside, List.take_append_of_le_length inside.le,
    List.drop_append_of_le_length inside, List.getElem_append_left inside, List.append_assoc,
    List.cons_append]

/-- The scope opened last can be changed. -/
theorem scopes_modify_last {scopes : List Scope} (last : scopes.length = id) (scope : Scope)
    (change : Scope → Scope) :
    (scopes ++ [scope]).modify id change = scopes ++ [change scope] := by
  subst last
  exact List.modifyTailIdx_add (List.modifyHead change) 0 scopes [scope]

/-- A scope that is opened becomes a child of its parent and stands last. -/
theorem scopes_openScope (found : Collection) (kind : ScopeKind) (name : String)
    (parent : ScopeId) (span : Span) (signature : Option Signature) :
    (found.openScope kind name parent span signature).scopes =
      found.scopes.modify parent (·.extend [found.scopes.length] []) ++
        [Scope.empty found.scopes.length kind name (some parent) span signature] := by
  simp only [openScope, modify, Scope.extend, List.flatMap_nil, List.append_nil]

/-- Opening a scope makes one scope more. -/
theorem lt_length_openScope (found : Collection) (kind : ScopeKind) (name : String)
    (parent : ScopeId) (span : Span) (signature : Option Signature) :
    found.scopes.length < (found.openScope kind name parent span signature).scopes.length := by
  rw [scopes_openScope, List.length_append, List.length_modify]
  exact Nat.lt_succ_self _

namespace Grown

/-- Nothing is found. -/
theorem nothing (same : later.scopes = found.scopes) : Grown program found id [] later := by
  refine ⟨[], [], ?_, List.forall_mem_nil _⟩
  simp only [Scope.extend_nil, List.append_nil, same]
  exact (List.modify_id id found.scopes).symm

/-- A statement that adds nothing comes first. -/
theorem quiet (silent : ∀ (scope : Scope) children items,
      scope.extend children (item :: items) = scope.extend children items)
    (grown : Grown program found id items later) :
    Grown program found id (item :: items) later := by
  obtain ⟨children, opened, same, complete⟩ := grown
  refine ⟨children, opened, ?_, complete⟩
  simp only [same, silent]

/-- A statement adds something to its scope. -/
theorem single {change : Scope → Scope} (known : ∀ scope, change scope = scope.extend [] [item])
    (same : later.scopes = found.scopes.modify id change) :
    Grown program found id [item] later := by
  refine ⟨[], [], ?_, List.forall_mem_nil _⟩
  rw [same, funext known, List.append_nil]

/-- The walk loses no scope. -/
theorem inside (grown : Grown program found id items later) (here : id < found.scopes.length) :
    id < later.scopes.length := by
  obtain ⟨children, opened, same, -⟩ := grown
  rw [same, List.length_append, List.length_modify]
  exact Nat.lt_add_right _ here

theorem trans (first : Grown program found id items later) (here : id < found.scopes.length)
    (second : Grown program later id more last) : Grown program found id (items ++ more) last := by
  obtain ⟨children, opened, same, complete⟩ := first
  obtain ⟨others, further, again, completed⟩ := second
  refine ⟨children ++ others, opened ++ further, ?_,
    List.forall_mem_append.mpr ⟨complete, completed⟩⟩
  have both : (fun scope : Scope => scope.extend others more) ∘
      (fun scope : Scope => scope.extend children items) =
        fun scope => scope.extend (children ++ others) (items ++ more) :=
    funext fun scope => scope.extend_extend children others items more
  -- What the first part opened lies behind the scope that the second part changes.
  rw [again, same, scopes_modify_append (by rwa [List.length_modify]), List.modify_modify_eq, both,
    List.append_assoc]

/-- A statement with two bodies, without `except` clauses. -/
theorem orelse {stmt : Stmt} {body others : List Stmt}
    (first : Grown program found id (body.flatMap (Stmt.walk clause)) later)
    (here : id < found.scopes.length)
    (plain : stmt.contents = stmt.bodies.flatten.map (none, ·))
    (bodies : stmt.bodies = [body, others])
    (silent : ∀ (scope : Scope) children items,
      scope.extend children ((clause, stmt) :: items) = scope.extend children items)
    (second : Grown program later id (others.flatMap (Stmt.walk clause)) last) :
    Grown program found id (stmt.walk clause) last := by
  rw [Stmt.walk_of_bodies plain, bodies, List.flatten_cons, List.flatten_cons, List.flatten_nil,
    List.append_nil, List.flatMap_append]
  exact .quiet silent (first.trans here second)

/-- A statement opens a scope, in which its own statements are found. -/
theorem opening {kind : ScopeKind} {name : String} {span : Span} {signature : Option Signature}
    {body : List Stmt}
    (silent : ∀ (scope : Scope) children items,
      scope.extend children (item :: items) = scope.extend children items)
    (opens : ∀ scope : Scope, scope.kind = kind → scope.name = name → scope.span = span →
      scope.signature = signature → program.Opens scope body)
    (grown : Grown program (found.openScope kind name id span signature) found.scopes.length
      (body.flatMap (Stmt.walk none)) later) :
    Grown program found id [item] later := by
  obtain ⟨children, opened, same, complete⟩ := grown
  refine ⟨[found.scopes.length],
    (Scope.empty found.scopes.length kind name (some id) span signature).extend children
      (body.flatMap (Stmt.walk none)) :: opened, ?_, List.forall_mem_cons.mpr ⟨?_, complete⟩⟩
  · simp only [silent]
    rw [same, scopes_openScope, scopes_modify_last (List.length_modify ..), List.append_assoc,
      List.singleton_append]
  · exact ⟨body, opens _ rfl rfl rfl rfl, Scope.holds_extend_empty ..⟩

end Grown

mutual

/-- The walk finds a statement with what is inside it. -/
theorem addStmt_grown {found : Collection} {id : ScopeId} (here : id < found.scopes.length)
    (clause : Option (Handler Stmt)) : ∀ {stmt : Stmt}, program.HasStmt stmt →
      Grown program found id (stmt.walk clause) (found.addStmt id (Stmt.caught clause) stmt)
  -- A function or a class opens a scope of its own; in it no clause is around.
  | .function span name signature body decorators isAsync, has => by
      have inside : ∀ stmt ∈ body, program.HasStmt stmt := fun stmt member => has.inner member
      have fresh := found.lt_length_openScope .function name id span (some signature)
      rw [addStmt, Stmt.walk_of_bodies rfl]
      refine .opening (fun _ _ _ => rfl) ?_ (addStmts_grown fresh none inside)
      rintro scope kind rfl rfl declared
      exact .function kind declared has
  | .classDef span name bases keywords body decorators, has => by
      have inside : ∀ stmt ∈ body, program.HasStmt stmt := fun stmt member => has.inner member
      have fresh := found.lt_length_openScope .classDef name id span none
      rw [addStmt, Stmt.walk_of_bodies rfl]
      refine .opening (fun _ _ _ => rfl) ?_ (addStmts_grown fresh none inside)
      rintro scope kind rfl rfl -
      exact .classDef kind has
  | .ret span (some value), has => by
      rw [addStmt, Stmt.walk_of_bodies rfl]
      exact .single (fun scope => by simp [Scope.extend, Stmt.value?])
        (List.modify_modify_eq _ _ id found.scopes)
  | .ret span none, has => by
      rw [addStmt, Stmt.walk_of_bodies rfl]
      exact .single (fun scope => by simp [Scope.extend, Stmt.value?]) rfl
  | .raise span (some exception) cause, has => by
      rw [addStmt, Stmt.walk_of_bodies rfl]
      exact .single (fun scope => by simp [Scope.extend, Stmt.value?]) rfl
  | .raise span none cause, has => by
      rw [addStmt, Stmt.walk_of_bodies rfl]
      exact .single (fun scope => by simp [Scope.extend, Stmt.value?]) rfl
  | .assign span targets (some value) annotation, has => by
      rw [addStmt, Stmt.walk_of_bodies rfl]
      exact .single (fun scope => by simp [Scope.extend, Stmt.value?])
        (List.modify_modify_eq _ _ id found.scopes)
  | .assign span targets none annotation, has => by
      rw [addStmt, Stmt.walk_of_bodies rfl]
      exact .single (fun scope => by simp [Scope.extend, Stmt.value?]) rfl
  | .augAssign span target operator value, has => by
      rw [addStmt, Stmt.walk_of_bodies rfl]
      exact .single (fun scope => by simp [Scope.extend, Stmt.value?]) rfl
  | .expression span value, has => by
      rw [addStmt, Stmt.walk_of_bodies rfl]
      exact .single (fun scope => by simp [Scope.extend, Stmt.value?]) rfl
  | .importNames span names, has => by
      rw [addStmt, Stmt.walk_of_bodies rfl]
      exact .quiet (fun _ _ _ => rfl) (.nothing rfl)
  | .importFrom span module names isWildcard, has => by
      rw [addStmt, Stmt.walk_of_bodies rfl]
      exact .quiet (fun _ _ _ => rfl) (.nothing rfl)
  -- Blocks stay in the scope and in the clause, body after body.
  | .conditional span test body orelse, has => by
      have inside := has.bodies
      simp only [Stmt.bodies, List.forall_mem_cons] at inside
      have first := addStmts_grown here clause inside.1
      rw [addStmt]
      exact first.orelse here rfl rfl (fun _ _ _ => rfl)
        (addStmts_grown (first.inside here) clause inside.2.1)
  | .whileLoop span test body orelse, has => by
      have inside := has.bodies
      simp only [Stmt.bodies, List.forall_mem_cons] at inside
      have first := addStmts_grown here clause inside.1
      rw [addStmt]
      exact first.orelse here rfl rfl (fun _ _ _ => rfl)
        (addStmts_grown (first.inside here) clause inside.2.1)
  | .forLoop span target iter body orelse isAsync, has => by
      have inside := has.bodies
      simp only [Stmt.bodies, List.forall_mem_cons] at inside
      have first := addStmts_grown here clause inside.1
      rw [addStmt]
      exact first.orelse here rfl rfl (fun _ _ _ => rfl)
        (addStmts_grown (first.inside here) clause inside.2.1)
  | .withBlock span items body isAsync, has => by
      have inside := has.bodies
      simp only [Stmt.bodies, List.forall_mem_cons] at inside
      have first := addStmts_grown here clause inside.1
      rw [addStmt, Stmt.walk_of_bodies rfl]
      simpa [Stmt.bodies] using first.quiet fun _ _ _ => rfl
  | .tryBlock span body handlers orelse finalbody, has => by
      have inside := has.bodies
      simp only [Stmt.bodies, List.cons_append, List.forall_mem_cons, List.forall_mem_append,
        List.forall_mem_map] at inside
      obtain ⟨inBody, inHandlers, inOrelse, inFinal, -⟩ := inside
      have tried := addStmts_grown here clause inBody
      -- The handlers do not get `clause`: a bare `raise` in one raises what its own clause catches.
      have caught := tried.trans here (addHandlers_grown (tried.inside here) inHandlers)
      have otherwise := caught.trans here (addStmts_grown (caught.inside here) clause inOrelse)
      rw [addStmt, Stmt.walk_tryBlock]
      refine .quiet (fun _ _ _ => rfl) ?_
      exact otherwise.trans here (addStmts_grown (otherwise.inside here) clause inFinal)
  | .keyword span word arguments, has => by
      rw [addStmt, Stmt.walk_of_bodies rfl]
      exact .quiet (fun _ _ _ => rfl) (.nothing rfl)

/-- The walk finds the statements of a body. -/
theorem addStmts_grown {found : Collection} {id : ScopeId} (here : id < found.scopes.length)
    (clause : Option (Handler Stmt)) : ∀ {stmts : List Stmt},
      (∀ stmt ∈ stmts, program.HasStmt stmt) →
      Grown program found id (stmts.flatMap (Stmt.walk clause))
        (found.addStmts id (Stmt.caught clause) stmts)
  | [], has => by
      rw [addStmts]
      exact .nothing rfl
  | stmt :: stmts, has => by
      have first := addStmt_grown here clause (has stmt List.mem_cons_self)
      rw [addStmts, List.flatMap_cons]
      exact first.trans here (addStmts_grown (first.inside here) clause
        fun other member => has other (List.mem_cons_of_mem _ member))

/-- The walk finds the statements of `except` clauses. -/
theorem addHandlers_grown {found : Collection} {id : ScopeId} (here : id < found.scopes.length) :
    ∀ {handlers : List (Handler Stmt)},
      (∀ handler ∈ handlers, ∀ stmt ∈ handler.body, program.HasStmt stmt) →
      Grown program found id
        (handlers.flatMap fun handler => handler.body.flatMap (Stmt.walk (some handler)))
        (found.addHandlers id handlers)
  | [], has => by
      rw [addHandlers]
      exact .nothing rfl
  | ⟨span, exception, name, body⟩ :: handlers, has => by
      have first := addStmts_grown here (some ⟨span, exception, name, body⟩)
        (has ⟨span, exception, name, body⟩ List.mem_cons_self)
      rw [addHandlers, List.flatMap_cons]
      exact first.trans here (addHandlers_grown (first.inside here)
        fun handler member => has handler (List.mem_cons_of_mem _ member))

end

end Collection

/-- All scopes of a program hold all statements of their bodies. -/
theorem Program.collect_complete (program : Program) :
    ∀ scope ∈ program.collect.scopes, scope.Complete program := by
  have grown : Collection.Grown program ⟨[Scope.empty 0 .module "" none program.span none], []⟩ 0
      (program.body.flatMap (Stmt.walk none)) program.collect :=
    Collection.addStmts_grown Nat.zero_lt_one none fun stmt member => .top member
  obtain ⟨children, opened, same, complete⟩ := grown
  rw [same]
  refine List.forall_mem_cons.mpr ⟨?_, complete⟩
  exact ⟨program.body, .module rfl, Scope.holds_extend_empty ..⟩

namespace Source

variable {text file : String} {source : Source}

/-- A statement of an accepted text is known by where it starts. -/
theorem stmt_eq_of_start (accepted : read text file = .ok source) {stmt other : Stmt}
    (has : source.program.HasStmt stmt) (hasOther : source.program.HasStmt other)
    (same : stmt.span.start = other.span.start) : stmt = other := by
  have distinct : ((source.program.body.flatMap Stmt.preorder).map (·.span.start)).Nodup :=
    (List.pairwise_map.mpr (statements_ordered accepted)).imp Nat.ne_of_lt
  exact List.inj_on_of_nodup_map distinct (Program.mem_preorder_iff.mpr has)
    (Program.mem_preorder_iff.mpr hasOther) same

/-- Only one body of an accepted text opens a scope. -/
theorem opens_unique (accepted : read text file = .ok source) {scope : Scope}
    {body other : List Stmt} (opens : source.program.Opens scope body)
    (opensOther : source.program.Opens scope other) : other = body := by
  cases opens with
  | module kind =>
      cases opensOther with
      | module => rfl
      | function kind' | classDef kind' => cases kind.symm.trans kind'
  | function kind _ has =>
      cases opensOther with
      | function _ _ hasOther =>
          cases stmt_eq_of_start accepted has hasOther rfl
          rfl
      | module kind' | classDef kind' => cases kind.symm.trans kind'
  | classDef kind has =>
      cases opensOther with
      | classDef _ hasOther =>
          cases stmt_eq_of_start accepted has hasOther rfl
          rfl
      | module kind' | function kind' => cases kind.symm.trans kind'

/-- What a scope of an accepted text gathers comes from the statements that its body owns, in
the order that they have in the program. -/
theorem scope_holds (accepted : read text file = .ok source) {scope : Scope}
    (member : scope ∈ source.scopes.scopes) :
    ∃ body, source.program.Opens scope body ∧ ∃ items : List PlacedStmt,
      (∀ clause stmt, (clause, stmt) ∈ items ↔ Stmt.Owned body clause stmt) ∧
      (items.map Prod.snd).Sublist (source.program.body.flatMap Stmt.preorder) ∧
      scope.Holds items := by
  obtain ⟨tokens, program, -, -, rfl⟩ := eq_ofProgram_of_read accepted
  obtain ⟨body, opens, holds⟩ := program.collect_complete scope member
  refine ⟨body, opens, body.flatMap (Stmt.walk none), fun _ _ => Stmt.mem_walk_iff, ?_, holds⟩
  refine (Stmt.flatMap_walk_sublist body).trans ?_
  cases opens with
  | module => exact List.Sublist.refl _
  | function _ _ has | classDef _ has =>
      exact (Stmt.inner_sublist_preorder _).trans has.preorder_sublist

end Source

end DocSketch
