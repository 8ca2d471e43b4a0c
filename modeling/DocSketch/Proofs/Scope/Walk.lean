import DocSketch.Proofs.Tree.Nodes
import DocSketch.Scope.Collect

/-!
# The walk over a program

What is found in a program is found part by part: the walk takes one statement after another,
goes into the bodies of a statement, and opens a scope at each function and class.  What holds
of a part of the walk as soon as it holds of the parts that it is made of, holds of the whole.

* `Stmt.isSimple`: statements without others inside of them.
* `Collection.Follows`: a relation that follows the walk.
* `Collection.Follows.addStmts`: it holds of what is found before and after a body.
-/

namespace DocSketch

namespace Stmt

/-- Whether a statement is of a kind that holds no other statements. -/
def isSimple : Stmt → Bool
  | expression .. | assign .. | augAssign .. | importNames .. | importFrom .. | ret .. | raise ..
  | keyword .. => true
  | _ => false

/-- No statement stands inside a simple one. -/
theorem inner_of_isSimple {stmt : Stmt} (simple : stmt.isSimple = true) : stmt.inner = [] := by
  cases stmt <;> first | rfl | cases simple

/-- The statements inside of a block are those of its bodies. -/
theorem inner_of_bodies {stmt : Stmt} (block : stmt.bodies ≠ []) :
    stmt.inner = stmt.bodies.flatten := by
  cases stmt <;> first | rfl | exact absurd rfl block

end Stmt

namespace Collection

/-- A relation between what is found before and after the walk comes past some statements of
the scope `id`, which is kept by all that the walk does. -/
structure Follows (P : Collection → ScopeId → List Stmt → Collection → Prop) : Prop where
  nothing : ∀ (found : Collection) (id : ScopeId), P found id [] found
  trans : ∀ {found later last : Collection} {id : ScopeId} {stmts others : List Stmt},
    P found id stmts later → P later id others last → P found id (stmts ++ others) last
  simple : ∀ (found : Collection) (id : ScopeId) (handled : List Expr) (stmt : Stmt),
    stmt.isSimple = true → P found id [stmt] (found.addStmt id handled stmt)
  /-- The bodies of a block belong to the scope around it. -/
  block : ∀ {found later : Collection} {id : ScopeId} {stmt : Stmt}, stmt.bodies ≠ [] →
    P found id stmt.bodies.flatten later → P found id [stmt] later
  function : ∀ {found later : Collection} {id : ScopeId} {span : Span} {name : String}
    {signature : Signature} {body : List Stmt} {decorators : List Expr} {isAsync : Bool},
    P (found.openScope .function name id span (some signature)) found.scopes.length body later →
      P found id [.function span name signature body decorators isAsync] later
  classDef : ∀ {found later : Collection} {id : ScopeId} {span : Span} {name : String}
    {bases : List Expr} {keywords : List (Keyword Expr)} {body : List Stmt}
    {decorators : List Expr},
    P (found.openScope .classDef name id span none) found.scopes.length body later →
      P found id [.classDef span name bases keywords body decorators] later

namespace Follows

variable {P : Collection → ScopeId → List Stmt → Collection → Prop}

/-- A block with two bodies. -/
theorem orelse {found later last : Collection} {id : ScopeId} {stmt : Stmt}
    {body others : List Stmt} (follows : Follows P) (bodies : stmt.bodies = [body, others])
    (first : P found id body later) (second : P later id others last) : P found id [stmt] last := by
  refine follows.block (by rw [bodies]; exact List.cons_ne_nil _ _) ?_
  rw [bodies, List.flatten_cons, List.flatten_singleton]
  exact follows.trans first second

mutual

/-- What follows the walk holds of what is found before and after a statement. -/
theorem addStmt (follows : Follows P) (found : Collection) (id : ScopeId) (handled : List Expr) :
    ∀ stmt : Stmt, P found id [stmt] (found.addStmt id handled stmt)
  | .function span name signature body decorators isAsync => by
      rw [Collection.addStmt]
      exact follows.function (follows.addStmts _ _ [] body)
  | .classDef span name bases keywords body decorators => by
      rw [Collection.addStmt]
      exact follows.classDef (follows.addStmts _ _ [] body)
  | .conditional span test body orelse => by
      rw [Collection.addStmt]
      exact follows.orelse rfl (follows.addStmts found id handled body)
        (follows.addStmts _ id handled orelse)
  | .whileLoop span test body orelse => by
      rw [Collection.addStmt]
      exact follows.orelse rfl (follows.addStmts found id handled body)
        (follows.addStmts _ id handled orelse)
  | .forLoop span target iter body orelse isAsync => by
      rw [Collection.addStmt]
      exact follows.orelse rfl (follows.addStmts found id handled body)
        (follows.addStmts _ id handled orelse)
  | .withBlock span items body isAsync => by
      rw [Collection.addStmt]
      refine follows.block (List.cons_ne_nil _ _) ?_
      rw [Stmt.bodies, List.flatten_singleton]
      exact follows.addStmts found id handled body
  | .tryBlock span body handlers orelse finalbody => by
      rw [Collection.addStmt]
      refine follows.block (List.cons_ne_nil _ _) ?_
      rw [Stmt.bodies, List.flatten_append, List.flatten_cons, List.flatten_cons,
        List.flatten_singleton]
      have tried := follows.trans (follows.addStmts found id handled body)
        (follows.addHandlers _ id handlers)
      exact follows.trans tried (follows.trans (follows.addStmts _ id handled orelse)
        (follows.addStmts _ id handled finalbody))
  | .expression .. => follows.simple found id handled _ rfl
  | .assign .. => follows.simple found id handled _ rfl
  | .augAssign .. => follows.simple found id handled _ rfl
  | .importNames .. => follows.simple found id handled _ rfl
  | .importFrom .. => follows.simple found id handled _ rfl
  | .ret .. => follows.simple found id handled _ rfl
  | .raise .. => follows.simple found id handled _ rfl
  | .keyword .. => follows.simple found id handled _ rfl

/-- What follows the walk holds of what is found before and after a body. -/
theorem addStmts (follows : Follows P) (found : Collection) (id : ScopeId) (handled : List Expr) :
    ∀ stmts : List Stmt, P found id stmts (found.addStmts id handled stmts)
  | [] => by
      rw [Collection.addStmts]
      exact follows.nothing found id
  | stmt :: stmts => by
      rw [Collection.addStmts]
      exact follows.trans (follows.addStmt found id handled stmt)
        (follows.addStmts _ id handled stmts)

/-- What follows the walk holds of what is found before and after `except` clauses. -/
theorem addHandlers (follows : Follows P) (found : Collection) (id : ScopeId) :
    ∀ handlers : List (Handler Stmt),
      P found id (handlers.map Handler.body).flatten (found.addHandlers id handlers)
  | [] => by
      rw [Collection.addHandlers]
      exact follows.nothing found id
  | ⟨span, exception, name, body⟩ :: handlers => by
      rw [Collection.addHandlers]
      exact follows.trans (follows.addStmts found id _ body) (follows.addHandlers _ id handlers)

end

end Follows

end Collection

end DocSketch
