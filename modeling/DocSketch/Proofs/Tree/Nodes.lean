import DocSketch.Tree.Stmt

/-!
# Nodes of a program

Statements nest in each other, and the expressions of a statement in theirs.

* `Stmt.inner`: the statements directly inside a statement, those of functions and
  classes included.
* `Stmt.expressions`: the outermost expressions of a statement.
* `Program.HasStmt`, `Program.HasNode`: the statements and the expressions of a program,
  at any depth.
* `Program.Expresses`: the nodes, and the `None` that a bare `return` or `yield` stands
  for.
-/

namespace DocSketch

/-- The expressions in a parameter. -/
def Parameter.expressions (parameter : Parameter Expr) : List Expr :=
  parameter.annotation.toList ++ parameter.default.toList

/-- The expressions that a function declares before its body. -/
def Signature.expressions (signature : Signature) : List Expr :=
  signature.parameters.flatMap Parameter.expressions ++ signature.returns.toList

/-- Direct sub-expressions, those of a lambda included. -/
def Expr.parts : Expr → List Expr
  | .lambda _ parameters body => parameters.flatMap Parameter.expressions ++ [body]
  | e => e.children

/-- What belongs to the scope of an expression is part of it. -/
theorem Expr.mem_parts_of_mem_children {e child : Expr} (member : child ∈ e.children) :
    child ∈ e.parts := by
  cases e with
  | lambda span parameters body => simp only [children, List.not_mem_nil] at member
  | _ => exact member

namespace Stmt

/-- The statements directly inside a statement. -/
def inner : Stmt → List Stmt
  | function _ _ _ body _ _ => body
  | classDef _ _ _ _ body _ => body
  | stmt => stmt.bodies.flatten

/-- The statements of a nested body are directly inside the statement. -/
theorem mem_inner_of_mem_bodies {outer stmt : Stmt} {body : List Stmt}
    (nested : body ∈ outer.bodies) (member : stmt ∈ body) : stmt ∈ outer.inner := by
  cases outer with
  | function | classDef => simp only [bodies, List.not_mem_nil] at nested
  | _ => exact List.mem_flatten.mpr ⟨body, nested, member⟩

/-- The outermost expressions of a statement. -/
def expressions : Stmt → List Expr
  | expression _ value => [value]
  | assign _ targets value annotation => targets ++ value.toList ++ annotation.toList
  | augAssign _ target _ value => [target, value]
  | importNames .. | importFrom .. => []
  | function _ _ signature _ decorators _ => signature.expressions ++ decorators
  | classDef _ _ bases keywords _ decorators => bases ++ keywords.map Keyword.value ++ decorators
  | ret _ value => value.toList
  | raise _ exception cause => exception.toList ++ cause.toList
  | conditional _ test _ _ => [test]
  | whileLoop _ test _ _ => [test]
  | forLoop _ target iter _ _ _ => [target, iter]
  | withBlock _ items _ _ => items.flatMap fun item => item.context :: item.target.toList
  | tryBlock _ _ handlers _ _ => handlers.flatMap fun handler => handler.exception.toList
  | keyword _ _ arguments => arguments

end Stmt

namespace Program

/-- The statements of a program. -/
inductive HasStmt (program : Program) : Stmt → Prop
  | top {stmt : Stmt} (member : stmt ∈ program.body) : HasStmt program stmt
  | inner {outer stmt : Stmt} (has : HasStmt program outer) (member : stmt ∈ outer.inner) :
      HasStmt program stmt

/-- The expressions of a program. -/
inductive HasNode (program : Program) : Expr → Prop
  | top {stmt : Stmt} {e : Expr} (has : program.HasStmt stmt) (member : e ∈ stmt.expressions) :
      HasNode program e
  | part {e part : Expr} (has : HasNode program e) (member : part ∈ e.parts) :
      HasNode program part

/-- An expression of the program, or a `None` that it leaves out. -/
def Expresses (program : Program) (e : Expr) : Prop :=
  program.HasNode e ∨ ∃ span, e = .constant span .none

/-- The signatures of the functions of a program. -/
def Declares (program : Program) (signature : Signature) : Prop :=
  ∃ span name body decorators isAsync,
    program.HasStmt (.function span name signature body decorators isAsync)

variable {program : Program}

/-- A program has the statements in the bodies of one that it has. -/
theorem HasStmt.bodies {outer : Stmt} (has : program.HasStmt outer) :
    ∀ body ∈ outer.bodies, ∀ stmt ∈ body, program.HasStmt stmt :=
  fun _ nested _ member => has.inner (Stmt.mem_inner_of_mem_bodies nested member)

/-- What belongs to the scope of a node is a node. -/
theorem HasNode.child {e child : Expr} (has : program.HasNode e) (member : child ∈ e.children) :
    program.HasNode child :=
  has.part (Expr.mem_parts_of_mem_children member)

/-- What belongs to the scope of an expression of a program is one of its nodes. -/
theorem Expresses.child {e child : Expr} (expresses : program.Expresses e)
    (member : child ∈ e.children) : program.HasNode child := by
  obtain has | ⟨span, rfl⟩ := expresses
  · exact has.child member
  · simp only [Expr.children, List.not_mem_nil] at member

/-- The operands of the `yield` expressions in a node are nodes or left-out `None`s. -/
theorem HasNode.expresses_of_mem_yields {e operand : Expr} (has : program.HasNode e)
    (member : operand ∈ e.yields) : program.Expresses operand := by
  induction e using Expr.yields.induct with
  | case1 e ih =>
      rw [Expr.yields.eq_def, List.mem_append, List.mem_flatMap] at member
      obtain own | ⟨⟨child, inside⟩, -, below⟩ := member
      · split at own
        · cases List.mem_singleton.mp own
          exact .inl (has.child (by simp only [Expr.children, Option.toList, List.mem_singleton]))
        · cases List.mem_singleton.mp own
          exact .inr ⟨_, rfl⟩
        · simp only [List.not_mem_nil] at own
      · exact ih ⟨child, inside⟩ (has.child inside) below

/-- The default of a parameter that a function of the program declares is a node. -/
theorem Declares.hasNode_default {signature : Signature} (declares : program.Declares signature)
    {parameter : Parameter Expr} (member : parameter ∈ signature.parameters) {e : Expr}
    (given : parameter.default = some e) : program.HasNode e := by
  obtain ⟨span, name, body, decorators, isAsync, has⟩ := declares
  refine HasNode.top has ?_
  simp only [Stmt.expressions, Signature.expressions, List.mem_append, List.mem_flatMap]
  refine .inl (.inl ⟨parameter, member, ?_⟩)
  simp only [Parameter.expressions, given, Option.toList, List.mem_append, List.mem_singleton,
    or_true]

end Program

end DocSketch
