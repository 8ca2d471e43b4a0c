import DocSketch.Tree.Stmt

/-!
# Scopes

Modules, classes and functions each open a scope.  The scopes of a text are numbered in
the order in which they open, so that the module is scope zero and every scope comes
after the one around it.

* `Scope`: what was found in a scope, with links to the scopes around and inside it.
* `ScopeTree.ancestors`: a scope and the scopes around it, from the inside out.
* `ScopeTree.childNamed?`, `ScopeTree.functionsNamed`: scopes by name.
-/

namespace DocSketch

/-- Number of a scope. -/
abbrev ScopeId := Nat

/-- What opens a scope. -/
inductive ScopeKind where
  | module | classDef | function
deriving DecidableEq, Repr, Inhabited

/-- An assignment as the scope that owns it sees it. -/
structure Assignment where
  targets : List Expr
  value : Option Expr
  annotation : Option Expr
deriving Repr, Inhabited

/-- A scope and what was found in it, in source order. -/
structure Scope where
  id : ScopeId
  kind : ScopeKind
  name : String
  parent : Option ScopeId
  children : List ScopeId
  span : Span
  /-- Declaration of a function. -/
  signature : Option Signature
  /-- Returned expressions; a bare `return` gives `None`. -/
  returns : List Expr
  /-- Operands of `yield`. -/
  yields : List Expr
  /-- Raised expressions. -/
  raises : List Expr
  assignments : List Assignment
deriving Repr, Inhabited

namespace Scope

/-- A scope in which nothing was found yet. -/
def empty (id : ScopeId) (kind : ScopeKind) (name : String) (parent : Option ScopeId)
    (span : Span) (signature : Option Signature) : Scope :=
  ⟨id, kind, name, parent, [], span, signature, [], [], [], []⟩

/-- Returned and then yielded expressions. -/
def exits (scope : Scope) : List Expr := scope.returns ++ scope.yields

def parameters (scope : Scope) : List (Parameter Expr) :=
  (scope.signature.map Signature.parameters).getD []

end Scope

/-- The scopes of a text, each at the place of its number. -/
structure ScopeTree where
  scopes : List Scope
deriving Repr, Inhabited

namespace ScopeTree

/-- The scope with a number; numbers that no scope has give an empty module. -/
def get (tree : ScopeTree) (id : ScopeId) : Scope :=
  tree.scopes.getD id (Scope.empty id .module "" none ⟨0, 0⟩ none)

def size (tree : ScopeTree) : Nat := tree.scopes.length

/-- A scope and the scopes around it, from the inside out.  Links lead to smaller
numbers; a link that does not is not followed. -/
def ancestors (tree : ScopeTree) (id : ScopeId) : List ScopeId :=
  match (tree.get id).parent with
  | some parent => if parent < id then id :: tree.ancestors parent else [id]
  | none => [id]
termination_by id

/-- The innermost class around a scope. -/
def enclosingClass? (tree : ScopeTree) (id : ScopeId) : Option ScopeId :=
  (tree.ancestors id).tail.find? fun ancestor => (tree.get ancestor).kind = .classDef

/-- The first scope directly inside `parent` with the given kind and name. -/
def childNamed? (tree : ScopeTree) (parent : ScopeId) (name : String) (kind : ScopeKind) :
    Option ScopeId :=
  (tree.get parent).children.find? fun child =>
    (tree.get child).kind = kind ∧ (tree.get child).name = name

/-- All function scopes, in source order. -/
def functions (tree : ScopeTree) : List ScopeId :=
  (tree.scopes.filter fun scope => scope.kind = .function).map Scope.id

/-- All function scopes with the given name, in source order. -/
def functionsNamed (tree : ScopeTree) (name : String) : List ScopeId :=
  (tree.scopes.filter fun scope => scope.kind = .function ∧ scope.name = name).map Scope.id

/-- Name of a scope after the names of the classes and functions around it. -/
def qualifiedName (tree : ScopeTree) (id : ScopeId) : String :=
  let named := (tree.ancestors id).filter fun ancestor => (tree.get ancestor).kind ≠ .module
  ".".intercalate (named.map fun ancestor => (tree.get ancestor).name).reverse

/-- A function by its qualified name, or else the first one with that name. -/
def findFunction? (tree : ScopeTree) (name : String) : Option ScopeId :=
  (tree.functions.find? fun id => tree.qualifiedName id = name).or (tree.functionsNamed name).head?

end ScopeTree

end DocSketch
