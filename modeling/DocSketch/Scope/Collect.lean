import DocSketch.Scope.Basic

/-!
# Collecting scopes

One walk over the statements of a text numbers its scopes and gathers what each of them
returns, yields, raises and assigns, and the names that are imported anywhere.

* `ImportBinding`: a name that an import statement binds.
* `Collection.addStmts`: the walk over a body.
* `Program.collect`: the scopes and imports of a whole text.
-/

namespace DocSketch

/-- A name that an import binds. -/
structure ImportBinding where
  name : String
  /-- Dotted path that the name stands for. -/
  path : String
  /-- Start of the import statement. -/
  position : Nat
deriving DecidableEq, Repr, Inhabited

def pathHead (path : String) : String :=
  String.ofList (path.toList.takeWhile (· != '.'))

/-- What `import path as alias` binds; without an alias only the head is bound. -/
def ImportName.moduleBinding (name : ImportName) (position : Nat) : ImportBinding :=
  match name.localName with
  | some localName => ⟨localName, name.path, position⟩
  | none => ⟨pathHead name.path, pathHead name.path, position⟩

/-- Path of a name in a module; the dots of a relative module need no further dot. -/
def memberPath (module name : String) : String :=
  if module.isEmpty ∨ module.toList.getLast? = some '.' then module ++ name
  else module ++ "." ++ name

/-- What `from module import path as alias` binds. -/
def ImportName.memberBinding (name : ImportName) (module : String) (position : Nat) :
    ImportBinding :=
  ⟨name.localName.getD name.path, memberPath module name.path, position⟩

/-- Exceptions that an `except` clause catches: the elements of a tuple, or the one
that is named. -/
def caughtExceptions : Option Expr → List Expr
  | none => []
  | some (.sequence _ .tuple elements) => elements
  | some exception => [exception]

/-- Scopes and imports found so far. -/
structure Collection where
  scopes : List Scope
  imports : List ImportBinding
deriving Repr, Inhabited

namespace Collection

/-- Changes the scope with the number `id`. -/
def modify (found : Collection) (id : ScopeId) (change : Scope → Scope) : Collection :=
  { found with scopes := found.scopes.modify id change }

/-- Opens a scope inside `parent`; its number is the next one. -/
def openScope (found : Collection) (kind : ScopeKind) (name : String) (parent : ScopeId)
    (span : Span) (signature : Option Signature) : Collection :=
  let id := found.scopes.length
  let linked := found.modify parent fun scope => { scope with children := scope.children ++ [id] }
  { linked with
    scopes := linked.scopes ++ [Scope.empty id kind name (some parent) span signature] }

def addYields (found : Collection) (id : ScopeId) (e : Expr) : Collection :=
  found.modify id fun scope => { scope with yields := scope.yields ++ e.yields }

def addReturn (found : Collection) (id : ScopeId) (e : Expr) : Collection :=
  found.modify id fun scope => { scope with returns := scope.returns ++ [e] }

def addRaises (found : Collection) (id : ScopeId) (es : List Expr) : Collection :=
  found.modify id fun scope => { scope with raises := scope.raises ++ es }

def addAssignment (found : Collection) (id : ScopeId) (assignment : Assignment) : Collection :=
  found.modify id fun scope => { scope with assignments := scope.assignments ++ [assignment] }

def addImports (found : Collection) (bindings : List ImportBinding) : Collection :=
  { found with imports := found.imports ++ bindings }

mutual

/-- Adds what is found in a statement of the scope `id`; `handled` are the exceptions of
the innermost `except` clause around it, which a bare `raise` raises again. -/
def addStmt (found : Collection) (id : ScopeId) (handled : List Expr) : Stmt → Collection
  | .function span name signature body _ _ =>
    addStmts (found.openScope .function name id span (some signature)) found.scopes.length [] body
  | .classDef span name _ _ body _ =>
    addStmts (found.openScope .classDef name id span none) found.scopes.length [] body
  | .ret _ (some value) => (found.addYields id value).addReturn id value
  | .ret span none => found.addReturn id (.constant span .none)
  | .raise _ (some exception) _ => found.addRaises id [exception]
  | .raise _ none _ => found.addRaises id handled
  | .assign _ targets value annotation =>
    let yielded :=
      match value with
      | some e => found.addYields id e
      | none => found
    yielded.addAssignment id ⟨targets, value, annotation⟩
  | .augAssign _ _ _ value => found.addYields id value
  | .expression _ value => found.addYields id value
  | .importNames span names =>
    found.addImports (names.map fun name => name.moduleBinding span.start)
  | .importFrom span module names _ =>
    found.addImports (names.map fun name => name.memberBinding module span.start)
  | .conditional _ _ body orelse => addStmts (addStmts found id handled body) id handled orelse
  | .whileLoop _ _ body orelse => addStmts (addStmts found id handled body) id handled orelse
  | .forLoop _ _ _ body orelse _ => addStmts (addStmts found id handled body) id handled orelse
  | .withBlock _ _ body _ => addStmts found id handled body
  | .tryBlock _ body handlers orelse finalbody =>
    let tried := addHandlers (addStmts found id handled body) id handlers
    addStmts (addStmts tried id handled orelse) id handled finalbody
  | .keyword .. => found

/-- Adds what is found in a body of the scope `id`. -/
def addStmts (found : Collection) (id : ScopeId) (handled : List Expr) :
    List Stmt → Collection
  | [] => found
  | stmt :: stmts => addStmts (addStmt found id handled stmt) id handled stmts

/-- Adds what is found in the `except` clauses of a statement of the scope `id`. -/
def addHandlers (found : Collection) (id : ScopeId) : List (Handler Stmt) → Collection
  | [] => found
  | ⟨_, exception, _, body⟩ :: handlers =>
    addHandlers (addStmts found id (caughtExceptions exception) body) id handlers

end

end Collection

/-- Scopes and imports of a program. -/
def Program.collect (program : Program) : Collection :=
  let root := Scope.empty 0 .module "" none program.span none
  Collection.addStmts ⟨[root], []⟩ 0 [] program.body

end DocSketch
