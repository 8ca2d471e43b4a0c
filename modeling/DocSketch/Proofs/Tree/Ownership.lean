import DocSketch.Proofs.Tree.Nodes
import Mathlib.Data.List.Flatten

/-!
# Statements of a scope

A body owns the statements in it and in their bodies at any depth, up to functions and
classes, whose bodies are scopes of their own.  A statement that is owned may stand in
`except` clauses; the innermost one says what a bare `raise` raises again.

* `Stmt.contents`: the statements directly inside a statement of the same scope.
* `Stmt.Owned`: the statements that a body owns, each with its innermost `except` clause.
* `Stmt.walk`: these statements one after another.
* `Stmt.preorder`: a statement and all statements inside it, those of nested scopes included.
* `Stmt.mem_walk_iff`: the walk comes past exactly what the body owns.
* `Stmt.walk_sublist`: it leaves the statements in their order.
-/

namespace DocSketch

/-- A statement with the innermost `except` clause around it. -/
abbrev PlacedStmt := Option (Handler Stmt) × Stmt

namespace Stmt

/-- The statements directly inside a statement that belong to its scope, each with the
`except` clause of the statement in which it stands. -/
def contents : Stmt → List PlacedStmt
  | tryBlock _ body handlers orelse finalbody =>
    body.map (none, ·) ++ handlers.flatMap (fun handler => handler.body.map (some handler, ·)) ++
      (orelse ++ finalbody).map (none, ·)
  | stmt => stmt.bodies.flatten.map (none, ·)

/-- A body owns a statement, for which `clause` is the innermost `except` clause around it. -/
inductive Owned (body : List Stmt) : Option (Handler Stmt) → Stmt → Prop
  | top {stmt : Stmt} (member : stmt ∈ body) : Owned body none stmt
  | nested {clause own : Option (Handler Stmt)} {outer stmt : Stmt}
      (owned : Owned body clause outer) (member : (own, stmt) ∈ outer.contents) :
      Owned body (own.or clause) stmt

/-- A single statement that holds no others is all that its body owns. -/
theorem Owned.eq_of_simple {clause : Option (Handler Stmt)} {single stmt : Stmt}
    (owned : Owned [single] clause stmt) (simple : single.contents = []) : stmt = single := by
  induction owned with
  | top member => exact List.mem_singleton.mp member
  | nested _ member ih =>
      rw [ih, simple] at member
      cases member

/-- The contents of a statement are the statements of its bodies. -/
theorem contents_map_snd (stmt : Stmt) : stmt.contents.map Prod.snd = stmt.bodies.flatten := by
  have others (clause : Option (Handler Stmt)) (body : List Stmt) :
      (body.map (clause, ·)).map Prod.snd = body := by
    rw [List.map_map]
    exact List.map_id body
  cases stmt with
  | tryBlock span body handlers orelse finalbody =>
      have caught : (handlers.flatMap fun handler => handler.body.map (some handler, ·)).map
          Prod.snd = (handlers.map Handler.body).flatten := by
        rw [List.map_flatMap, List.flatMap_def]
        simp only [others]
      simp only [contents, List.map_append, others, caught, bodies, List.flatten_cons,
        List.flatten_append, List.flatten_nil, List.append_nil, List.append_assoc,
        List.cons_append]
  | _ => exact others none _

/-- The statements of the bodies are among those inside. -/
theorem bodies_sublist_inner (stmt : Stmt) : stmt.bodies.flatten.Sublist stmt.inner := by
  cases stmt with
  | function | classDef => exact List.nil_sublist _
  | _ => exact List.Sublist.refl _

/-- What a statement contains is inside of it. -/
theorem mem_inner_of_mem_contents {outer stmt : Stmt} {own : Option (Handler Stmt)}
    (member : (own, stmt) ∈ outer.contents) : stmt ∈ outer.inner := by
  apply outer.bodies_sublist_inner.subset
  rw [← contents_map_snd]
  exact List.mem_map_of_mem member

/-- A body inside a statement is smaller than the statement. -/
theorem sizeOf_lt_of_mem_inner {outer stmt : Stmt} (member : stmt ∈ outer.inner) :
    sizeOf stmt < sizeOf outer := by
  have within {body : List Stmt} (inside : stmt ∈ body) (small : sizeOf body < sizeOf outer) :
      sizeOf stmt < sizeOf outer := Nat.lt_trans (List.sizeOf_lt_of_mem inside) small
  cases outer with
  | function span name signature body =>
      exact @within body member (by rw [function.sizeOf_spec]; omega)
  | classDef span name bases keywords body =>
      exact @within body member (by rw [classDef.sizeOf_spec]; omega)
  | conditional | whileLoop | forLoop =>
      obtain ⟨body, nested, inside⟩ := List.mem_flatten.mp member
      simp only [bodies, List.mem_cons, List.not_mem_nil, or_false] at nested
      obtain rfl | rfl := nested
      all_goals
        refine within inside ?_
        simp only [conditional.sizeOf_spec, whileLoop.sizeOf_spec, forLoop.sizeOf_spec]
        omega
  | withBlock =>
      obtain ⟨body, nested, inside⟩ := List.mem_flatten.mp member
      cases List.mem_singleton.mp nested
      exact within inside (by rw [withBlock.sizeOf_spec]; omega)
  | tryBlock span body handlers orelse finalbody =>
      obtain ⟨nestedBody, nested, inside⟩ := List.mem_flatten.mp member
      simp only [bodies, List.cons_append, List.mem_cons, List.mem_append, List.mem_map,
        List.not_mem_nil, or_false] at nested
      obtain rfl | ⟨handler, caught, rfl⟩ | rfl | rfl := nested
      · exact within inside (by rw [tryBlock.sizeOf_spec]; omega)
      · have small := List.sizeOf_lt_of_mem caught
        cases handler
        simp only [Handler.mk.sizeOf_spec] at small
        exact within inside (by simp only [tryBlock.sizeOf_spec]; omega)
      all_goals exact within inside (by rw [tryBlock.sizeOf_spec]; omega)
  | _ => cases member

/-- A statement that stands in the `except` clause `clause`, and the statements inside it that
belong to the same scope. -/
def walk (clause : Option (Handler Stmt)) (stmt : Stmt) : List PlacedStmt :=
  (clause, stmt) :: stmt.contents.attach.flatMap fun item => item.1.2.walk (item.1.1.or clause)
termination_by sizeOf stmt
decreasing_by exact sizeOf_lt_of_mem_inner (mem_inner_of_mem_contents item.2)

/-- A statement and the statements inside it. -/
def preorder (stmt : Stmt) : List Stmt :=
  stmt :: stmt.inner.attach.flatMap fun nested => nested.1.preorder
termination_by sizeOf stmt
decreasing_by exact sizeOf_lt_of_mem_inner nested.2

/-- The walk comes to a statement before its contents, each in its own clause. -/
theorem walk_eq (clause : Option (Handler Stmt)) (stmt : Stmt) :
    stmt.walk clause =
      (clause, stmt) :: stmt.contents.flatMap fun item => item.2.walk (item.1.or clause) := by
  rw [walk]
  conv => rhs; rw [← List.attach_map_subtype_val stmt.contents, List.flatMap_map]

/-- The walk through a statement without `except` clauses. -/
theorem walk_of_bodies {stmt : Stmt} (plain : stmt.contents = stmt.bodies.flatten.map (none, ·))
    (clause : Option (Handler Stmt)) :
    stmt.walk clause = (clause, stmt) :: stmt.bodies.flatten.flatMap (walk clause) := by
  rw [walk_eq, plain, List.flatMap_map]
  simp only [Option.none_or]

/-- In a `try`, the walk comes to the handlers in their own clauses. -/
theorem walk_tryBlock (clause : Option (Handler Stmt)) (span : Span) (body : List Stmt)
    (handlers : List (Handler Stmt)) (orelse finalbody : List Stmt) :
    (tryBlock span body handlers orelse finalbody).walk clause =
      (clause, tryBlock span body handlers orelse finalbody) ::
        (body.flatMap (walk clause) ++
          (handlers.flatMap fun handler => handler.body.flatMap (walk (some handler))) ++
          orelse.flatMap (walk clause) ++ finalbody.flatMap (walk clause)) := by
  rw [walk_eq]
  simp only [contents, List.flatMap_append, List.flatMap_map, List.flatMap_assoc, List.map_append,
    Option.none_or, Option.some_or, List.append_assoc]

/-- A statement comes before those inside of it. -/
theorem preorder_eq (stmt : Stmt) :
    stmt.preorder = stmt :: stmt.inner.flatMap preorder := by
  rw [preorder]
  conv => rhs; rw [← List.attach_map_subtype_val stmt.inner, List.flatMap_map]

/-- The walk comes past a statement with all that is inside it. -/
theorem mem_walk_of_mem_contents {clause own around : Option (Handler Stmt)}
    {stmt outer nested : Stmt} (passed : (around, outer) ∈ stmt.walk clause)
    (member : (own, nested) ∈ outer.contents) :
    (own.or around, nested) ∈ stmt.walk clause := by
  -- The induction is on the statement that the walk starts with, which holds `outer`.
  induction clause, stmt using walk.induct with
  | case1 clause stmt ih =>
      rw [walk_eq, List.mem_cons] at passed
      rw [walk_eq, List.mem_cons, List.mem_flatMap]
      right
      obtain same | below := passed
      · cases same
        refine ⟨(own, nested), member, ?_⟩
        rw [walk_eq]
        exact List.mem_cons_self
      · obtain ⟨item, inside, passed⟩ := List.mem_flatMap.mp below
        exact ⟨item, inside, ih ⟨item, inside⟩ passed⟩

/-- What the walk comes past below a statement that a body owns, the body owns. -/
theorem Owned.walk {body : List Stmt} {clause : Option (Handler Stmt)} {stmt : Stmt}
    (owned : Owned body clause stmt) : ∀ item ∈ stmt.walk clause, Owned body item.1 item.2 := by
  induction clause, stmt using Stmt.walk.induct with
  | case1 clause stmt ih =>
      intro item passed
      rw [walk_eq, List.mem_cons] at passed
      obtain rfl | below := passed
      · exact owned
      · obtain ⟨inner, inside, passed⟩ := List.mem_flatMap.mp below
        exact ih ⟨inner, inside⟩ (owned.nested inside) item passed

/-- **The walk comes past exactly what a body owns.** -/
theorem mem_walk_iff {body : List Stmt} {clause : Option (Handler Stmt)} {stmt : Stmt} :
    (clause, stmt) ∈ body.flatMap (Stmt.walk none) ↔ Owned body clause stmt := by
  constructor
  · intro passed
    obtain ⟨outer, member, passed⟩ := List.mem_flatMap.mp passed
    exact Owned.walk (.top member) _ passed
  · intro owned
    induction owned with
    | @top stmt member =>
        refine List.mem_flatMap.mpr ⟨stmt, member, ?_⟩
        rw [walk_eq]
        exact List.mem_cons_self
    | nested _ member ih =>
        obtain ⟨outer, top, passed⟩ := List.mem_flatMap.mp ih
        exact List.mem_flatMap.mpr ⟨outer, top, mem_walk_of_mem_contents passed member⟩

/-- The walk leaves the statements in their order. -/
theorem walk_sublist (clause : Option (Handler Stmt)) (stmt : Stmt) :
    ((stmt.walk clause).map Prod.snd).Sublist stmt.preorder := by
  induction clause, stmt using Stmt.walk.induct with
  | case1 clause stmt ih =>
      rw [walk_eq, preorder_eq, List.map_cons, List.map_flatMap]
      refine List.Sublist.cons_cons _ ?_
      have each : (stmt.contents.flatMap fun item =>
          (item.2.walk (item.1.or clause)).map Prod.snd).Sublist
            (stmt.contents.flatMap fun item => item.2.preorder) :=
        List.Sublist.flatMap_right _ fun item member => ih ⟨item, member⟩
      have same : (stmt.contents.flatMap fun item => item.2.preorder) =
          stmt.bodies.flatten.flatMap preorder := by
        rw [← contents_map_snd, List.flatMap_map]
      rw [same] at each
      exact each.trans (stmt.bodies_sublist_inner.flatMap _)

/-- The walk comes to statements in their order. -/
theorem flatMap_walk_sublist (body : List Stmt) :
    ((body.flatMap (Stmt.walk none)).map Prod.snd).Sublist (body.flatMap preorder) := by
  rw [List.map_flatMap]
  exact List.Sublist.flatMap_right _ fun stmt _ => stmt.walk_sublist none

/-- Of the statements of a body, those inside one of them keep their order. -/
theorem preorder_sublist_of_mem {body : List Stmt} {stmt : Stmt} (member : stmt ∈ body) :
    stmt.preorder.Sublist (body.flatMap preorder) := by
  rw [List.flatMap_def]
  exact List.sublist_flatten_of_mem (List.mem_map_of_mem member)

/-- The statements inside of another one are among those it holds. -/
theorem inner_sublist_preorder (stmt : Stmt) :
    (stmt.inner.flatMap preorder).Sublist stmt.preorder := by
  rw [preorder_eq]
  exact List.sublist_cons_self _ _

end Stmt

/-- Of the statements of a program, those inside one of them keep their order. -/
theorem Program.HasStmt.preorder_sublist {program : Program} {stmt : Stmt}
    (has : program.HasStmt stmt) :
    stmt.preorder.Sublist (program.body.flatMap Stmt.preorder) := by
  induction has with
  | top member => exact Stmt.preorder_sublist_of_mem member
  | inner _ member ih =>
      exact ((Stmt.preorder_sublist_of_mem member).trans (Stmt.inner_sublist_preorder _)).trans ih

/-- A program has the statements that one of its statements holds. -/
theorem Program.HasStmt.of_mem_preorder {program : Program} {outer stmt : Stmt}
    (has : program.HasStmt outer) (member : stmt ∈ outer.preorder) : program.HasStmt stmt := by
  induction outer using Stmt.preorder.induct with
  | case1 outer ih =>
      rw [Stmt.preorder_eq, List.mem_cons, List.mem_flatMap] at member
      obtain rfl | ⟨nested, inside, below⟩ := member
      · exact has
      · exact ih ⟨nested, inside⟩ (has.inner inside) below

/-- The statements of a program, listed one after another. -/
theorem Program.mem_preorder_iff {program : Program} {stmt : Stmt} :
    stmt ∈ program.body.flatMap Stmt.preorder ↔ program.HasStmt stmt := by
  constructor
  · intro member
    obtain ⟨outer, top, inside⟩ := List.mem_flatMap.mp member
    exact Program.HasStmt.of_mem_preorder (.top top) inside
  · intro has
    apply has.preorder_sublist.subset
    rw [Stmt.preorder_eq]
    exact List.mem_cons_self

end DocSketch
