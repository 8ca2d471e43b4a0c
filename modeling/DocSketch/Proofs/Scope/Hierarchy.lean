import DocSketch.Proofs.Grammar.StatementSpans
import DocSketch.Proofs.Scope.Contents
import DocSketch.Proofs.Scope.Walk

/-!
# The tree of scopes

The walk over a program opens a scope at each function and class that it comes past.  A new
scope gets the next number and a link from the scope around it, so the scopes are a tree that
is numbered in source order.

* `Scope.heading`, `Stmt.heading?`: what a scope and the statement that opens it have in common.
* `Collection.Linked`: the links between the scopes found so far.
* `Collection.Surveys`: what a part of the walk opens.
* `ScopeTree.Ordered`: the tree of the scopes of a program.
* `Source.scopes_ordered`: this for the scopes of an accepted text.
-/

namespace DocSketch

/-- A span that lies inside another one. -/
structure Span.Inside (inner outer : Span) : Prop where
  starts : outer.start ≤ inner.start
  ordered : inner.start ≤ inner.stop
  stops : inner.stop ≤ outer.stop

/-- Kind, name and span of a scope. -/
def Scope.heading (scope : Scope) : ScopeKind × String × Span :=
  (scope.kind, scope.name, scope.span)

/-- Kind, name and span of the scope that a statement opens. -/
def Stmt.heading? : Stmt → Option (ScopeKind × String × Span)
  | function span name .. => some (.function, name, span)
  | classDef span name .. => some (.classDef, name, span)
  | _ => none

/-- A scope without what is gathered in it. -/
def Scope.frame (scope : Scope) : Scope :=
  { scope with returns := [], yields := [], raises := [], assignments := [] }

/-- Scopes with one frame differ in what is gathered only. -/
theorem Scope.eq_of_frame {old scope : Scope} (same : old.frame = scope.frame) :
    old.id = scope.id ∧ old.kind = scope.kind ∧ old.parent = scope.parent ∧
      old.children = scope.children ∧ old.span = scope.span := by
  simp only [frame, mk.injEq] at same
  obtain ⟨ids, kinds, -, parents, children, spans, -⟩ := same
  exact ⟨ids, kinds, parents, children, spans⟩

/-- A scope is at the place of its number in a list of scopes; but for the module at number
zero, it lies in a scope with a smaller number.  Its children are the scopes that lie in it. -/
structure Scope.Linked (scopes : List Scope) (id : ScopeId) (scope : Scope) : Prop where
  numbered : scope.id = id
  module : scope.kind = .module ↔ id = 0
  parentless : scope.parent = none ↔ id = 0
  parent : ∀ parent, scope.parent = some parent → parent < id ∧
    ∃ around, scopes[parent]? = some around ∧ scope.span.Inside around.span
  ascending : scope.children.Pairwise (· < ·)
  children : ∀ child, child ∈ scope.children ↔
    ∃ inner, scopes[child]? = some inner ∧ inner.parent = some id

namespace Collection

variable {found later last : Collection} {id : ScopeId} {stmts others : List Stmt} {stmt : Stmt}
  {scope : Scope}

/-- The scopes found so far are linked. -/
def Linked (found : Collection) : Prop :=
  ∀ (id : ScopeId) (scope : Scope), found.scopes[id]? = some scope → scope.Linked found.scopes id

/-- A scope whose part stands at the start of a list of parts. -/
theorem lookup_of_map {β : Type} {part : Scope → β}
    (same : later.scopes.map part <+: found.scopes.map part)
    (here : later.scopes[id]? = some scope) :
    ∃ old, found.scopes[id]? = some old ∧ part old = part scope := by
  obtain ⟨more, split⟩ := same
  have there : (found.scopes.map part)[id]? = some (part scope) := by
    rw [← split, List.getElem?_append_left, List.getElem?_map, here]
    · rfl
    · rw [List.length_map]
      exact (List.getElem?_eq_some_iff.mp here).1
  rw [List.getElem?_map] at there
  exact Option.map_eq_some_iff.mp there

/-- A change that keeps a part of each scope. -/
theorem map_modify {β : Type} {part : Scope → β} {change : Scope → Scope}
    (kept : ∀ scope, part (change scope) = part scope) (found : Collection) (id : ScopeId) :
    (found.modify id change).scopes.map part = found.scopes.map part := by
  refine List.ext_getElem? fun index => ?_
  rw [modify, List.getElem?_map, List.getElem?_map, List.getElem?_modify, Option.map_eq_map,
    Option.map_map]
  refine congrArg (Option.map · _) (funext fun scope => ?_)
  rw [Function.comp_apply]
  split
  · exact kept scope
  · rfl

/-- Gathering yields leaves the frames as they are. -/
theorem frames_addYields (found : Collection) (id : ScopeId) (e : Expr) :
    (found.addYields id e).scopes.map Scope.frame = found.scopes.map Scope.frame := by
  refine map_modify ?_ found id
  exact fun _ => rfl

/-- Gathering a return leaves the frames as they are. -/
theorem frames_addReturn (found : Collection) (id : ScopeId) (e : Expr) :
    (found.addReturn id e).scopes.map Scope.frame = found.scopes.map Scope.frame := by
  refine map_modify ?_ found id
  exact fun _ => rfl

/-- Gathering what is raised leaves the frames as they are. -/
theorem frames_addRaises (found : Collection) (id : ScopeId) (es : List Expr) :
    (found.addRaises id es).scopes.map Scope.frame = found.scopes.map Scope.frame := by
  refine map_modify ?_ found id
  exact fun _ => rfl

/-- Gathering an assignment leaves the frames as they are. -/
theorem frames_addAssignment (found : Collection) (id : ScopeId) (assignment : Assignment) :
    (found.addAssignment id assignment).scopes.map Scope.frame =
      found.scopes.map Scope.frame := by
  refine map_modify ?_ found id
  exact fun _ => rfl

/-- A statement without others inside of it changes nothing but what is gathered. -/
theorem frames_addStmt (simple : stmt.isSimple = true) (handled : List Expr) :
    (found.addStmt id handled stmt).scopes.map Scope.frame = found.scopes.map Scope.frame := by
  cases stmt with
  | ret span value =>
      cases value with
      | none => rw [addStmt, frames_addReturn]
      | some value => rw [addStmt, frames_addReturn, frames_addYields]
  | raise span exception cause => cases exception <;> rw [addStmt, frames_addRaises]
  | assign span targets value annotation =>
      cases value with
      | none => rw [addStmt, frames_addAssignment]
      | some value => rw [addStmt, frames_addAssignment, frames_addYields]
  | augAssign | expression => rw [addStmt, frames_addYields]
  | importNames | importFrom =>
      rw [addStmt]
      rfl
  | keyword => rw [addStmt]
  | _ => cases simple

/-- What is gathered in the scopes does not change their links. -/
theorem Linked.of_frames (linked : found.Linked)
    (same : later.scopes.map Scope.frame = found.scopes.map Scope.frame) : later.Linked := by
  have ahead : ∀ {id : ScopeId} {old : Scope}, found.scopes[id]? = some old →
      ∃ scope, later.scopes[id]? = some scope ∧ scope.frame = old.frame :=
    lookup_of_map ⟨[], (List.append_nil _).trans same.symm⟩
  have back : ∀ {id : ScopeId} {scope : Scope}, later.scopes[id]? = some scope →
      ∃ old, found.scopes[id]? = some old ∧ old.frame = scope.frame :=
    lookup_of_map ⟨[], (List.append_nil _).trans same⟩
  intro id scope here
  obtain ⟨old, there, frame⟩ := back here
  have known := linked id old there
  obtain ⟨ids, kinds, parents, children, spans⟩ := Scope.eq_of_frame frame
  constructor
  case numbered => exact ids ▸ known.numbered
  case module => exact kinds ▸ known.module
  case parentless => exact parents ▸ known.parentless
  case parent =>
    intro parent link
    obtain ⟨less, around, outer, inside⟩ := known.parent parent (parents.trans link)
    obtain ⟨changed, now, unchanged⟩ := ahead outer
    obtain ⟨-, -, -, -, arounds⟩ := Scope.eq_of_frame unchanged
    exact ⟨less, changed, now, arounds ▸ spans ▸ inside⟩
  case ascending => exact children ▸ known.ascending
  case children =>
    intro child
    rw [← children, known.children]
    constructor
    · rintro ⟨inner, inside, link⟩
      obtain ⟨changed, now, unchanged⟩ := ahead inside
      obtain ⟨-, -, links, -⟩ := Scope.eq_of_frame unchanged
      exact ⟨changed, now, links.trans link⟩
    · rintro ⟨inner, inside, link⟩
      obtain ⟨before, earlier, unchanged⟩ := back inside
      obtain ⟨-, -, links, -⟩ := Scope.eq_of_frame unchanged
      exact ⟨before, earlier, links.trans link⟩

/-- The scopes after a scope has been opened: the new one behind the others, and the link to it
in the scope around it. -/
theorem openScope_lookup (found : Collection) (kind : ScopeKind) (name : String)
    (parent : ScopeId) (span : Span) (signature : Option Signature) (id : ScopeId) :
    (found.openScope kind name parent span signature).scopes[id]? =
      if id = found.scopes.length then
        some (.empty found.scopes.length kind name (some parent) span signature)
      else
        found.scopes[id]?.map
          (·.extend (if parent = id then [found.scopes.length] else []) []) := by
  have size : (found.scopes.modify parent (·.extend [found.scopes.length] [])).length =
      found.scopes.length := List.length_modify ..
  rw [scopes_openScope, List.getElem?_append, size, List.getElem?_modify]
  split
  case isTrue old =>
    rw [if_neg old.ne, Option.map_eq_map]
    refine congrArg (Option.map · _) (funext fun scope => ?_)
    split
    · rfl
    · exact scope.extend_nil.symm
  case isFalse beyond =>
    split
    case isTrue fresh => rw [fresh, Nat.sub_self, List.getElem?_cons_zero]
    case isFalse further =>
      have outside : found.scopes.length < id :=
        Nat.lt_of_le_of_ne (Nat.le_of_not_lt beyond) (Ne.symm further)
      rw [List.getElem?_eq_none outside.le, List.getElem?_eq_none]
      · rfl
      · exact Nat.sub_pos_of_lt outside

section Opening

variable {kind : ScopeKind} {name : String} {parent : ScopeId} {span : Span}
  {signature : Option Signature}

/-- The scope that is opened stands last. -/
theorem openScope_new :
    (found.openScope kind name parent span signature).scopes[found.scopes.length]? =
      some (.empty found.scopes.length kind name (some parent) span signature) := by
  rw [openScope_lookup, if_pos rfl]

/-- The other scopes stay, and the parent has a child more. -/
theorem openScope_old (there : found.scopes[id]? = some scope) :
    (found.openScope kind name parent span signature).scopes[id]? =
      some (scope.extend (if parent = id then [found.scopes.length] else []) []) := by
  have less : id < found.scopes.length := (List.getElem?_eq_some_iff.mp there).1
  rw [openScope_lookup, if_neg less.ne, there, Option.map_some]

/-- After a scope is opened, a scope is the new one or was there before. -/
theorem openScope_cases
    (there : (found.openScope kind name parent span signature).scopes[id]? = some scope) :
    id = found.scopes.length ∧
        scope = .empty found.scopes.length kind name (some parent) span signature ∨
      ∃ old, found.scopes[id]? = some old ∧
        scope = old.extend (if parent = id then [found.scopes.length] else []) [] := by
  rw [openScope_lookup] at there
  split at there
  case isTrue last => exact .inl ⟨last, (Option.some.inj there).symm⟩
  case isFalse =>
    obtain ⟨old, before, extended⟩ := Option.map_eq_some_iff.mp there
    exact .inr ⟨old, before, extended.symm⟩

/-- The new scope is the only one that lies in another scope than before. -/
theorem openScope_inner {child : ScopeId} :
    (∃ inner, (found.openScope kind name parent span signature).scopes[child]? = some inner ∧
        inner.parent = some id) ↔
      (∃ inner, found.scopes[child]? = some inner ∧ inner.parent = some id) ∨
        parent = id ∧ child = found.scopes.length := by
  constructor
  · rintro ⟨inner, there, link⟩
    obtain ⟨last, rfl⟩ | ⟨old, before, rfl⟩ := openScope_cases there
    · exact .inr ⟨Option.some.inj link, last⟩
    · exact .inl ⟨old, before, link⟩
  · rintro (⟨inner, there, link⟩ | ⟨rfl, rfl⟩)
    · exact ⟨_, openScope_old there, link⟩
    · exact ⟨_, openScope_new, rfl⟩

namespace Linked

/-- The scope that is opened is linked. -/
theorem fresh {around : Scope} (linked : found.Linked)
    (here : found.scopes[parent]? = some around) (inside : span.Inside around.span)
    (nested : kind ≠ .module) :
    (Scope.empty found.scopes.length kind name (some parent) span signature).Linked
      (found.openScope kind name parent span signature).scopes found.scopes.length := by
  have within : parent < found.scopes.length := (List.getElem?_eq_some_iff.mp here).1
  have inner : found.scopes.length ≠ 0 := Nat.ne_of_gt (Nat.zero_lt_of_lt within)
  constructor
  case numbered => rfl
  case module => exact iff_of_false nested inner
  case parentless => exact iff_of_false (Option.some_ne_none parent) inner
  case parent =>
    intro outer link
    cases link
    exact ⟨within, _, openScope_old here, inside⟩
  case ascending => exact .nil
  case children =>
    intro child
    rw [openScope_inner]
    refine iff_of_false List.not_mem_nil ?_
    rintro (⟨inner, before, link⟩ | ⟨same, -⟩)
    · have less : child < found.scopes.length := (List.getElem?_eq_some_iff.mp before).1
      exact absurd ((linked child inner before).parent _ link).1 less.not_gt
    · exact within.ne same

/-- A linked scope stays linked when another one is opened. -/
theorem kept (own : scope.Linked found.scopes id) :
    (scope.extend (if parent = id then [found.scopes.length] else []) []).Linked
      (found.openScope kind name parent span signature).scopes id := by
  constructor
  case numbered => exact own.numbered
  case module => exact own.module
  case parentless => exact own.parentless
  case parent =>
    intro outer link
    obtain ⟨less, around, there, inside⟩ := own.parent outer link
    exact ⟨less, _, openScope_old there, inside⟩
  case ascending =>
    refine List.pairwise_append.mpr ⟨own.ascending, ?_, fun child member new last => ?_⟩
    · split
      · exact List.pairwise_singleton _ _
      · exact .nil
    · obtain ⟨inner, there, -⟩ := (own.children child).mp member
      split at last
      · cases List.mem_singleton.mp last
        exact (List.getElem?_eq_some_iff.mp there).1
      · cases last
  case children =>
    intro child
    rw [openScope_inner, ← own.children, Scope.extend, List.mem_append]
    refine or_congr Iff.rfl ?_
    split
    case isTrue same => exact List.mem_singleton.trans (and_iff_right same).symm
    case isFalse other => exact iff_of_false List.not_mem_nil fun both => other both.1

/-- A new scope in a scope that it fits into. -/
theorem openScope {around : Scope} (linked : found.Linked)
    (here : found.scopes[parent]? = some around) (inside : span.Inside around.span)
    (nested : kind ≠ .module) : (found.openScope kind name parent span signature).Linked := by
  intro id scope there
  obtain ⟨rfl, rfl⟩ | ⟨old, before, rfl⟩ := openScope_cases there
  · exact linked.fresh here inside nested
  · exact kept (linked id old before)

end Linked

end Opening

/-- The walk opens a scope for each function and class among the given statements and inside
them, in their order; and where these stand in the span of the scope `id`, it keeps the
scopes linked. -/
structure Surveys (found : Collection) (id : ScopeId) (stmts : List Stmt) (later : Collection) :
    Prop where
  headings : later.scopes.map Scope.heading =
    found.scopes.map Scope.heading ++ (stmts.flatMap Stmt.preorder).filterMap Stmt.heading?
  linked : ∀ {lo hi : Nat} {around : Scope}, Stmt.Settled lo stmts hi →
    found.scopes[id]? = some around → around.span.start ≤ lo → hi ≤ around.span.stop →
    found.Linked → later.Linked

namespace Surveys

/-- No scope is opened. -/
theorem nothing (same : later.scopes.map Scope.frame = found.scopes.map Scope.frame) :
    Surveys found id [] later where
  headings := by
    have heading : Scope.heading = Scope.heading ∘ Scope.frame := rfl
    rw [heading, ← List.map_map, same, List.map_map, List.flatMap_nil, List.filterMap_nil,
      List.append_nil]
  linked _ _ _ _ linked := linked.of_frames same

/-- A statement that opens no scope itself. -/
theorem plain (bare : stmt.heading? = none) (surveys : Surveys found id stmt.inner later) :
    Surveys found id [stmt] later where
  headings := by
    rw [surveys.headings, List.flatMap_singleton, Stmt.preorder_eq, List.filterMap_cons_none bare]
  linked settled here starts stops := by
    cases settled with
    | cons after inner others =>
        exact surveys.linked inner here (starts.trans after) (others.le.trans stops)

theorem trans (first : Surveys found id stmts later) (second : Surveys later id others last) :
    Surveys found id (stmts ++ others) last where
  headings := by
    rw [second.headings, first.headings, List.flatMap_append, List.filterMap_append,
      List.append_assoc]
  linked := by
    intro lo hi around settled here starts stops linked
    obtain ⟨middle, front, back⟩ := settled.split
    have between := first.linked front here starts (back.le.trans stops) linked
    -- The span of the scope is still the same.
    obtain ⟨now, there, same⟩ := lookup_of_map ⟨_, first.headings.symm⟩ here
    have spans : now.span = around.span := congrArg (fun heading => heading.2.2) same
    rw [← spans] at starts stops
    exact second.linked back there (starts.trans front.le) stops between

/-- A statement that opens a scope, with its body. -/
theorem opening {kind : ScopeKind} {name : String} (signature : Option Signature)
    (opens : stmt.heading? = some (kind, name, stmt.span)) (nested : kind ≠ .module)
    (surveys : Surveys (found.openScope kind name id stmt.span signature) found.scopes.length
      stmt.inner later) :
    Surveys found id [stmt] later where
  headings := by
    have headings : (found.openScope kind name id stmt.span signature).scopes.map Scope.heading =
        found.scopes.map Scope.heading ++ [(kind, name, stmt.span)] := by
      rw [openScope, List.map_append]
      refine congrArg (· ++ _) (map_modify ?_ found id)
      exact fun _ => rfl
    rw [surveys.headings, headings, List.flatMap_singleton, Stmt.preorder_eq,
      List.filterMap_cons_some opens, List.append_assoc, List.singleton_append]
  linked settled here starts stops linked := by
    cases settled with
    | cons after inner others =>
        have inside : stmt.span.Inside _ :=
          ⟨starts.trans after, inner.le, others.le.trans stops⟩
        exact surveys.linked inner openScope_new (Nat.le_refl _) (Nat.le_refl _)
          (linked.openScope here inside nested)

/-- What the walk opens follows the walk. -/
theorem follows : Follows Surveys where
  nothing found id := .nothing rfl
  trans := .trans
  simple found id handled stmt simple := by
    have bare : stmt.heading? = none := by cases stmt <;> first | rfl | cases simple
    refine .plain bare ?_
    rw [Stmt.inner_of_isSimple simple]
    exact .nothing (frames_addStmt simple handled)
  block {found later id stmt} block surveys := by
    have bare : stmt.heading? = none := by cases stmt <;> first | rfl | exact absurd rfl block
    exact .plain bare (Stmt.inner_of_bodies block ▸ surveys)
  function surveys := .opening (some _) rfl (by decide) surveys
  classDef surveys := .opening none rfl (by decide) surveys

end Surveys

end Collection

namespace Program

variable (program : Program)

/-- The whole program is surveyed from its module on. -/
theorem collect_surveys :
    Collection.Surveys ⟨[Scope.empty 0 .module "" none program.span none], []⟩ 0 program.body
      program.collect :=
  Collection.Surveys.follows.addStmts _ 0 [] program.body

/-- Behind the module there is a scope for each function and class, in source order. -/
theorem collect_headings : program.collect.scopes.tail.map Scope.heading =
    (program.body.flatMap Stmt.preorder).filterMap Stmt.heading? := by
  rw [List.map_tail, program.collect_surveys.headings]
  rfl

/-- Where the statements stand in the span of the program, its scopes are linked. -/
theorem collect_linked
    (settled : Stmt.Settled program.span.start program.body program.span.stop) :
    program.collect.Linked := by
  refine program.collect_surveys.linked settled rfl (Nat.le_refl _) (Nat.le_refl _) ?_
  have single : ∀ {id : ScopeId} {scope : Scope},
      [Scope.empty 0 .module "" none program.span none][id]? = some scope →
        id = 0 ∧ scope = .empty 0 .module "" none program.span none := by
    intro id scope here
    obtain ⟨less, same⟩ := List.getElem?_eq_some_iff.mp here
    cases Nat.lt_one_iff.mp less
    exact ⟨rfl, same.symm⟩
  intro id scope here
  obtain ⟨rfl, rfl⟩ := single here
  constructor
  case numbered => rfl
  case module => exact iff_of_true rfl rfl
  case parentless => exact iff_of_true rfl rfl
  case parent =>
    intro parent link
    cases link
  case ascending => exact .nil
  case children =>
    intro child
    refine iff_of_false List.not_mem_nil ?_
    rintro ⟨inner, there, link⟩
    obtain ⟨rfl, rfl⟩ := single there
    cases link

end Program

/-- The scopes of a program as a tree that is numbered in source order. -/
structure ScopeTree.Ordered (program : Program) (tree : ScopeTree) : Prop where
  nonempty : 0 < tree.size
  numbered : ∀ id < tree.size, (tree.get id).id = id
  /-- The first scope is the only module. -/
  module : ∀ id < tree.size, (tree.get id).kind = .module ↔ id = 0
  /-- The first scope is the only one without a parent. -/
  parentless : ∀ id < tree.size, (tree.get id).parent = none ↔ id = 0
  parent_lt : ∀ id < tree.size, ∀ parent, (tree.get id).parent = some parent → parent < id
  /-- Every scope is once among the children of its parent, and of no other scope. -/
  children : ∀ id < tree.size, ∀ child, child ∈ (tree.get id).children ↔
    child < tree.size ∧ (tree.get child).parent = some id
  ascending : ∀ id < tree.size, (tree.get id).children.Pairwise (· < ·)
  /-- Behind the module there is one scope for each function and class at any depth. -/
  definitions : tree.scopes.tail.map Scope.heading =
    (program.body.flatMap Stmt.preorder).filterMap Stmt.heading?
  starts : ∀ id other, 0 < id → id < other → other < tree.size →
    (tree.get id).span.start < (tree.get other).span.start
  inside : ∀ id < tree.size, ∀ parent, (tree.get id).parent = some parent →
    (tree.get id).span.Inside (tree.get parent).span
  /-- The way from a scope to the module follows the parents. -/
  ancestors : ∀ id < tree.size, (tree.ancestors id).head? = some id ∧
    (tree.ancestors id).IsChain (fun inner outer => (tree.get inner).parent = some outer) ∧
    (tree.ancestors id).Pairwise (· > ·) ∧ (tree.ancestors id).getLast? = some 0
  mem_functions : ∀ id, id ∈ tree.functions ↔ id < tree.size ∧ (tree.get id).kind = .function
  functions : tree.functions.Pairwise fun id other =>
    (tree.get id).span.start < (tree.get other).span.start

namespace ScopeTree

variable {tree : ScopeTree} {id : ScopeId}

/-- A number below the size of the tree is that of a scope. -/
theorem lookup (within : id < tree.size) : tree.scopes[id]? = some (tree.get id) := by
  rw [get, List.getD_eq_getElem?_getD, List.getElem?_eq_getElem within, Option.getD_some]

/-- A scope that is there has a number below the size of the tree. -/
theorem get_of_lookup {scope : Scope} (here : tree.scopes[id]? = some scope) :
    id < tree.size ∧ tree.get id = scope := by
  refine ⟨(List.getElem?_eq_some_iff.mp here).1, ?_⟩
  rw [get, List.getD_eq_getElem?_getD, here, Option.getD_some]

section Linked

variable {imports : List ImportBinding} (linked : (⟨tree.scopes, imports⟩ : Collection).Linked)

include linked

/-- A linked scope lies in its parent, which has a smaller number. -/
theorem parent_of_linked {parent : ScopeId} (within : id < tree.size)
    (link : (tree.get id).parent = some parent) :
    parent < id ∧ (tree.get id).span.Inside (tree.get parent).span := by
  obtain ⟨less, around, outer, inside⟩ := (linked id _ (lookup within)).parent parent link
  rw [(get_of_lookup outer).2]
  exact ⟨less, inside⟩

/-- The children of a linked scope are those whose parent it is. -/
theorem children_of_linked (within : id < tree.size) (child : ScopeId) :
    child ∈ (tree.get id).children ↔
      child < tree.size ∧ (tree.get child).parent = some id := by
  rw [(linked id _ (lookup within)).children]
  constructor
  · rintro ⟨inner, there, link⟩
    obtain ⟨less, rfl⟩ := get_of_lookup there
    exact ⟨less, link⟩
  · rintro ⟨less, link⟩
    exact ⟨_, lookup less, link⟩

/-- The way from a scope to the module. -/
theorem ancestors_of_linked (within : id < tree.size) :
    (tree.ancestors id).head? = some id ∧
      (tree.ancestors id).IsChain (fun inner outer => (tree.get inner).parent = some outer) ∧
      (tree.ancestors id).Pairwise (· > ·) ∧ (tree.ancestors id).getLast? = some 0 := by
  induction id using Nat.strongRecOn with
  | ind id ih =>
      cases link : (tree.get id).parent with
      | none =>
          have root : id = 0 := (linked id _ (lookup within)).parentless.mp link
          have alone : tree.ancestors id = [id] := by rw [ancestors, link]
          rw [alone, root]
          exact ⟨rfl, .singleton _, List.pairwise_singleton _ _, rfl⟩
      | some parent =>
          have less : parent < id := (parent_of_linked linked within link).1
          have further : tree.ancestors id = id :: tree.ancestors parent := by
            rw [ancestors, link]
            exact if_pos less
          obtain ⟨head, chain, descending, last⟩ := ih parent less (less.trans within)
          obtain ⟨others, split⟩ := List.head?_eq_some_iff.mp head
          rw [split] at chain descending last
          rw [further, split]
          refine ⟨rfl, .cons_cons link chain, List.pairwise_cons.mpr ⟨?_, descending⟩, ?_⟩
          · refine List.forall_mem_cons.mpr ⟨less, fun outer member => ?_⟩
            exact Nat.lt_trans ((List.pairwise_cons.mp descending).1 outer member) less
          · rw [List.getLast?_cons_cons, last]

end Linked

/-- Scopes behind the first one that start one after another. -/
theorem start_lt_start {other : ScopeId}
    (ordered : (tree.scopes.tail.map Scope.heading).Pairwise
      fun first second => first.2.2.start < second.2.2.start)
    (inner : 0 < id) (less : id < other) (within : other < tree.size) :
    (tree.get id).span.start < (tree.get other).span.start := by
  have place : ∀ {id : ScopeId} (_ : 0 < id) (within : id < tree.size),
      (tree.scopes.tail.map Scope.heading)[id - 1]? = some (tree.get id).heading := by
    intro id inner within
    rw [List.getElem?_map, List.getElem?_tail, Nat.sub_add_cancel inner, lookup within,
      Option.map_some]
  obtain ⟨inFirst, first⟩ := List.getElem?_eq_some_iff.mp (place inner (less.trans within))
  obtain ⟨inSecond, second⟩ :=
    List.getElem?_eq_some_iff.mp (place (inner.trans less) within)
  have starts := List.pairwise_iff_getElem.mp ordered _ _ inFirst inSecond
    (Nat.sub_lt_sub_right inner less)
  rwa [first, second] at starts

/-- Linked scopes that start one after another are a tree. -/
theorem Ordered.of_linked {program : Program} {imports : List ImportBinding}
    (nonempty : 0 < tree.size) (linked : (⟨tree.scopes, imports⟩ : Collection).Linked)
    (definitions : tree.scopes.tail.map Scope.heading =
      (program.body.flatMap Stmt.preorder).filterMap Stmt.heading?)
    (ordered : (tree.scopes.tail.map Scope.heading).Pairwise
      fun first second => first.2.2.start < second.2.2.start)
    (functions : tree.functions =
      (List.range tree.size).filter fun id => (tree.get id).kind = .function) :
    tree.Ordered program where
  nonempty := nonempty
  numbered id within := (linked id _ (lookup within)).numbered
  module id within := (linked id _ (lookup within)).module
  parentless id within := (linked id _ (lookup within)).parentless
  parent_lt id within parent link := (parent_of_linked linked within link).1
  children id within := children_of_linked linked within
  ascending id within := (linked id _ (lookup within)).ascending
  definitions := definitions
  starts id other inner less within := start_lt_start ordered inner less within
  inside id within parent link := (parent_of_linked linked within link).2
  ancestors id within := ancestors_of_linked linked within
  mem_functions id := by
    rw [functions, List.mem_filter, List.mem_range, decide_eq_true_iff]
  functions := by
    rw [functions]
    refine (List.pairwise_lt_range.filter _).imp_of_mem ?_
    intro id other member memberOther less
    obtain ⟨within, kind⟩ := List.mem_filter.mp member
    have inner : id ≠ 0 := by
      rintro rfl
      have module := (linked 0 _ (lookup nonempty)).module.mpr rfl
      cases module.symm.trans (of_decide_eq_true kind)
    exact start_lt_start ordered (Nat.pos_of_ne_zero inner) less
      (List.mem_range.mp (List.mem_filter.mp memberOther).1)

end ScopeTree

namespace Source

variable {text file : String} {source : Source}

/-- The scopes of a program start in the order of their statements. -/
theorem headings_ordered (accepted : read text file = .ok source) :
    ((source.program.body.flatMap Stmt.preorder).filterMap Stmt.heading?).Pairwise
      fun first second => first.2.2.start < second.2.2.start := by
  have known : ∀ {stmt : Stmt} {heading}, stmt.heading? = some heading →
      heading.2.2 = stmt.span := by
    intro stmt heading opens
    cases stmt <;> first | cases opens; rfl | cases opens
  rw [List.pairwise_filterMap]
  refine (statements_ordered accepted).imp ?_
  intro first second less heading opens other opensOther
  rw [known opens, known opensOther]
  exact less

/-- **The scopes of an accepted text are a tree that is numbered in source order.**  The module
is the only root; every other scope belongs to one function or class, starts after the scopes
with smaller numbers, lies in the span of its parent and is once among its children. -/
theorem scopes_ordered (accepted : read text file = .ok source) :
    source.scopes.Ordered source.program := by
  have settled := statements_settled accepted
  have starts := headings_ordered accepted
  obtain ⟨tokens, program, -, -, rfl⟩ := eq_ofProgram_of_read accepted
  have definitions := program.collect_headings
  have nonempty : 0 < program.collect.scopes.length := by
    have size := congrArg List.length program.collect_surveys.headings
    rw [List.length_map, List.length_append, List.length_map, List.length_singleton] at size
    omega
  exact .of_linked nonempty (program.collect_linked settled) definitions (definitions ▸ starts)
    (functions_ofProgram text file program)

/-- A decorated class with a function, and an asynchronous function with a class. -/
def nestedScopes : Source :=
  .ofProgram "@d\nclass C:\n def f(): pass\nif x:\n async def g():\n  class D: pass" "m.py"
    ⟨[.classDef ⟨0, 26⟩ "C" [] []
        [.function ⟨13, 26⟩ "f" ⟨[], none⟩ [.keyword ⟨22, 26⟩ .passKw []] [] false]
        [.symbol ⟨1, 2⟩ "d"],
      .conditional ⟨27, 64⟩ (.symbol ⟨30, 31⟩ "x")
        [.function ⟨34, 64⟩ "g" ⟨[], none⟩
          [.classDef ⟨51, 64⟩ "D" [] [] [.keyword ⟨60, 64⟩ .passKw []] []] [] true] []],
      ⟨0, 64⟩⟩

theorem read_nestedScopes :
    read "@d\nclass C:\n def f(): pass\nif x:\n async def g():\n  class D: pass" "m.py" =
      .ok nestedScopes := by
  have scanned : Layout.scanWithin 60 .initial "m.py" 0
      "@d\nclass C:\n def f(): pass\nif x:\n async def g():\n  class D: pass".toList =
      some (.ok [⟨.atSign, "@", ⟨0, 1⟩⟩, ⟨.identifier, "d", ⟨1, 2⟩⟩, ⟨.newline, "\n", ⟨2, 3⟩⟩,
        ⟨.classKw, "class", ⟨3, 8⟩⟩, ⟨.identifier, "C", ⟨9, 10⟩⟩, ⟨.colon, ":", ⟨10, 11⟩⟩,
        ⟨.newline, "\n", ⟨11, 12⟩⟩, ⟨.indent, "", ⟨13, 13⟩⟩, ⟨.defKw, "def", ⟨13, 16⟩⟩,
        ⟨.identifier, "f", ⟨17, 18⟩⟩, ⟨.openParen, "(", ⟨18, 19⟩⟩, ⟨.closeParen, ")", ⟨19, 20⟩⟩,
        ⟨.colon, ":", ⟨20, 21⟩⟩, ⟨.passKw, "pass", ⟨22, 26⟩⟩, ⟨.newline, "\n", ⟨26, 27⟩⟩,
        ⟨.dedent, "", ⟨27, 27⟩⟩, ⟨.ifKw, "if", ⟨27, 29⟩⟩, ⟨.identifier, "x", ⟨30, 31⟩⟩,
        ⟨.colon, ":", ⟨31, 32⟩⟩, ⟨.newline, "\n", ⟨32, 33⟩⟩, ⟨.indent, "", ⟨34, 34⟩⟩,
        ⟨.asyncKw, "async", ⟨34, 39⟩⟩, ⟨.defKw, "def", ⟨40, 43⟩⟩, ⟨.identifier, "g", ⟨44, 45⟩⟩,
        ⟨.openParen, "(", ⟨45, 46⟩⟩, ⟨.closeParen, ")", ⟨46, 47⟩⟩, ⟨.colon, ":", ⟨47, 48⟩⟩,
        ⟨.newline, "\n", ⟨48, 49⟩⟩, ⟨.indent, "", ⟨51, 51⟩⟩, ⟨.classKw, "class", ⟨51, 56⟩⟩,
        ⟨.identifier, "D", ⟨57, 58⟩⟩, ⟨.colon, ":", ⟨58, 59⟩⟩, ⟨.passKw, "pass", ⟨60, 64⟩⟩,
        ⟨.newline, "", ⟨64, 64⟩⟩, ⟨.dedent, "", ⟨64, 64⟩⟩, ⟨.dedent, "", ⟨64, 64⟩⟩,
        ⟨.eof, "", ⟨64, 64⟩⟩]) := by
    with_unfolding_all rfl
  exact read_of_steps 60 scanned (by with_unfolding_all rfl)

/-- Five scopes, two of which are children of the module. -/
theorem scopes_ordered_nested :
    (nestedScopes.scopes.scopes.map fun scope => (scope.parent, scope.children, scope.span)) =
        [(none, [1, 3], ⟨0, 64⟩), (some 0, [2], ⟨0, 26⟩), (some 1, [], ⟨13, 26⟩),
          (some 0, [4], ⟨34, 64⟩), (some 3, [], ⟨51, 64⟩)] ∧
      nestedScopes.scopes.Ordered nestedScopes.program :=
  ⟨rfl, scopes_ordered read_nestedScopes⟩

end Source

end DocSketch
