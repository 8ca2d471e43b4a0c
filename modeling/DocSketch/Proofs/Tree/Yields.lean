import DocSketch.Proofs.Tree.Nodes
import Mathlib.Data.List.Flatten

/-!
# The `yield` expressions of an expression

An expression holds other expressions at any depth, up to lambdas, which have scopes of their
own.  The `yield` expressions among them are listed from the outside in and then from the left
to the right.  This is their order in the text, except in a call that has a positional argument
behind a keyword: positional arguments are listed before keywords.

* `Expr.IsPart`, `Expr.Within`: the expressions that an expression holds.
* `Expr.yieldNodes`: the `yield` expressions among them.
* `Expr.yields_eq`: what an expression yields are their operands.
* `Expr.Orderly`: no argument yields behind a keyword that yields.
-/

namespace DocSketch

namespace Expr

/-- The direct sub-expressions that belong to the scope of an expression. -/
inductive IsPart : Expr → Expr → Prop
  | object {span : Span} {object : Expr} {property : String} :
      IsPart object (.member span object property)
  | callee {span : Span} {callee : Expr} {arguments : List Expr}
      {keywords : List (Keyword Expr)} : IsPart callee (.call span callee arguments keywords)
  | argument {span : Span} {callee argument : Expr} {arguments : List Expr}
      {keywords : List (Keyword Expr)} (member : argument ∈ arguments) :
      IsPart argument (.call span callee arguments keywords)
  | keyword {span : Span} {callee : Expr} {arguments : List Expr} {keyword : Keyword Expr}
      {keywords : List (Keyword Expr)} (member : keyword ∈ keywords) :
      IsPart keyword.value (.call span callee arguments keywords)
  | element {span : Span} {kind : SequenceKind} {element : Expr} {elements : List Expr}
      (member : element ∈ elements) : IsPart element (.sequence span kind elements)
  | key {span : Span} {entry : Entry Expr} {entries : List (Entry Expr)} {key : Expr}
      (member : entry ∈ entries) (given : entry.key = some key) : IsPart key (.dict span entries)
  | entry {span : Span} {entry : Entry Expr} {entries : List (Entry Expr)}
      (member : entry ∈ entries) : IsPart entry.value (.dict span entries)
  | produced {span : Span} {kind : ComprehensionKind} {element : Expr} {value : Option Expr}
      {clauses : List (Clause Expr)} :
      IsPart element (.comprehension span kind element value clauses)
  | mapped {span : Span} {kind : ComprehensionKind} {element value : Expr}
      {clauses : List (Clause Expr)} :
      IsPart value (.comprehension span kind element (some value) clauses)
  | target {span : Span} {kind : ComprehensionKind} {element : Expr} {value : Option Expr}
      {clause : Clause Expr} {clauses : List (Clause Expr)} (member : clause ∈ clauses) :
      IsPart clause.target (.comprehension span kind element value clauses)
  | iter {span : Span} {kind : ComprehensionKind} {element : Expr} {value : Option Expr}
      {clause : Clause Expr} {clauses : List (Clause Expr)} (member : clause ∈ clauses) :
      IsPart clause.iter (.comprehension span kind element value clauses)
  | condition {span : Span} {kind : ComprehensionKind} {element condition : Expr}
      {value : Option Expr} {clause : Clause Expr} {clauses : List (Clause Expr)}
      (member : clause ∈ clauses) (tested : condition ∈ clause.conditions) :
      IsPart condition (.comprehension span kind element value clauses)
  | left {span : Span} {left right : Expr} {operator : Token} :
      IsPart left (.binary span left operator right)
  | right {span : Span} {left right : Expr} {operator : Token} :
      IsPart right (.binary span left operator right)
  | operand {span : Span} {operator : Token} {operand : Expr} :
      IsPart operand (.unary span operator operand)
  | body {span : Span} {body test orelse : Expr} : IsPart body (.ternary span body test orelse)
  | test {span : Span} {body test orelse : Expr} : IsPart test (.ternary span body test orelse)
  | orelse {span : Span} {body test orelse : Expr} :
      IsPart orelse (.ternary span body test orelse)
  | subscripted {span : Span} {object index : Expr} : IsPart object (.subscript span object index)
  | index {span : Span} {object index : Expr} : IsPart index (.subscript span object index)
  | lower {span : Span} {lower : Expr} {upper step : Option Expr} :
      IsPart lower (.slice span (some lower) upper step)
  | upper {span : Span} {upper : Expr} {lower step : Option Expr} :
      IsPart upper (.slice span lower (some upper) step)
  | step {span : Span} {step : Expr} {lower upper : Option Expr} :
      IsPart step (.slice span lower upper (some step))
  | unpacked {span : Span} {value : Expr} {isDouble : Bool} :
      IsPart value (.starred span value isDouble)
  | yielded {span : Span} {value : Expr} {delegates : Bool} :
      IsPart value (.yield span (some value) delegates)

/-- No place of an expression is missing in the list of its children. -/
theorem isPart_iff {part e : Expr} : IsPart part e ↔ part ∈ e.children := by
  constructor
  · intro isPart
    cases isPart with
    | key member given =>
        exact List.mem_flatMap.mpr ⟨_, member, by simp [given]⟩
    | entry member => exact List.mem_flatMap.mpr ⟨_, member, by simp⟩
    | target member | iter member =>
        simp only [children, List.cons_append, List.mem_cons, List.mem_append, List.mem_flatMap]
        exact .inr (.inr ⟨_, member, by simp⟩)
    | condition member tested =>
        simp only [children, List.cons_append, List.mem_cons, List.mem_append, List.mem_flatMap]
        exact .inr (.inr ⟨_, member, .inr (.inr tested)⟩)
    | keyword member =>
        simp only [children, List.cons_append, List.mem_cons, List.mem_append]
        exact .inr (.inr (List.mem_map_of_mem member))
    | _ => simp [children, *]
  · intro member
    cases e with
    | number | string | constant | symbol | lambda => cases member
    | member =>
        cases List.mem_singleton.mp member
        exact .object
    | call =>
        simp only [children, List.cons_append, List.mem_cons, List.mem_append, List.mem_map]
          at member
        obtain rfl | inside | ⟨keyword, inside, rfl⟩ := member
        · exact .callee
        · exact .argument inside
        · exact .keyword inside
    | sequence => exact .element member
    | dict =>
        obtain ⟨entry, inside, member⟩ := List.mem_flatMap.mp member
        simp only [List.mem_append, Option.mem_toList, List.mem_singleton] at member
        obtain given | rfl := member
        · exact .key inside given
        · exact .entry inside
    | comprehension span kind element value =>
        simp only [children, List.cons_append, List.mem_cons, List.mem_append, Option.mem_toList,
          List.mem_flatMap] at member
        obtain rfl | given | ⟨clause, inside, rfl | rfl | tested⟩ := member
        · exact .produced
        · cases given
          exact .mapped
        · exact .target inside
        · exact .iter inside
        · exact .condition inside tested
    | binary =>
        simp only [children, List.mem_cons, List.not_mem_nil, or_false] at member
        obtain rfl | rfl := member
        · exact .left
        · exact .right
    | unary =>
        cases List.mem_singleton.mp member
        exact .operand
    | ternary =>
        simp only [children, List.mem_cons, List.not_mem_nil, or_false] at member
        obtain rfl | rfl | rfl := member
        · exact .body
        · exact .test
        · exact .orelse
    | subscript =>
        simp only [children, List.mem_cons, List.not_mem_nil, or_false] at member
        obtain rfl | rfl := member
        · exact .subscripted
        · exact .index
    | slice =>
        simp only [children, List.mem_append, Option.mem_toList] at member
        obtain (given | given) | given := member
        · cases given
          exact .lower
        · cases given
          exact .upper
        · cases given
          exact .step
    | starred =>
        cases List.mem_singleton.mp member
        exact .unpacked
    | yield =>
        cases Option.mem_toList.mp member
        exact .yielded

/-- An expression holds another one of its scope, or is this one. -/
inductive Within : Expr → Expr → Prop
  | refl (e : Expr) : Within e e
  | part {node part e : Expr} (isPart : IsPart part e) (within : Within node part) : Within node e

/-- Whether an expression is a `yield` that does not delegate. -/
def isYield : Expr → Bool
  | yield _ _ delegates => !delegates
  | _ => false

/-- The operand of a `yield`, which is `None` if it is left out. -/
def operand : Expr → Expr
  | yield _ (some value) _ => value
  | e => constant e.span .none

/-- The `yield` expressions in an expression, outermost first and then from the left. -/
def yieldNodes (e : Expr) : List Expr :=
  (if e.isYield then [e] else []) ++ e.children.attach.flatMap fun child => child.1.yieldNodes
termination_by sizeOf e
decreasing_by exact sizeOf_lt_of_mem_children child.2

/-- The yields of an expression are itself, if it is one, and those of its parts. -/
theorem yieldNodes_eq (e : Expr) :
    e.yieldNodes = (if e.isYield then [e] else []) ++ e.children.flatMap yieldNodes := by
  rw [yieldNodes]
  conv => rhs; rw [← List.attach_map_subtype_val e.children, List.flatMap_map]

/-- What an expression yields are the operands of its `yield` expressions. -/
theorem yields_eq (e : Expr) : e.yields = e.yieldNodes.map operand := by
  induction e using yieldNodes.induct with
  | case1 e ih =>
      have below : (e.children.attach.flatMap fun child => child.1.yields) =
          (e.children.flatMap yieldNodes).map operand := by
        have each : (e.children.attach.flatMap fun child => child.1.yields) =
            e.children.attach.flatMap fun child => child.1.yieldNodes.map operand :=
          congrArg List.flatten (List.map_congr_left fun child _ => ih child)
        conv => rhs; rw [← List.attach_map_subtype_val e.children, List.flatMap_map]
        rw [each, List.map_flatMap]
      rw [yields.eq_def, yieldNodes_eq, List.map_append, below]
      cases e with
      | yield span value delegates => cases value <;> cases delegates <;> rfl
      | _ => rfl

/-- The list of `yield` expressions has exactly those that the expression holds. -/
theorem mem_yieldNodes_iff {node e : Expr} :
    node ∈ e.yieldNodes ↔ node.isYield = true ∧ Within node e := by
  induction e using yieldNodes.induct with
  | case1 e ih =>
      rw [yieldNodes_eq, List.mem_append, List.mem_flatMap]
      constructor
      · rintro (own | ⟨child, member, below⟩)
        · split at own
          case isTrue yields =>
            cases List.mem_singleton.mp own
            exact ⟨yields, .refl _⟩
          case isFalse => cases own
        · obtain ⟨yields, within⟩ := (ih ⟨child, member⟩).mp below
          exact ⟨yields, .part (isPart_iff.mpr member) within⟩
      · rintro ⟨yields, within⟩
        cases within with
        | refl =>
            rw [if_pos yields]
            exact .inl List.mem_cons_self
        | part isPart within =>
            have member := isPart_iff.mp isPart
            exact .inr ⟨_, member, (ih ⟨_, member⟩).mpr ⟨yields, within⟩⟩

/-- All that the first expressions yield stands before what the second ones yield. -/
def YieldsBefore (first second : List Expr) : Prop :=
  ∀ node ∈ first.flatMap yieldNodes, ∀ other ∈ second.flatMap yieldNodes,
    node.span.start < other.span.start

/-- In no call that the expression holds does an argument yield behind a keyword that
yields. -/
def Orderly (e : Expr) : Prop :=
  ∀ span callee arguments keywords, Within (.call span callee arguments keywords) e →
    YieldsBefore arguments (keywords.map Keyword.value)

/-- A part of an orderly expression is orderly. -/
theorem Orderly.part {part e : Expr} (orderly : e.Orderly) (isPart : IsPart part e) :
    part.Orderly :=
  fun span callee arguments keywords within =>
    orderly span callee arguments keywords (.part isPart within)

/-- An expression is orderly if its parts are, and it itself if it is a call. -/
theorem orderly_of_children {e : Expr}
    (own : ∀ span callee arguments keywords, e = .call span callee arguments keywords →
      YieldsBefore arguments (keywords.map Keyword.value))
    (below : ∀ child ∈ e.children, child.Orderly) : e.Orderly := by
  intro span callee arguments keywords within
  cases within with
  | refl => exact own _ _ _ _ rfl
  | part isPart within => exact below _ (isPart_iff.mp isPart) _ _ _ _ within

end Expr

end DocSketch
