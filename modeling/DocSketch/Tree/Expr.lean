import DocSketch.Token.Basic

/-!
# Expressions

* `Expr`: the expressions of the source language, each node with its span.
* `Expr.span`: the span of a node.
* `Expr.children`: the direct sub-expressions that belong to the same scope.
* `Expr.isAssignable`: the expressions that may stand on the left of `=`.
-/

namespace DocSketch

/-- Types of number literals. -/
inductive NumberKind where
  | int | float | complex
deriving DecidableEq, Repr, Inhabited

/-- Types of string literals. -/
inductive StringKind where
  | str | bytes | formatted
deriving DecidableEq, Repr, Inhabited

/-- Named constants. -/
inductive Constant where
  | true | false | none | ellipsis
deriving DecidableEq, Repr, Inhabited

/-- Displays of elements. -/
inductive SequenceKind where
  | list | tuple | set
deriving DecidableEq, Repr, Inhabited

def SequenceKind.typeName : SequenceKind → String
  | list => "list"
  | tuple => "tuple"
  | set => "set"

/-- Results of comprehensions. -/
inductive ComprehensionKind where
  | list | set | generator | dict
deriving DecidableEq, Repr, Inhabited

/-- Ways in which a parameter takes arguments. -/
inductive ParameterKind where
  | positional | varPositional | keywordOnly | varKeyword
deriving DecidableEq, Repr, Inhabited

/-- A keyword argument `name=value`, or `**value` if it has no name. -/
structure Keyword (ε : Type) where
  name : Option String
  value : ε
deriving Repr, Inhabited

/-- An entry `key: value` of a mapping display, or `**value` if it has no key. -/
structure Entry (ε : Type) where
  key : Option ε
  value : ε
deriving Repr, Inhabited

/-- A clause `for target in iter if condition …` of a comprehension. -/
structure Clause (ε : Type) where
  target : ε
  iter : ε
  conditions : List ε
  isAsync : Bool
deriving Repr, Inhabited

/-- A parameter of a function. -/
structure Parameter (ε : Type) where
  name : String
  annotation : Option ε
  default : Option ε
  kind : ParameterKind
  span : Span
deriving Repr, Inhabited

/-- Expressions of the source language. -/
inductive Expr where
  /-- A number, its text as written. -/
  | number (span : Span) (kind : NumberKind) (text : String)
  /-- One or more adjacent string literals, the text between their quotes. -/
  | string (span : Span) (kind : StringKind) (text : String)
  | constant (span : Span) (value : Constant)
  /-- A bare name. -/
  | symbol (span : Span) (name : String)
  | member (span : Span) (object : Expr) (property : String)
  /-- A call; positional arguments include `*value`. -/
  | call (span : Span) (callee : Expr) (arguments : List Expr) (keywords : List (Keyword Expr))
  | sequence (span : Span) (kind : SequenceKind) (elements : List Expr)
  | dict (span : Span) (entries : List (Entry Expr))
  /-- A comprehension; `element` is the key of a mapping and `value` its value. -/
  | comprehension (span : Span) (kind : ComprehensionKind) (element : Expr)
      (value : Option Expr) (clauses : List (Clause Expr))
  /-- An operation; an operator of two words has the kind of the second, or of `is`. -/
  | binary (span : Span) (left : Expr) (operator : Token) (right : Expr)
  | unary (span : Span) (operator : Token) (operand : Expr)
  /-- A choice `body if test else orelse`. -/
  | ternary (span : Span) (body test orelse : Expr)
  | subscript (span : Span) (object index : Expr)
  | slice (span : Span) (lower upper step : Option Expr)
  | lambda (span : Span) (parameters : List (Parameter Expr)) (body : Expr)
  /-- An unpacked value, with one star or two. -/
  | starred (span : Span) (value : Expr) (isDouble : Bool)
  /-- A `yield`, or a `yield from` that delegates to its value. -/
  | yield (span : Span) (value : Option Expr) (delegates : Bool)
deriving Repr, Inhabited

namespace Expr

def span : Expr → Span
  | number span .. => span
  | string span .. => span
  | constant span .. => span
  | symbol span .. => span
  | member span .. => span
  | call span .. => span
  | sequence span .. => span
  | dict span .. => span
  | comprehension span .. => span
  | binary span .. => span
  | unary span .. => span
  | ternary span .. => span
  | subscript span .. => span
  | slice span .. => span
  | lambda span .. => span
  | starred span .. => span
  | yield span .. => span

/-- Direct sub-expressions in source order.  What a lambda holds belongs to a scope of
its own and is left out. -/
def children : Expr → List Expr
  | number .. | string .. | constant .. | symbol .. | lambda .. => []
  | member _ object _ => [object]
  | call _ callee arguments keywords => callee :: arguments ++ keywords.map Keyword.value
  | sequence _ _ elements => elements
  | dict _ entries => entries.flatMap fun entry => entry.key.toList ++ [entry.value]
  | comprehension _ _ element value clauses =>
    element :: value.toList ++
      clauses.flatMap fun clause => clause.target :: clause.iter :: clause.conditions
  | binary _ left _ right => [left, right]
  | unary _ _ operand => [operand]
  | ternary _ body test orelse => [body, test, orelse]
  | subscript _ object index => [object, index]
  | slice _ lower upper step => lower.toList ++ upper.toList ++ step.toList
  | starred _ value _ => [value]
  | yield _ value _ => value.toList

/-- Whether an expression is an unpacked value. -/
def isStarred : Expr → Bool
  | starred .. => true
  | _ => false

def isSlice : Expr → Bool
  | slice .. => true
  | _ => false

mutual

/-- Whether an expression may stand on the left of `=`. -/
def isAssignable : Expr → Bool
  | symbol .. | member .. | subscript .. | starred .. => true
  | sequence _ kind elements => kind != .set && areAssignable elements
  | _ => false

/-- Whether all expressions may stand on the left of `=`. -/
def areAssignable : List Expr → Bool
  | [] => true
  | e :: es => isAssignable e && areAssignable es

end

/-- An optional node is smaller than a node that holds it. -/
theorem sizeOf_lt_of_mem_toList {e : Expr} {o : Option Expr} (h : e ∈ o.toList) :
    sizeOf e < sizeOf o := by
  cases o with
  | none => simp at h
  | some x =>
    simp at h
    simp [h]

/-- A part of an expression is smaller than the expression. -/
theorem sizeOf_lt_of_mem_children {e child : Expr} (h : child ∈ e.children) :
    sizeOf child < sizeOf e := by
  cases e with
  | number | string | constant | symbol | lambda => simp [children] at h
  | member span object property =>
    simp only [children, List.mem_singleton] at h
    rw [h, member.sizeOf_spec]
    omega
  | call span callee arguments keywords =>
    simp only [children, List.mem_cons, List.cons_append, List.mem_append, List.mem_map] at h
    rcases h with h | h | ⟨keyword, hmem, h⟩
    · simp [h]; omega
    · have := List.sizeOf_lt_of_mem h
      simp; omega
    · have := List.sizeOf_lt_of_mem hmem
      cases keyword
      simp at this h
      simp [← h]; omega
  | sequence span kind elements =>
    have := List.sizeOf_lt_of_mem (show child ∈ elements from h)
    simp; omega
  | dict span entries =>
    simp only [children, List.mem_flatMap, List.mem_append, List.mem_singleton] at h
    obtain ⟨entry, hmem, h⟩ := h
    have := List.sizeOf_lt_of_mem hmem
    cases entry
    simp at this h
    rcases h with h | h
    · simp [h] at this
      simp; omega
    · simp [h]; omega
  | comprehension span kind element value clauses =>
    simp only [children, List.mem_cons, List.cons_append, List.mem_append, List.mem_flatMap] at h
    rcases h with h | h | ⟨clause, hmem, h⟩
    · simp [h]; omega
    · have := sizeOf_lt_of_mem_toList h
      simp; omega
    · have := List.sizeOf_lt_of_mem hmem
      cases clause
      simp at this h
      rcases h with h | h | h
      · simp [h]; omega
      · simp [h]; omega
      · have := List.sizeOf_lt_of_mem h
        simp; omega
  | binary span left operator right =>
    simp only [children, List.mem_cons, List.not_mem_nil, or_false] at h
    rcases h with h | h
    all_goals
      rw [h, binary.sizeOf_spec]
      omega
  | unary span operator operand =>
    simp only [children, List.mem_singleton] at h
    rw [h, unary.sizeOf_spec]
    omega
  | ternary span body test orelse =>
    simp only [children, List.mem_cons, List.not_mem_nil, or_false] at h
    rcases h with h | h | h
    all_goals
      rw [h, ternary.sizeOf_spec]
      omega
  | subscript span object index =>
    simp only [children, List.mem_cons, List.not_mem_nil, or_false] at h
    rcases h with h | h
    all_goals
      rw [h, subscript.sizeOf_spec]
      omega
  | slice span lower upper step =>
    simp only [children, List.mem_append] at h
    rcases h with (h | h) | h
    all_goals
      have := sizeOf_lt_of_mem_toList h
      simp
      omega
  | starred span value isDouble =>
    simp only [children, List.mem_singleton] at h
    rw [h, starred.sizeOf_spec]
    omega
  | yield span value delegates =>
    have := sizeOf_lt_of_mem_toList (show child ∈ value.toList from h)
    simp; omega

/-- Operands of the `yield` expressions of a scope, outermost first and then in source
order; a bare `yield` gives `None`, and delegation gives nothing. -/
def yields (e : Expr) : List Expr :=
  let own :=
    match e with
    | yield _ (some value) false => [value]
    | yield span none false => [constant span .none]
    | _ => []
  own ++ e.children.attach.flatMap fun child => child.1.yields
termination_by sizeOf e
decreasing_by exact sizeOf_lt_of_mem_children child.2

end Expr

end DocSketch
