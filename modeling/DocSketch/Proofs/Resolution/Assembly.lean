import DocSketch.Resolution.Resolver

/-!
# Types put together in any kind of computation

Resolutions come in several kinds: with a memory or without one, with marks, or only asked for.
They differ in how they look definitions up, and they put the types of an expression together
from those of its parts in one way.

* `Expr.untyped?`: the forms without a type.
* `Resolver.assemble`: the types of an expression from those of its parts.
* `Resolver.Congruence`: a relation between two kinds of computations that going on keeps.
* `Resolver.Congruence.assemble`: the types of an expression are related if those of its parts are.
-/

namespace DocSketch

/-- What an expression of a form without a type is called. -/
def Expr.untyped? : Expr → Option String
  | .lambda .. => some "lambda"
  | .starred .. => some "starred"
  | .slice .. => some "slice"
  | .yield .. => some "yield"
  | _ => none

namespace Resolver

/-- What a resolution of some kind finds out before it puts the types of an expression together:
the types of its parts and those of a reference.  A form without a type has a name. -/
structure Inquiry (m : Type → Type) where
  part : Expr → m Alternatives
  reference : m Alternatives
  untyped : String → m Alternatives

section Assembly

variable {m : Type → Type} [Monad m]

/-- The types of the elements of a display, added to `found`. -/
def assembleElements (part : Expr → m Alternatives) (found : Alternatives) :
    List Expr → m Alternatives
  | [] => pure found
  | element :: others =>
    if element.isStarred then
      assembleElements part found others
    else do
      let types ← part element
      assembleElements part (Alternatives.extend found types) others

/-- The types of the keys and the values of a mapping, added to those found. -/
def assembleEntries (part : Expr → m Alternatives) (foundKeys foundValues : Alternatives) :
    List (Entry Expr) → m (Alternatives × Alternatives)
  | [] => pure (foundKeys, foundValues)
  | ⟨none, _⟩ :: others => assembleEntries part foundKeys foundValues others
  | ⟨some key, value⟩ :: others => do
    let keyTypes ← part key
    let valueTypes ← part value
    assembleEntries part (Alternatives.extend foundKeys keyTypes)
      (Alternatives.extend foundValues valueTypes) others

/-- The types of an expression, put together from what was found out. -/
def assemble (resolver : Resolver) (inquiry : Inquiry m) (e : Expr) : m Alternatives :=
  match e with
  | .number _ kind _ => pure (Alternatives.leaf kind.typeName)
  | .string _ kind _ => pure (Alternatives.leaf kind.typeName)
  | .constant _ value => pure (Alternatives.leaf value.typeName)
  | .symbol .. | .member .. | .call .. => inquiry.reference
  | .sequence _ kind elements => do
    let children ← assembleElements inquiry.part [] elements
    return [.container kind.typeName children]
  | .dict _ entries => do
    let (keys, values) ← assembleEntries inquiry.part [] [] entries
    return [.mapping keys values]
  | .comprehension _ .list element _ _ => do
    return [.container "list" (← inquiry.part element)]
  | .comprehension _ .dict _ _ _ => pure (Alternatives.leaf "dict")
  | .comprehension _ .set _ _ _ => pure (Alternatives.leaf "set")
  | .comprehension _ .generator _ _ _ => pure (Alternatives.leaf "Generator")
  | .binary _ left operator right =>
    if operator.kind.isRelationalOrLogical then
      pure (Alternatives.leaf "bool")
    else do
      let leftTypes ← inquiry.part left
      if operator.kind = .percent ∧ leftTypes = Alternatives.leaf "str" then
        return leftTypes
      else
        let rightTypes ← inquiry.part right
        return (arithmetic? operator.kind leftTypes rightTypes).getD (resolver.unresolved e)
  | .unary _ operator operand =>
    if operator.kind = .notKw then pure (Alternatives.leaf "bool")
    else if operator.kind = .awaitKw then pure (resolver.unresolved e)
    else inquiry.part operand
  | .ternary _ body _ orelse => do
    let bodyTypes ← inquiry.part body
    let orelseTypes ← inquiry.part orelse
    return Alternatives.extend bodyTypes orelseTypes
  | .subscript _ object index => do
    let objectTypes ← inquiry.part object
    return (subscript? objectTypes index.isSlice).getD (resolver.unresolved e)
  | .lambda .. => inquiry.untyped "lambda"
  | .starred .. => inquiry.untyped "starred"
  | .slice .. => inquiry.untyped "slice"
  | .yield .. => inquiry.untyped "yield"

end Assembly

/-! ## Resolutions with a memory -/

section Memory

variable (resolver : Resolver) (trail : Trail) (scope : ScopeId)

/-- A resolution with a memory puts the types of elements together. -/
theorem elementTypes_eq (found : Alternatives) (elements : List Expr) :
    resolver.elementTypes trail scope found elements =
      assembleElements (resolver.alternatives trail scope) found elements := by
  induction elements generalizing found with
  | nil => rw [elementTypes, assembleElements]
  | cons element others ih =>
      rw [elementTypes, assembleElements]
      simp only [ih]

/-- A resolution with a memory puts the types of entries together. -/
theorem entryTypes_eq (foundKeys foundValues : Alternatives) (entries : List (Entry Expr)) :
    resolver.entryTypes trail scope foundKeys foundValues entries =
      assembleEntries (resolver.alternatives trail scope) foundKeys foundValues entries := by
  induction entries generalizing foundKeys foundValues with
  | nil => rw [entryTypes, assembleEntries]
  | cons entry others ih =>
      obtain ⟨key | key, value⟩ := entry
      all_goals
        rw [entryTypes, assembleEntries]
        simp only [ih]

/-- What a resolution with a memory finds out about an expression. -/
def inquiry (e : Expr) : Inquiry Resolve where
  part := resolver.alternatives trail scope
  reference := resolver.firstFinding trail scope e resolver.strategies
  untyped := resolver.unsupported e

/-- A resolution with a memory puts types together. -/
theorem alternatives_assembled (e : Expr) :
    resolver.alternatives trail scope e =
      resolver.assemble (resolver.inquiry trail scope e) e := by
  cases e with
  | sequence span kind elements =>
      rw [alternatives, elementTypes_eq]
      rfl
  | dict span entries =>
      rw [alternatives, entryTypes_eq]
      rfl
  | comprehension span kind element value clauses =>
      cases kind
      all_goals
        rw [alternatives]
        rfl
  | _ =>
      rw [alternatives]
      rfl

end Memory

/-! ## Relations -/

section Relations

variable {m n : Type → Type} [Monad m] [Monad n]

/-- A relation between computations of two kinds that holds of values, and that is kept when both
go on with a value. -/
structure Congruence (R : (α : Type) → m α → n α → Prop) : Prop where
  pure : ∀ {α : Type} (value : α), R α (pure value) (pure value)
  bind : ∀ {α β : Type} {first : m α} {second : n α} {others : α → m β} {further : α → n β},
    R α first second → (∀ value, R β (others value) (further value)) →
      R β (first >>= others) (second >>= further)

variable {R : (α : Type) → m α → n α → Prop} {part : Expr → m Alternatives}
  {part' : Expr → n Alternatives}

namespace Congruence

/-- The types of elements are related if those of each one are. -/
theorem elements (congruence : Congruence R) (elements : List Expr) (found : Alternatives)
    (each : ∀ e ∈ elements, R _ (part e) (part' e)) :
    R _ (assembleElements part found elements) (assembleElements part' found elements) := by
  induction elements generalizing found with
  | nil =>
      rw [assembleElements, assembleElements]
      exact congruence.pure found
  | cons element others ih =>
      obtain ⟨own, later⟩ := List.forall_mem_cons.mp each
      rw [assembleElements, assembleElements]
      split
      · exact ih found later
      · exact congruence.bind own fun types => ih _ later

/-- The types of entries are related if those of each key and each value are. -/
theorem entries (congruence : Congruence R) (entries : List (Entry Expr))
    (foundKeys foundValues : Alternatives)
    (each : ∀ entry ∈ entries, ∀ e ∈ entry.key.toList ++ [entry.value], R _ (part e) (part' e)) :
    R _ (assembleEntries part foundKeys foundValues entries)
      (assembleEntries part' foundKeys foundValues entries) := by
  induction entries generalizing foundKeys foundValues with
  | nil =>
      rw [assembleEntries, assembleEntries]
      exact congruence.pure _
  | cons entry others ih =>
      obtain ⟨own, later⟩ := List.forall_mem_cons.mp each
      obtain ⟨key | key, value⟩ := entry
      · rw [assembleEntries, assembleEntries]
        exact ih foundKeys foundValues later
      · simp only [Option.toList, List.cons_append, List.nil_append, List.forall_mem_cons] at own
        rw [assembleEntries, assembleEntries]
        exact congruence.bind own.1 fun keys => congruence.bind own.2.1 fun values => ih _ _ later

/-- **Assembly.** The types of an expression are related if those of its parts are, and what its
form needs besides is. -/
theorem assemble (congruence : Congruence R) {resolver : Resolver} {e : Expr} (first : Inquiry m)
    (second : Inquiry n) (parts : ∀ child ∈ e.children, R _ (first.part child) (second.part child))
    (reference : R _ first.reference second.reference)
    (untyped : ∀ construct, e.untyped? = some construct →
      R _ (first.untyped construct) (second.untyped construct)) :
    R _ (resolver.assemble first e) (resolver.assemble second e) := by
  cases e with
  | number | string | constant => exact congruence.pure _
  | symbol | member | call => exact reference
  | sequence span kind elements =>
      exact congruence.bind (congruence.elements elements [] parts) fun _ => congruence.pure _
  | dict span entries =>
      refine congruence.bind (congruence.entries entries [] [] fun entry member e inside => ?_)
        fun _ => congruence.pure _
      exact parts e (List.mem_flatMap.mpr ⟨entry, member, inside⟩)
  | comprehension span kind element value clauses =>
      cases kind with
      | list =>
          exact congruence.bind (parts element List.mem_cons_self) fun _ => congruence.pure _
      | set | generator | dict => exact congruence.pure _
  | binary span left operator right =>
      simp only [Expr.children, List.forall_mem_cons] at parts
      rw [Resolver.assemble, Resolver.assemble]
      split
      · exact congruence.pure _
      · refine congruence.bind parts.1 fun leftTypes => ?_
        split
        · exact congruence.pure _
        · exact congruence.bind parts.2.1 fun _ => congruence.pure _
  | unary span operator operand =>
      rw [Resolver.assemble, Resolver.assemble]
      split
      · exact congruence.pure _
      · split
        · exact congruence.pure _
        · exact parts operand (List.mem_singleton.mpr rfl)
  | ternary span body test orelse =>
      simp only [Expr.children, List.forall_mem_cons] at parts
      exact congruence.bind parts.1 fun _ => congruence.bind parts.2.2.1 fun _ =>
        congruence.pure _
  | subscript span object index =>
      simp only [Expr.children, List.forall_mem_cons] at parts
      exact congruence.bind parts.1 fun _ => congruence.pure _
  | lambda | starred | slice | yield => exact untyped _ rfl

end Congruence

end Relations

end Resolver

end DocSketch
