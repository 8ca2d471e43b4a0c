import DocSketch.Proofs.Resolution.Findings

/-!
# Alternatives as one descriptor

A resolution that succeeds has found at least one type: containers and mappings may be empty inside,
but each of them is a type of its own, labels have at least one part, and only functions with exits
are asked for the types of these.  So an expression never stands for itself for want of types, and
the one descriptor into which its types collapse is written as the types are.

* `Alternatives.extend_ne_nil`: adding types leaves some.
* `Resolver.upholds_some`: the ways of putting types together leave some.
* `Alternatives.render_collapse`: types are written like the descriptor that they collapse into.
* `Source.typeOf_renders`: this for the types of every expression.
-/

namespace DocSketch

namespace Alternatives

variable {types others : Alternatives}

/-- A container that is merged into leaves some alternatives. -/
theorem mergeContainer?_ne_nil {name : String} {change : Alternatives → Alternatives}
    (merged : mergeContainer? name change types = some others) : others ≠ [] := by
  unfold mergeContainer? at merged
  split at merged
  · cases merged
  · split at merged
    · cases merged
      exact List.cons_ne_nil _ _
    · obtain ⟨rest, -, rfl⟩ := Option.map_eq_some_iff.mp merged
      exact List.cons_ne_nil _ _
  · obtain ⟨rest, -, rfl⟩ := Option.map_eq_some_iff.mp merged
    exact List.cons_ne_nil _ _

/-- A mapping that is merged into leaves some alternatives. -/
theorem mergeMapping?_ne_nil {changeKeys changeValues : Alternatives → Alternatives}
    (merged : mergeMapping? changeKeys changeValues types = some others) : others ≠ [] := by
  unfold mergeMapping? at merged
  split at merged
  · cases merged
  · cases merged
    exact List.cons_ne_nil _ _
  · obtain ⟨rest, -, rfl⟩ := Option.map_eq_some_iff.mp merged
    exact List.cons_ne_nil _ _

/-- After a type is added there is some alternative. -/
theorem add_ne_nil (types : Alternatives) (type : Descriptor) : add types type ≠ [] := by
  cases type with
  | container name children =>
      rw [add]
      split
      case isTrue member => exact List.ne_nil_of_mem member
      case isFalse =>
        cases merged : mergeContainer? name (fun kept => extend kept children) types with
        | none => exact List.append_ne_nil_of_right_ne_nil _ (List.cons_ne_nil _ _)
        | some result => exact mergeContainer?_ne_nil merged
  | mapping keys values =>
      rw [add]
      split
      case isTrue member => exact List.ne_nil_of_mem member
      case isFalse =>
        cases merged : mergeMapping? (fun kept => extend kept keys) (fun kept => extend kept values)
            types with
        | none => exact List.append_ne_nil_of_right_ne_nil _ (List.cons_ne_nil _ _)
        | some result => exact mergeMapping?_ne_nil merged
  | leaf | unresolved | foreign =>
      rw [add]
      split
      case isTrue member => exact List.ne_nil_of_mem member
      case isFalse => exact List.append_ne_nil_of_right_ne_nil _ (List.cons_ne_nil _ _)

/-- Adding types leaves some, unless there are none on either side. -/
theorem extend_ne_nil (types : Alternatives) (some : others ≠ []) : extend types others ≠ [] := by
  induction others generalizing types with
  | nil => exact absurd rfl some
  | cons type others ih =>
      rw [extend]
      cases others with
      | nil =>
          rw [extend]
          exact add_ne_nil types type
      | cons next others => exact ih (add types type) (List.cons_ne_nil next others)

end Alternatives

/-- A label is split into one part at least. -/
theorem Label.splitFrom_ne_nil (join : List Char) (depth : Nat) (part cs : List Char) :
    splitFrom join depth part cs ≠ [] := by
  fun_induction splitFrom join depth part cs with
  | case1 => exact List.cons_ne_nil _ _
  | case2 => exact List.cons_ne_nil _ _
  | case3 depth part c rest whole ih => exact ih

/-- A label stands for at least one type. -/
theorem TypeFormat.classify_label_ne_nil (format : TypeFormat) (text : String) :
    format.classify (.label text) ≠ [] := by
  rw [classify]
  split
  · apply Alternatives.extend_ne_nil
    intro empty
    exact Label.splitFrom_ne_nil _ _ _ _ (List.map_eq_nil_iff.mp (List.map_eq_nil_iff.mp empty))
  · exact List.cons_ne_nil _ _

/-- The ways of putting types together leave some, though there may be none inside of a container
or a mapping. -/
theorem Resolver.upholds_some (resolver : Resolver) :
    resolver.Upholds (· ≠ []) (fun _ => True) where
  nothing := trivial
  part _ := trivial
  extend _ some := Alternatives.extend_ne_nil _ some
  builtin _ := List.cons_ne_nil _ _
  label text := resolver.context.format.classify_label_ne_nil text
  unresolved _ := List.cons_ne_nil _ _
  container _ := List.cons_ne_nil _ _
  mapping _ _ := List.cons_ne_nil _ _
  element _ single := List.ne_nil_of_length_eq_add_one single
  value _ single := List.ne_nil_of_length_eq_add_one single

namespace Alternatives

variable {types : Alternatives}

/-- Where there are types, an expression does not stand for itself. -/
theorem collapse_eq (format : TypeFormat) (some : types ≠ []) (text other : String) :
    collapse format text types = collapse format other types := by
  cases types with
  | nil => exact absurd rfl some
  | cons first others => cases others <;> rfl

/-- Types are written like the descriptor that they collapse into. -/
theorem render_collapse (format : TypeFormat) (some : types ≠ []) (text : String) :
    (collapse format text types).render format = render format types := by
  cases types with
  | nil => exact absurd rfl some
  | cons first others => cases others <;> rfl

end Alternatives

namespace Source

/-- **The type of an expression is written as its types are.**  A resolution that succeeds has
found types, whatever requests came before and whatever lookups are in progress.  So the text of
an expression with types never stands for it, and the descriptor into which its types collapse is
written as these types are. -/
theorem typeOf_renders (source : Source) (context : ResolutionContext) (scope : ScopeId) :
    (∀ memory, (source.resolver context).Reachable memory →
      ∀ (trail : Trail) (e : Expr) (types : Alternatives),
        Resolver.outcome ((source.resolver context).alternatives trail scope e) memory =
          .ok types → types ≠ []) ∧
    ∀ e : Expr,
      (∀ fault, source.alternatives context scope e = .error fault →
        source.typeOf context scope e = .error fault) ∧
      ∀ types, source.alternatives context scope e = .ok types →
        types ≠ [] ∧ ∃ type, source.typeOf context scope e = .ok type ∧
          (∀ text, Alternatives.collapse context.format text types = type) ∧
          type.render context.format = Alternatives.render context.format types := by
  have upholds := (source.resolver context).upholds_some
  have found : ∀ memory, (source.resolver context).Reachable memory →
      ∀ (trail : Trail) (e : Expr) (types : Alternatives),
        Resolver.outcome ((source.resolver context).alternatives trail scope e) memory =
          .ok types → types ≠ [] := by
    intro memory reached trail e types resolved
    have kept := upholds.remembers reached
    exact (upholds.alternatives trail scope e memory kept).good types resolved
  refine ⟨found, fun e => ⟨fun fault failed => ?_, fun types resolved => ?_⟩⟩
  · rw [typeOf, failed]
    rfl
  · have some : types ≠ [] := found Memory.empty .empty Trail.start e types resolved
    refine ⟨some, Alternatives.collapse context.format (source.textOf e.span) types, ?_,
      fun text => Alternatives.collapse_eq _ some _ _, Alternatives.render_collapse _ some _⟩
    rw [typeOf, resolved]
    rfl

/-- The expression `1 if x else 'a'`. -/
def choice : Expr :=
  .ternary ⟨0, 15⟩ (.number ⟨0, 1⟩ .int "1") (.symbol ⟨5, 6⟩ "x") (.string ⟨12, 15⟩ .str "a")

/-- The expression `1 if x else 'a'` is an integer or a string. -/
theorem choice_alternatives (source : Source) (context : ResolutionContext) (scope : ScopeId) :
    source.alternatives context scope choice = .ok [.leaf "int", .leaf "str"] := by
  have number (memory : Memory) : (source.resolver context).alternatives Trail.start scope
      (.number ⟨0, 1⟩ .int "1") memory = .ok [.leaf "int"] memory := by
    rw [Resolver.alternatives]
    rfl
  have string (memory : Memory) : (source.resolver context).alternatives Trail.start scope
      (.string ⟨12, 15⟩ .str "a") memory = .ok [.leaf "str"] memory := by
    rw [Resolver.alternatives]
    rfl
  rw [alternatives, choice, Resolver.alternatives]
  simp only [Resolver.run, bind, pure, EStateM.bind, EStateM.pure, number, string]
  rfl

/-- The source `1 if x else 'a'`. -/
def choiceSource : Source :=
  .ofProgram "1 if x else 'a'" "m.py" ⟨[.expression ⟨0, 15⟩ choice], ⟨0, 15⟩⟩

/-- The two types of `1 if x else 'a'` collapse into one that renders as `int or str`. -/
theorem typeOf_renders_choice :
    choiceSource.alternatives {} 0 choice = .ok [.leaf "int", .leaf "str"] ∧
      ∃ type, choiceSource.typeOf {} 0 choice = .ok type ∧ type.render {} = "int or str" := by
  have resolved := choiceSource.choice_alternatives {} 0
  obtain ⟨-, type, typed, -, written⟩ := ((typeOf_renders choiceSource {} 0).2 choice).2 _ resolved
  exact ⟨resolved, type, typed, written.trans (by rfl)⟩

end Source

end DocSketch
