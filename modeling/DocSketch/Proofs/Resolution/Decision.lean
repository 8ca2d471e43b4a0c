import DocSketch.Proofs.Resolution.Simulation

/-!
# How references are decided

A name or a call is settled by the first strategy that says something about it.  These are the
steps of a resolution and of its trace from there on.

* `Resolver.Decides`: what the first strategy that says something says.
* `Resolver.Decides.alternatives_ok`, `Resolver.Decides.trace_ok`: a lead that is followed.
* `Resolver.followLead_known`, `Resolver.followLead_exits`: exits from the memory, or afresh.
-/

namespace DocSketch

/-- Whether an expression refers to something that is defined elsewhere. -/
def Expr.isReference : Expr → Bool
  | .symbol .. | .member .. | .call .. => true
  | _ => false

namespace Resolver

variable {resolver : Resolver} {trail : Trail} {scope : ScopeId} {e : Expr} {strategy : Strategy}
  {others : List Strategy} {lead : Lead} {skips : Nat}

/-- What a strategy ends with decides whether the others are tried. -/
def traceConclude (resolver : Resolver) (trail : Trail) (scope : ScopeId) (e : Expr)
    (others : List Strategy) : Except Fault (Option Finding) → Trace Alternatives
  | .ok (some finding) => pure (resolver.context.format.classify finding)
  | .ok none => resolver.traceFirst trail scope e others
  | .error fault =>
    if fault.cause.isRecursionGuard then do
      Trace.skip 1
      resolver.traceFirst trail scope e others
    else
      .fail fault

/-- Strategies that say nothing are passed over. -/
theorem firstFinding_append (passed others : List Strategy) (plain : e.literalReceiver? = none)
    (nothing : ∀ strategy ∈ passed, resolver.search trail scope e strategy = ⟨.none, 0⟩) :
    resolver.firstFinding trail scope e (passed ++ others) =
      resolver.firstFinding trail scope e others := by
  induction passed with
  | nil => rfl
  | cons strategy passed ih =>
      rw [List.cons_append, firstFinding_cons,
        attempt_of_none plain (nothing strategy List.mem_cons_self)]
      exact ih fun other member => nothing other (List.mem_cons_of_mem _ member)

/-- A strategy does no more than follow its lead, unless the receiver is a literal. -/
theorem traceStrategy_of_plain (plain : e.literalReceiver? = none)
    (found : resolver.search trail scope e strategy = ⟨lead, skips⟩) :
    resolver.traceStrategy trail scope e strategy =
      (do Trace.skip skips; resolver.traceLead trail lead) := by
  rw [traceStrategy_of_other, found]
  intro object property _ receiver
  rw [plain] at receiver
  cases receiver

/-- Strategies that find nothing can be left out. -/
theorem traceFirst_append (passed others : List Strategy) (plain : e.literalReceiver? = none)
    (nothing : ∀ strategy ∈ passed, resolver.search trail scope e strategy = ⟨.none, 0⟩) :
    resolver.traceFirst trail scope e (passed ++ others) =
      resolver.traceFirst trail scope e others := by
  induction passed with
  | nil => rfl
  | cons strategy passed ih =>
      rw [List.cons_append, traceFirst,
        traceStrategy_of_plain plain (nothing strategy List.mem_cons_self), Trace.skip_bind]
      simp only [Trace.andThen, traceLead, pure, List.nil_append, Nat.zero_add]
      exact ih fun other member => nothing other (List.mem_cons_of_mem _ member)

/-- A name or a call is settled by the first strategy that says something about it. -/
structure Decides (resolver : Resolver) (trail : Trail) (scope : ScopeId) (e : Expr)
    (lead : Lead) (skips : Nat) (others : List Strategy) : Prop where
  reference : e.isReference = true
  plain : e.literalReceiver? = none
  found : ∃ passed strategy, resolver.strategies = passed ++ strategy :: others ∧
    (∀ earlier ∈ passed, resolver.search trail scope e earlier = ⟨.none, 0⟩) ∧
    resolver.search trail scope e strategy = ⟨lead, skips⟩

namespace Decides

variable (decides : resolver.Decides trail scope e lead skips others)
include decides

/-- What is decided by a strategy is resolved by its lead. -/
theorem alternatives_eq :
    resolver.alternatives trail scope e =
      proceed (do skip skips; resolver.followLead trail lead)
        (resolver.conclude trail scope e others) := by
  obtain ⟨reference, plain, passed, strategy, order, nothing, found⟩ := decides
  have attempted : resolver.attempt trail scope e strategy =
      (do skip skips; resolver.followLead trail lead) := by
    rw [attempt_of_other, found]
    intro object property _ receiver
    rw [plain] at receiver
    cases receiver
  have tried : resolver.alternatives trail scope e =
      resolver.firstFinding trail scope e resolver.strategies := by
    cases e <;> first | exact absurd reference Bool.false_ne_true | rw [alternatives]
  rw [tried, order, firstFinding_append _ _ plain nothing, firstFinding_cons, attempted]

/-- The trace of what is decided by a strategy is that of its lead. -/
theorem trace_eq :
    resolver.trace trail scope e =
      (do Trace.skip skips; resolver.traceLead trail lead).andThen
        (resolver.traceConclude trail scope e others) := by
  obtain ⟨reference, plain, passed, strategy, order, nothing, found⟩ := decides
  have tried : resolver.trace trail scope e =
      resolver.traceFirst trail scope e resolver.strategies := by
    cases e <;> first | exact absurd reference Bool.false_ne_true | rw [trace]
  rw [tried, order, traceFirst_append _ _ plain nothing, traceFirst,
    traceStrategy_of_plain plain found]
  rfl

/-- The types that a deciding lead gives are those of the reference. -/
theorem alternatives_ok {types : Alternatives} {memory next : Memory}
    (follows : resolver.followLead trail lead ⟨memory.memo, memory.skips + skips⟩ =
      .ok (some (.types types)) next) :
    resolver.alternatives trail scope e memory = .ok types next := by
  have step : (do skip skips; resolver.followLead trail lead) memory =
      .ok (some (.types types)) next := follows
  simp only [decides.alternatives_eq, proceed, outcome, after, step]
  rfl

/-- A definition that a deciding lead refers to is looked up first. -/
theorem trace_ok {lookup : Lookup} {types : Alternatives} {lookups : List Lookup}
    {passed cuts : Nat} (refers : lead.lookup? = some lookup) (below : trail.depth < maxDepth)
    (inside : resolver.traceLookup trail lookup = ⟨.ok types, lookups, passed, cuts⟩) :
    resolver.trace trail scope e = ⟨.ok types, lookup :: lookups, skips + passed, cuts⟩ := by
  rw [decides.trace_eq, Trace.skip_bind, traceLead_of_lookup refers, traceDefinition_of_lt below,
    inside]
  simp only [Trace.andThen, Except.map, traceConclude, TypeFormat.classify, pure,
    List.append_nil, Nat.add_zero]

end Decides

/-- A value is resolved in its scope while it is marked as visited. -/
theorem followLead_value {outer : ScopeId} {value : Expr} {memory next : Memory}
    {types : Alternatives} (below : trail.depth < maxDepth)
    (inside : resolver.alternatives (trail.enter [(outer, value.span)]) outer value memory =
      .ok types next) :
    resolver.followLead trail (.value outer value) memory = .ok (some (.types types)) next := by
  rw [followLead, if_pos below]
  simp only [Bind.bind, EStateM.bind, inside]
  rfl

/-- Reading the memory changes nothing. -/
theorem reading_memory {α : Type} {use : Memory → Resolve α} (memory : Memory) :
    (get >>= use) memory = use memory memory := rfl

/-- A function whose types are remembered is not resolved again. -/
theorem followLead_known {function : ScopeId} {memory : Memory} {types : Alternatives}
    (known : memory.memo.lookup function = some types) :
    resolver.followLead trail (.exits function) memory = .ok (some (.types types)) memory := by
  rw [followLead, reading_memory]
  simp only [known]
  rfl

/-- The exits of a function are remembered if nothing was passed over. -/
theorem followLead_exits {function : ScopeId} {memory next : Memory} {types : Alternatives}
    (unknown : memory.memo.lookup function = none) (below : trail.depth < maxDepth)
    (inside : resolver.functionExits (trail.enter (resolver.source.exitKeys function)) function
      memory = .ok types next) (quiet : next.skips = memory.skips) :
    resolver.followLead trail (.exits function) memory =
      .ok (some (.types types)) ⟨(function, types) :: next.memo, next.skips⟩ := by
  have kept : resolver.followLead trail (.exits function) memory =
      .ok (some (.types types)) (if next.skips = memory.skips then
        { next with memo := (function, types) :: next.memo } else next) := by
    rw [followLead, reading_memory]
    simp only [unknown, below, ↓reduceIte, Bind.bind, EStateM.bind, inside]
    rfl
  rw [kept, if_pos quiet]

section Exits

variable {resolver : Resolver} {trail : Trail} {scope : ScopeId} {exit : Expr}
  {found types : Alternatives} {fault : Fault} {lookups later : List Lookup}
  {passed more cuts deeper : Nat} {result : Except Fault Alternatives} {memory next : Memory}
  {others : List Expr}

/-- The types of an exit are added to those found. -/
theorem exitAlternatives_ok
    (own : resolver.alternatives trail scope exit memory = .ok types next) :
    resolver.exitAlternatives trail scope found (exit :: others) memory =
      resolver.exitAlternatives trail scope (Alternatives.extend found types) others next := by
  rw [exitAlternatives]
  simp only [own]

/-- An exit that has no type is added by its text. -/
theorem exitAlternatives_error (recoverable : fault.isRecoverable = true)
    (own : resolver.alternatives trail scope exit memory = .error fault next) :
    resolver.exitAlternatives trail scope found (exit :: others) memory =
      resolver.exitAlternatives trail scope
        (Alternatives.add found (.unresolved (resolver.source.textOf exit.span))) others next := by
  rw [exitAlternatives]
  simp only [own, recoverable, ↓reduceIte]

/-- The trace of the exits goes past one that has types. -/
theorem traceExits_ok
    (own : resolver.trace trail scope exit = ⟨.ok types, lookups, passed, cuts⟩)
    (rest : resolver.traceExits trail scope (Alternatives.extend found types) others =
      ⟨result, later, more, deeper⟩) :
    resolver.traceExits trail scope found (exit :: others) =
      ⟨result, lookups ++ later, passed + more, cuts + deeper⟩ := by
  rw [traceExits, own]
  simp only [Trace.andThen, rest]

/-- The trace of the exits goes past one that has no type. -/
theorem traceExits_error (recoverable : fault.isRecoverable = true)
    (own : resolver.trace trail scope exit = ⟨.error fault, lookups, passed, cuts⟩)
    (rest : resolver.traceExits trail scope
        (Alternatives.add found (.unresolved (resolver.source.textOf exit.span))) others =
      ⟨result, later, more, deeper⟩) :
    resolver.traceExits trail scope found (exit :: others) =
      ⟨result, lookups ++ later, passed + more, cuts + deeper⟩ := by
  rw [traceExits, own]
  simp only [Trace.andThen, recoverable, ↓reduceIte, rest]

theorem traceExits_nil : resolver.traceExits trail scope found [] = ⟨.ok found, [], 0, 0⟩ := by
  rw [traceExits]
  rfl

end Exits

/-- The types of a list of two elements. -/
theorem alternatives_pair {span : Span} {first second : Expr} {memory middle next : Memory}
    {types others : Alternatives} (plain : first.isStarred = false)
    (flat : second.isStarred = false)
    (head : resolver.alternatives trail scope first memory = .ok types middle)
    (last : resolver.alternatives trail scope second middle = .ok others next) :
    resolver.alternatives trail scope (.sequence span .list [first, second]) memory =
      .ok [.container "list" (Alternatives.extend (Alternatives.extend [] types) others)] next := by
  rw [alternatives, elementTypes]
  simp only [plain, Bool.false_eq_true, ↓reduceIte, Bind.bind, EStateM.bind, head]
  rw [elementTypes]
  simp only [flat, Bool.false_eq_true, ↓reduceIte, Bind.bind, EStateM.bind, last]
  rw [elementTypes]
  rfl

/-- The trace of a list of two elements is that of one after the other. -/
theorem trace_pair {span : Span} {first second : Expr} {types others : Alternatives}
    {lookups later : List Lookup} {passed more cuts deeper : Nat}
    (plain : first.isStarred = false) (flat : second.isStarred = false)
    (head : resolver.trace trail scope first = ⟨.ok types, lookups, passed, cuts⟩)
    (last : resolver.trace trail scope second = ⟨.ok others, later, more, deeper⟩) :
    resolver.trace trail scope (.sequence span .list [first, second]) =
      ⟨.ok [.container "list" (Alternatives.extend (Alternatives.extend [] types) others)],
        lookups ++ later, passed + more, cuts + deeper⟩ := by
  rw [trace, traceElements]
  simp only [plain, Bool.false_eq_true, ↓reduceIte, Bind.bind, Trace.andThen, Trace.onward, head]
  rw [traceElements]
  simp only [flat, Bool.false_eq_true, ↓reduceIte, Bind.bind, Trace.andThen, Trace.onward, last]
  rw [traceElements]
  simp only [pure, List.append_nil, Nat.add_zero]
  rfl

end Resolver

namespace Source

/-- Assignments of values that are being resolved are passed over. -/
theorem scopeLead_append {source : Source} {trail : Trail} {scope : Scope} {name : String}
    (passed others : List Assignment) (skips : Nat)
    (visited : ∀ assignment ∈ passed, assignment.annotation = none ∧ ∃ e,
      assignment.bound? name = some (.value e) ∧ (scope.id, e.span) ∈ trail.visited) :
    source.scopeLead trail scope name skips (passed ++ others) =
      source.scopeLead trail scope name (skips + passed.length) others := by
  induction passed generalizing skips with
  | nil => rfl
  | cons assignment passed ih =>
      obtain ⟨plain, e, binds, busy⟩ := visited assignment List.mem_cons_self
      have later := ih (skips + 1) fun other member => visited other (List.mem_cons_of_mem _ member)
      rw [List.cons_append, scopeLead, plain, binds]
      simp only [List.contains_iff_mem.mpr busy, ↓reduceIte, later, List.length_cons]
      rw [Nat.add_assoc, Nat.add_comm 1]

end Source

end DocSketch
