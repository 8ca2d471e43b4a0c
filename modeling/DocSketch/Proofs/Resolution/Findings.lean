import DocSketch.Proofs.Resolution.Memory

/-!
# What resolutions find

The types of an expression are put together from built-in names, from labels, from texts that
stand for themselves, and from the types of other expressions, which travel through containers and
through what is remembered.  What all of these ways of putting types together keep, holds of all
types that resolutions find.

* `Lead.Grounded`: what a lead knows at once is built in, and the functions it points to have exits.
* `Resolver.search_grounded`: so is every lead of a strategy.
* `Resolver.Finds`: a request that keeps what is remembered good, and finds only what is good.
* `Resolver.Upholds`: what the ways of putting types together keep.
* `Resolver.Upholds.alternatives`: resolutions keep it.
* `Resolver.Upholds.remembers`: whatever requests came before, so does what is remembered.
-/

namespace DocSketch

open Alternatives

variable {types others : Alternatives}

/-- A type with a numeric rank has a built-in name. -/
theorem isBuiltinName_of_numericRank? {name : String} {rank : Nat}
    (ranked : numericRank? name = some rank) : isBuiltinName name = true := by
  have listed : name ∈ ["bool", "int", "float", "complex"] :=
    List.isSome_idxOf?.mp (Option.isSome_iff_exists.mpr ⟨rank, ranked⟩)
  simp only [List.mem_cons, List.not_mem_nil, or_false] at listed
  rcases listed with rfl | rfl | rfl | rfl <;> decide

/-- The wider of two numeric types is a numeric type. -/
theorem isBuiltinName_of_widen? {name : String} (widened : widen? types others = some name) :
    isBuiltinName name = true := by
  unfold widen? at widened
  split at widened
  case h_1 left right =>
    split at widened
    case h_1 low high lower higher =>
      cases widened
      split
      · exact isBuiltinName_of_numericRank? lower
      · exact isBuiltinName_of_numericRank? higher
    case h_2 => cases widened
  case h_2 => cases widened

/-- An arithmetic operation gives a built-in type, or the types of its first operand. -/
theorem arithmetic?_cases {operator : TokenKind} {result : Alternatives}
    (found : arithmetic? operator types others = some result) :
    (∃ name, result = Alternatives.leaf name ∧ isBuiltinName name = true) ∨ result = types := by
  unfold arithmetic? at found
  split at found
  case h_1 name widened =>
    split at found
    · cases found
      exact .inl ⟨"float", rfl, by decide⟩
    · cases found
      exact .inl ⟨name, rfl, isBuiltinName_of_widen? widened⟩
  case h_2 =>
    split at found
    · cases found
      exact .inr rfl
    · cases found

/-- A subscript gives the types of the object itself, or the single type of its elements or of its
values. -/
theorem subscript?_cases {isSlice : Bool} {result : Alternatives}
    (found : subscript? types isSlice = some result) :
    result = types ∨ result.length = 1 ∧
      ((∃ name, types = [.container name result]) ∨ ∃ keys, types = [.mapping keys result]) := by
  unfold subscript? at found
  split at found
  case h_1 name children =>
    split at found
    · cases found
      exact .inl rfl
    · split at found
      case isTrue single =>
        cases found
        exact .inr ⟨single, .inl ⟨name, rfl⟩⟩
      case isFalse => cases found
  case h_2 keys values =>
    split at found
    case isTrue single =>
      cases found
      exact .inr ⟨single.1, .inr ⟨keys, rfl⟩⟩
    case isFalse => cases found
  case h_3 name =>
    split at found
    · cases found
      exact .inl rfl
    · cases found
  case h_4 => cases found

/-- The types that a lead knows at once are a single built-in name, and a function to whose exits
it points has some. -/
def Lead.Grounded (source : Source) : Lead → Prop
  | .types types => ∃ name, types = Alternatives.leaf name ∧ isBuiltinName name = true
  | .exits function => (source.scopes.get function).exits ≠ []
  | .none | .label _ | .value .. => True

/-- What every program knows gives types that every program knows. -/
theorem isBuiltinName_of_builtinFunctions {name result : String}
    (known : builtinFunctions.lookup name = some result) : isBuiltinName result = true := by
  have all : builtinFunctions.all (fun entry => isBuiltinName entry.2) = true := by
    decide +kernel
  obtain ⟨front, back, split, -⟩ := List.lookup_eq_some_iff.mp known
  exact List.all_eq_true.mp all (name, result)
    (split ▸ List.mem_append_right front List.mem_cons_self)

/-- The lead of a built-in constructor is grounded. -/
theorem builtinLead_grounded (source : Source) (e : Expr) : (builtinLead e).Grounded source := by
  unfold builtinLead
  split
  case h_1 span callee name arguments keywords =>
    split
    case h_1 result known => exact ⟨result, rfl, isBuiltinName_of_builtinFunctions known⟩
    case h_2 =>
      split
      case isTrue listed => exact ⟨name, rfl, by rw [isBuiltinName, listed, Bool.or_true]⟩
      case isFalse => trivial
  case h_2 => trivial

namespace Source

variable {source : Source} {trail : Trail}

/-- A function without exits returns nothing. -/
theorem localLead_grounded (context : ResolutionContext) (scope : ScopeId) (e : Expr) :
    (source.localLead context trail scope e).lead.Grounded source := by
  unfold localLead
  split
  case h_2 => trivial
  case h_1 =>
    split
    case isFalse => trivial
    case isTrue =>
      split
      case h_1 => trivial
      case h_2 function _ =>
        dsimp only
        split
        case h_1 => trivial
        case h_2 =>
          split
          case isTrue => exact ⟨"None", rfl, by decide⟩
          case isFalse some =>
            split
            · trivial
            · exact fun empty => some (List.isEmpty_iff.mpr empty)

/-- The lead of a parameter is grounded. -/
theorem parameterLead_grounded (scope : Scope) (parameter : Parameter Expr) (skips : Nat) :
    (source.parameterLead trail scope parameter skips).lead.Grounded source := by
  unfold parameterLead
  dsimp only
  split
  case h_1 => trivial
  case' h_2 =>
    split
    case isFalse => trivial
  -- What is left is what the stars of the parameter say.
  all_goals
    split
    · exact ⟨"tuple", rfl, by decide⟩
    · exact ⟨"dict", rfl, by decide⟩
    · trivial
    · trivial

/-- The lead of a name in a scope is grounded. -/
theorem scopeLead_grounded (scope : Scope) (name : String) (assignments : List Assignment)
    (skips : Nat) :
    (source.scopeLead trail scope name skips assignments).lead.Grounded source := by
  induction assignments generalizing skips with
  | nil =>
      rw [scopeLead]
      split
      · exact parameterLead_grounded scope _ skips
      · trivial
  | cons assignment others ih =>
      rw [scopeLead]
      split
      · exact ih skips
      · trivial
      · trivial
      · split
        · exact ih (skips + 1)
        · trivial

/-- The lead of a name in a chain of scopes is grounded. -/
theorem chainLead_grounded (name : String) (chain : List ScopeId) (skips : Nat) :
    (source.chainLead trail name skips chain).lead.Grounded source := by
  induction chain generalizing skips with
  | nil =>
      rw [chainLead]
      trivial
  | cons id others ih =>
      simp only [chainLead]
      split
      · exact ih _
      · exact scopeLead_grounded _ name _ skips

end Source

namespace Resolver

variable {resolver : Resolver} {α β : Type} {Good : α → Prop} {Fine : β → Prop}
  {Whole Part : Alternatives → Prop}

/-- What a strategy knows at once is grounded. -/
theorem search_grounded {trail : Trail} {scope : ScopeId} {e : Expr} {strategy : Strategy}
    {lead : Lead} (found : (resolver.search trail scope e strategy).lead = lead) :
    lead.Grounded resolver.source := by
  rw [← found]
  cases strategy with
  | builtin => exact builtinLead_grounded resolver.source e
  | override =>
      simp only [search, overrideLead]
      split <;> trivial
  | localDefinition => exact Source.localLead_grounded resolver.context scope e
  | importPath =>
      simp only [search, Source.importLead]
      split <;> trivial
  | attributePath =>
      simp only [search, attributeLead]
      repeat' split
      all_goals trivial
  | assignment =>
      simp only [search, Source.assignmentLead]
      split
      · exact Source.chainLead_grounded _ _ 0
      · trivial

/-- A memory holds only good types. -/
def Remembers (Whole : Alternatives → Prop) (memory : Memory) : Prop :=
  ∀ function types, (function, types) ∈ memory.memo → Whole types

/-- From `memory` on, a request keeps what is remembered good, and so is what it finds. -/
structure Found (Whole : Alternatives → Prop) (Good : α → Prop) (request : Resolve α)
    (memory : Memory) : Prop where
  kept : Remembers Whole (after request memory)
  good : ∀ value, outcome request memory = .ok value → Good value

/-- A request keeps a memory of good types, and what it finds is good. -/
def Finds (Whole : Alternatives → Prop) (Good : α → Prop) (request : Resolve α) : Prop :=
  ∀ memory, Remembers Whole memory → Found Whole Good request memory

variable {request : Resolve α} {whole rest : Resolve β} {memory middle : Memory}

/-- What is found is good, and so is what is remembered then. -/
theorem Found.of_ok {value : α} (found : Found Whole Good request memory)
    (step : request memory = .ok value middle) : Remembers Whole middle ∧ Good value := by
  obtain ⟨kept, good⟩ := found
  simp only [after, outcome, step] at kept good
  exact ⟨kept, good value rfl⟩

/-- What is remembered at a fault is good. -/
theorem Found.of_error {fault : Fault} (found : Found Whole Good request memory)
    (step : request memory = .error fault middle) : Remembers Whole middle := by
  have kept := found.kept
  simp only [after, step] at kept
  exact kept

/-- A request that goes on as another one. -/
theorem Found.goesOn (continues : whole memory = rest middle)
    (found : Found Whole Fine rest middle) : Found Whole Fine whole memory := by
  obtain ⟨kept, good⟩ := found
  constructor
  · simpa only [after, continues] using kept
  · simpa only [outcome, continues] using good

/-- A request that stops with a fault finds nothing that is not good. -/
theorem Found.fails (fault : Fault) (stops : whole memory = .error fault middle)
    (kept : Remembers Whole middle) : Found Whole Fine whole memory := by
  constructor
  · simpa only [after, stops] using kept
  · intro value found
    simp only [outcome, stops, reduceCtorEq] at found

namespace Finds

theorem pure {value : α} (good : Good value) : Finds Whole Good (pure value) := by
  refine fun memory kept => ⟨kept, fun result found => ?_⟩
  cases found
  exact good

theorem throw (fault : Fault) : Finds Whole Good (throw fault : Resolve α) :=
  fun _ kept => .fails fault rfl kept

theorem skip (count : Nat) : Finds Whole (fun _ => True) (Resolver.skip count) :=
  fun _ kept => ⟨kept, fun _ _ => trivial⟩

/-- Two requests in turn find what is good if each of them does. -/
theorem bind {others : α → Resolve β} (head : Finds Whole Good request)
    (tail : ∀ value, Good value → Finds Whole Fine (others value)) :
    Finds Whole Fine (request >>= others) := by
  intro memory kept
  cases step : request memory with
  | ok value middle =>
      obtain ⟨still, good⟩ := (head memory kept).of_ok step
      refine .goesOn ?_ (tail value good middle still)
      simp only [Bind.bind, EStateM.bind, step]
  | error fault middle =>
      refine .fails fault ?_ ((head memory kept).of_error step)
      simp only [Bind.bind, EStateM.bind, step]

/-- A request that looks into the memory first. -/
theorem reading {others : Memory → Resolve β}
    (each : ∀ memory, Remembers Whole memory → Found Whole Fine (others memory) memory) :
    Finds Whole Fine (get >>= others) :=
  fun memory kept =>
    have continues : (get >>= others) memory = others memory memory := rfl
    .goesOn continues (each memory kept)

/-- What is found of a function may be remembered. -/
theorem remember (function : ScopeId) (skips : Nat) (whole : Whole types) :
    Finds Whole (fun _ => True) (Resolver.remember function skips types) := by
  refine fun memory kept => ⟨fun other found member => ?_, fun _ _ => trivial⟩
  change (other, found) ∈ (if memory.skips = skips then
    { memory with memo := (function, types) :: memory.memo } else memory).memo at member
  split at member
  · rcases List.mem_cons.mp member with new | old
    · cases new
      exact whole
    · exact kept other found old
  · exact kept other found member

end Finds

/-- What the ways of putting types together keep: `Whole` of the types of an expression, and `Part`
of the types of several expressions as far as they have been found. -/
structure Upholds (resolver : Resolver) (Whole Part : Alternatives → Prop) : Prop where
  nothing : Part []
  part {types : Alternatives} : Whole types → Part types
  extend {found types : Alternatives} :
    Part found → Whole types → Whole (Alternatives.extend found types)
  builtin {name : String} : isBuiltinName name = true → Whole (Alternatives.leaf name)
  label (text : String) : Whole (resolver.context.format.classify (.label text))
  unresolved (text : String) : Whole [.unresolved text]
  container {name : String} {types : Alternatives} : Part types → Whole [.container name types]
  mapping {keys values : Alternatives} :
    Part keys → Part values → Whole [.mapping keys values]
  element {name : String} {types : Alternatives} :
    Whole [.container name types] → types.length = 1 → Whole types
  value {keys types : Alternatives} :
    Whole [.mapping keys types] → types.length = 1 → Whole types

namespace Upholds

section Steps

variable {trail : Trail} {scope : ScopeId} {found : Alternatives}

/-- An expression that has no type stands for itself. -/
theorem own (upholds : resolver.Upholds Whole Part) (part : Part found) (text : String) :
    Whole (Alternatives.add found (.unresolved text)) := by
  have added := upholds.extend part (upholds.unresolved text)
  rwa [Alternatives.extend, Alternatives.extend] at added

/-- The result of an operation on good types is good. -/
theorem arithmetic (upholds : resolver.Upholds Whole Part) {operator : TokenKind}
    {result : Alternatives} (whole : Whole types)
    (found : arithmetic? operator types others = some result) : Whole result := by
  obtain ⟨name, rfl, builtin⟩ | rfl := arithmetic?_cases found
  · exact upholds.builtin builtin
  · exact whole

/-- What good types give under a subscript is good. -/
theorem subscript (upholds : resolver.Upholds Whole Part) {isSlice : Bool}
    {result : Alternatives} (whole : Whole types)
    (found : subscript? types isSlice = some result) : Whole result := by
  obtain rfl | ⟨single, ⟨name, rfl⟩ | ⟨keys, rfl⟩⟩ := subscript?_cases found
  · exact whole
  · exact upholds.element whole single
  · exact upholds.value whole single

/-- The types of the elements of a display are good. -/
theorem elementTypes (upholds : resolver.Upholds Whole Part) (elements : List Expr)
    (part : Part found)
    (each : ∀ e ∈ elements, Finds Whole Whole (resolver.alternatives trail scope e)) :
    Finds Whole Part (resolver.elementTypes trail scope found elements) := by
  induction elements generalizing found with
  | nil =>
      rw [Resolver.elementTypes]
      exact .pure part
  | cons element others ih =>
      obtain ⟨first, later⟩ := List.forall_mem_cons.mp each
      rw [Resolver.elementTypes]
      split
      · exact ih part later
      · exact first.bind fun types whole => ih (upholds.part (upholds.extend part whole)) later

/-- The types of the keys and the values of a mapping are good. -/
theorem entryTypes (upholds : resolver.Upholds Whole Part) (entries : List (Entry Expr))
    {keys values : Alternatives} (left : Part keys) (right : Part values)
    (each : ∀ entry ∈ entries, ∀ e ∈ entry.key.toList ++ [entry.value],
      Finds Whole Whole (resolver.alternatives trail scope e)) :
    Finds Whole (fun found => Part found.1 ∧ Part found.2)
      (resolver.entryTypes trail scope keys values entries) := by
  induction entries generalizing keys values with
  | nil =>
      rw [Resolver.entryTypes]
      exact .pure ⟨left, right⟩
  | cons entry others ih =>
      obtain ⟨own, later⟩ := List.forall_mem_cons.mp each
      obtain ⟨key, value⟩ := entry
      cases key with
      | none =>
          rw [Resolver.entryTypes]
          exact ih left right later
      | some key =>
          simp only [Option.toList, List.cons_append, List.nil_append, List.forall_mem_cons] at own
          rw [Resolver.entryTypes]
          refine own.1.bind fun keyTypes known => own.2.1.bind fun valueTypes given => ?_
          exact ih (upholds.part (upholds.extend left known))
            (upholds.part (upholds.extend right given)) later

/-- The types of an exit, or the exit itself, are added to those found. -/
theorem exit (upholds : resolver.Upholds Whole Part) {exit : Expr} {others : List Expr}
    (part : Part found) (first : Finds Whole Whole (resolver.alternatives trail scope exit))
    (later : ∀ {more : Alternatives}, Whole more →
      Finds Whole Whole (resolver.exitAlternatives trail scope more others)) :
    Finds Whole Whole (resolver.exitAlternatives trail scope found (exit :: others)) := by
  intro memory kept
  rw [exitAlternatives]
  cases step : resolver.alternatives trail scope exit memory with
  | ok types middle =>
      obtain ⟨still, whole⟩ := (first memory kept).of_ok step
      refine .goesOn ?_ (later (upholds.extend part whole) middle still)
      simp only [step]
  | error fault middle =>
      have still := (first memory kept).of_error step
      by_cases recoverable : fault.isRecoverable
      · refine .goesOn ?_
          (later (upholds.own part (resolver.source.textOf exit.span)) middle still)
        simp only [step, recoverable, ↓reduceIte]
      · refine .fails fault ?_ still
        simp only [step, recoverable, ↓reduceIte, Bool.false_eq_true]

/-- The types of further exits are good. -/
theorem moreExits (upholds : resolver.Upholds Whole Part) (exits : List Expr) (whole : Whole found)
    (each : ∀ e ∈ exits, Finds Whole Whole (resolver.alternatives trail scope e)) :
    Finds Whole Whole (resolver.exitAlternatives trail scope found exits) := by
  induction exits generalizing found with
  | nil =>
      rw [exitAlternatives]
      exact .pure whole
  | cons exit others ih =>
      obtain ⟨first, later⟩ := List.forall_mem_cons.mp each
      exact upholds.exit (upholds.part whole) first fun more => ih more later

/-- The exits of a function that has some. -/
theorem exitAlternatives (upholds : resolver.Upholds Whole Part) {exits : List Expr}
    (some : exits ≠ [])
    (each : ∀ e ∈ exits, Finds Whole Whole (resolver.alternatives trail scope e)) :
    Finds Whole Whole (resolver.exitAlternatives trail scope [] exits) := by
  cases exits with
  | nil => exact absurd rfl some
  | cons exit others =>
      obtain ⟨first, later⟩ := List.forall_mem_cons.mp each
      exact upholds.exit upholds.nothing first fun more => upholds.moreExits others more later

/-- What a strategy finds is a label, or good types. -/
def Classified (Whole : Alternatives → Prop) (finding : Option Finding) : Prop :=
  ∀ types, finding = some (.types types) → Whole types

/-- A label needs not be good. -/
theorem classified_label {text : Option String} : Classified Whole (text.map Finding.label) := by
  intro types found
  obtain ⟨label, -, other⟩ := Option.map_eq_some_iff.mp found
  cases other

/-- Finding nothing needs not be good. -/
theorem classified_none : Classified Whole none := fun _ found => by cases found

/-- Good types may be found by a strategy. -/
theorem classified_types (whole : Whole types) : Classified Whole (some (.types types)) := by
  intro others found
  cases found
  exact whole

variable {e : Expr}

/-- The first finding of several strategies is good. -/
theorem firstFinding (upholds : resolver.Upholds Whole Part) (strategies : List Strategy)
    (each : ∀ strategy, Finds Whole (Classified Whole) (resolver.attempt trail scope e strategy)) :
    Finds Whole Whole (resolver.firstFinding trail scope e strategies) := by
  induction strategies with
  | nil =>
      rw [Resolver.firstFinding]
      exact .pure (upholds.unresolved _)
  | cons strategy others ih =>
      intro memory kept
      rw [Resolver.firstFinding]
      have tried := each strategy memory kept
      cases step : resolver.attempt trail scope e strategy memory with
      | ok finding middle =>
          obtain ⟨still, classified⟩ := tried.of_ok step
          cases finding with
          | none =>
              refine .goesOn ?_ (ih middle still)
              simp only [step]
          | some finding =>
              have whole : Whole (resolver.context.format.classify finding) := by
                cases finding with
                | types types => exact classified types rfl
                | label text => exact upholds.label text
              refine .goesOn ?_ (Finds.pure whole middle still)
              simp only [step]
              rfl
      | error fault middle =>
          have still := tried.of_error step
          by_cases deep : Deep fault
          · refine .goesOn ?_ (ih ⟨middle.memo, middle.skips + 1⟩ still)
            simp only [step, deep, ↓reduceIte]
          · refine .fails fault ?_ still
            simp only [step, deep, ↓reduceIte]

/-- A strategy turns to expressions that are resolved to good types, or it knows a built-in name
or a label. -/
theorem attempt (upholds : resolver.Upholds Whole Part) (strategy : Strategy)
    (asked : ∀ next : Request, resolver.Asks ⟨trail, scope, e⟩ next →
      Finds Whole Whole (resolver.alternatives next.trail next.scope next.expr)) :
    Finds Whole (Classified Whole) (resolver.attempt trail scope e strategy) := by
  rw [attempt.eq_def]
  split
  case h_1 object property found =>
    split
    · exact .pure classified_none
    · exact (asked _ (.receiver found)).bind fun types _ => .pure classified_label
  case h_2 =>
    refine (Finds.skip _).bind fun _ _ => ?_
    split
    · exact .pure classified_none
    · exact .pure fun _ found => by cases found
    case h_3 known found =>
      obtain ⟨name, rfl, builtin⟩ := search_grounded found
      exact .pure (classified_types (upholds.builtin builtin))
    case h_4 outer value found =>
      split
      case isTrue below =>
        exact (asked _ (.value found below)).bind fun types whole =>
          .pure (classified_types whole)
      case isFalse => exact .throw _
    case h_5 function found =>
      refine .reading fun memory kept => ?_
      split
      case h_1 known remembered =>
        obtain ⟨front, back, split, -⟩ := List.lookup_eq_some_iff.mp remembered
        have whole := kept function known (split ▸ List.mem_append_right front List.mem_cons_self)
        exact Finds.pure (classified_types whole) memory kept
      case h_2 =>
        split
        case isTrue below =>
          have exits := upholds.exitAlternatives (search_grounded found)
            fun exit member => asked _ (.exit found below member)
          refine exits.bind (fun types whole => ?_) memory kept
          exact (Finds.remember function memory.skips whole).bind fun _ _ =>
            .pure (classified_types whole)
        case isFalse => exact Finds.throw _ memory kept

end Steps

/-- **Resolutions find good types**, as long as what they remember is. -/
theorem alternatives (upholds : resolver.Upholds Whole Part) (trail : Trail) (scope : ScopeId)
    (e : Expr) : Finds Whole Whole (resolver.alternatives trail scope e) := by
  induction trail, scope, e using resolver.request_induction with
  | step trail scope e ih =>
      have parts : ∀ child ∈ e.children,
          Finds Whole Whole (resolver.alternatives trail scope child) :=
        fun child member => ih _ (.part member)
      have reference : Finds Whole Whole
          (resolver.firstFinding trail scope e resolver.strategies) :=
        upholds.firstFinding _ fun strategy => upholds.attempt strategy ih
      have itself : ∀ e, Whole (resolver.unresolved e) := fun e => upholds.unresolved _
      cases e with
      | number span kind text =>
          rw [Resolver.alternatives]
          exact .pure (upholds.builtin (by cases kind <;> decide))
      | string span kind text =>
          rw [Resolver.alternatives]
          exact .pure (upholds.builtin (by cases kind <;> decide))
      | constant span value =>
          rw [Resolver.alternatives]
          exact .pure (upholds.builtin (by cases value <;> decide))
      | symbol | member | call =>
          rw [Resolver.alternatives]
          exact reference
      | sequence span kind elements =>
          rw [Resolver.alternatives]
          exact (upholds.elementTypes elements upholds.nothing parts).bind fun _ part =>
            .pure (upholds.container part)
      | dict span entries =>
          rw [Resolver.alternatives]
          refine (upholds.entryTypes entries upholds.nothing upholds.nothing
            fun entry member e inside => ?_).bind fun _ part => ?_
          · exact parts e (List.mem_flatMap.mpr ⟨entry, member, inside⟩)
          · exact .pure (upholds.mapping part.1 part.2)
      | comprehension span kind element value clauses =>
          cases kind with
          | list =>
              rw [Resolver.alternatives]
              exact (parts element List.mem_cons_self).bind fun _ whole =>
                .pure (upholds.container (upholds.part whole))
          | set | generator | dict =>
              rw [Resolver.alternatives]
              exact .pure (upholds.builtin (by decide))
      | binary span left operator right =>
          simp only [Expr.children, List.forall_mem_cons] at parts
          rw [Resolver.alternatives]
          split
          · exact .pure (upholds.builtin (by decide))
          · refine parts.1.bind fun leftTypes whole => ?_
            split
            · exact .pure whole
            · refine parts.2.1.bind fun rightTypes _ => .pure ?_
              cases found : arithmetic? operator.kind leftTypes rightTypes with
              | none => exact itself _
              | some result => exact upholds.arithmetic whole found
      | unary span operator operand =>
          rw [Resolver.alternatives]
          split
          · exact .pure (upholds.builtin (by decide))
          · split
            · exact .pure (itself _)
            · exact parts operand (List.mem_singleton.mpr rfl)
      | ternary span body test orelse =>
          simp only [Expr.children, List.forall_mem_cons] at parts
          rw [Resolver.alternatives]
          exact parts.1.bind fun _ whole => parts.2.2.1.bind fun _ other =>
            .pure (upholds.extend (upholds.part whole) other)
      | subscript span object index =>
          simp only [Expr.children, List.forall_mem_cons] at parts
          rw [Resolver.alternatives]
          refine parts.1.bind fun objectTypes whole => .pure ?_
          cases found : subscript? objectTypes index.isSlice with
          | none => exact itself _
          | some result => exact upholds.subscript whole found
      | lambda | starred | slice | yield =>
          rw [Resolver.alternatives]
          exact .throw _

/-- The types of several expressions are good. -/
theorem alternativesOfAll (upholds : resolver.Upholds Whole Part) (trail : Trail)
    (scope : ScopeId) (exprs : List Expr) {found : Alternatives} (part : Part found) :
    Finds Whole Part (resolver.alternativesOfAll trail scope found exprs) := by
  induction exprs generalizing found with
  | nil => exact .pure part
  | cons e others ih =>
      exact (upholds.alternatives trail scope e).bind fun types whole =>
        ih (upholds.part (upholds.extend part whole))

/-- Whatever requests came before, what is remembered is good. -/
theorem remembers (upholds : resolver.Upholds Whole Part) (reached : resolver.Reachable memory) :
    Remembers Whole memory := by
  induction reached with
  | empty => exact fun _ _ member => absurd member List.not_mem_nil
  | resolve reached trail scope e ih => exact (upholds.alternatives trail scope e _ ih).kept
  | attempt reached trail scope e strategy ih =>
      exact (upholds.attempt strategy (fun _ _ => upholds.alternatives _ _ _) _ ih).kept
  | skip reached count ih => exact ih

end Upholds

end Resolver

end DocSketch
