import DocSketch.Proofs.Resolution.Decision

/-!
# Transparency of the memory

Requests end as they do without a memory, unless lookups are nested too deeply there or
different definitions that are looked up have a visit key in common.  Both make a difference: a
function that was called before is known even where its exits would be nested too deeply, and
a value that has the key of an exit is passed over while that exit is being resolved.

* `Source.echoes`: a function that is called by name and through a chain of assignments.
* `Source.relay`: a function whose exits share a key with a value.
* `Source.requests_transparent`: requests end as they do without a memory.
* `Source.requests_show_memory`: neither condition can be left out.
-/

namespace DocSketch

namespace Source

/-- A call without arguments at the given place. -/
def callAt (name : String) (start : Nat) : Expr :=
  .call ⟨start, start + 3⟩ (.symbol ⟨start, start + 1⟩ name) [] []

/-- The value of an assignment to `x`: of `x = f()`, which is the first one, or of `x = x`. -/
def echo : Nat → Expr
  | 0 => callAt "f" 22
  | number + 1 => .symbol ⟨30 + 6 * number, 31 + 6 * number⟩ "x"

def echoed (number : Nat) : Assignment :=
  let start := (echo number).span.start
  ⟨[.symbol ⟨start - 4, start - 3⟩ "x"], some (echo number), none⟩

def echoing (number : Nat) : Stmt :=
  .assign ⟨(echo number).span.start - 4, (echo number).span.stop⟩ (echoed number).targets
    (echoed number).value none

/-- The list `[f(), x]` after the given number of assignments `x = x`. -/
def echoList (count : Nat) : Expr :=
  .sequence ⟨26 + 6 * count, 34 + 6 * count⟩ .list
    [callAt "f" (27 + 6 * count), .symbol ⟨32 + 6 * count, 33 + 6 * count⟩ "x"]

/-- The text of a function `f` that returns 1, of the assignment `x = f()`, and of assignments
`x = x`, followed by `[f(), x]`. -/
def echoes (count : Nat) : Source :=
  Source.ofProgram
    ("def f(): return 1\nx = f()\n" ++ String.join (List.replicate count "x = x\n") ++ "[f(), x]\n")
    "m.py"
    ⟨.function ⟨0, 17⟩ "f" ⟨[], none⟩ [.ret ⟨9, 17⟩ (some (.number ⟨16, 17⟩ .int "1"))] [] false ::
      ((List.range (count + 1)).map echoing ++
        [.expression (echoList count).span (echoList count)]), ⟨0, 35 + 6 * count⟩⟩

/-- The module of `echoes`. -/
def echoModule (count : Nat) : Scope :=
  { Scope.empty 0 .module "" none ⟨0, 35 + 6 * count⟩ none with
    children := [1],
    assignments := (List.range (count + 1)).map echoed }

/-- The function of `echoes`. -/
def echoFunction : Scope :=
  { Scope.empty 1 .function "f" (some 0) ⟨0, 17⟩ (some ⟨[], none⟩) with
    returns := [.number ⟨16, 17⟩ .int "1"] }

/-- A module with further assignments to `x`. -/
def withEchoes (scope : Scope) (numbers : List Nat) : Scope :=
  { scope with assignments := scope.assignments ++ numbers.map echoed }

/-- The walk past the assignments gathers them in the module. -/
theorem addStmts_echoing (outer inner : Scope) (imports : List ImportBinding)
    (numbers : List Nat) (others : List Stmt) :
    Collection.addStmts ⟨[outer, inner], imports⟩ 0 [] (numbers.map echoing ++ others) =
      Collection.addStmts ⟨[withEchoes outer numbers, inner], imports⟩ 0 [] others := by
  induction numbers generalizing outer with
  | nil => simp [withEchoes]
  | cons number numbers ih =>
      have silent : (echo number).yields = [] := by
        cases number <;> simp [echo, callAt, Expr.yields, Expr.children]
      have step : Collection.addStmt ⟨[outer, inner], imports⟩ 0 [] (echoing number) =
          ⟨[withEchoes outer [number], inner], imports⟩ := by
        simp [echoing, Collection.addStmt, Collection.addYields, Collection.addAssignment,
          Collection.modify, echoed, silent, withEchoes]
      rw [List.map_cons, List.cons_append, Collection.addStmts, step, ih]
      simp [withEchoes]

/-- The scopes of `echoes` are the module and its function. -/
theorem echoes_collect (count : Nat) :
    (echoes count).program.collect = ⟨[echoModule count, echoFunction], []⟩ := by
  simp only [echoes, Source.ofProgram, Program.collect, Collection.addStmts, Collection.addStmt,
    Collection.openScope, Collection.addReturn, Collection.addYields,
    Collection.modify, Scope.empty, List.length_singleton, List.modify_succ_cons,
    List.modify_zero_cons, List.cons_append, List.nil_append, addStmts_echoing]
  simp [echoModule, echoFunction, withEchoes, Scope.empty, callAt, echoList, Expr.yields,
    Expr.children]

variable {count : Nat} {trail : Trail} {span : Span}

theorem echoes_get_zero : (echoes count).scopes.get 0 = echoModule count := by
  change ScopeTree.get ⟨(echoes count).program.collect.scopes⟩ 0 = _
  rw [echoes_collect]
  rfl

theorem echoes_get_one : (echoes count).scopes.get 1 = echoFunction := by
  change ScopeTree.get ⟨(echoes count).program.collect.scopes⟩ 1 = _
  rw [echoes_collect]
  rfl

theorem echo_exits : ((echoes count).scopes.get 1).exits = [.number ⟨16, 17⟩ .int "1"] := by
  rw [echoes_get_one]
  rfl

theorem echo_exitKeys : (echoes count).exitKeys 1 = [(1, ⟨16, 17⟩)] := by
  rw [exitKeys, echo_exits]
  rfl

/-- Nothing is imported in `echoes`. -/
theorem echoes_importPath? (fragments : List String) (offset : Nat) :
    (echoes count).importPath? fragments offset = none := by
  have imports : (echoes count).imports = [] := congrArg Collection.imports (echoes_collect count)
  cases fragments <;> simp only [importPath?, imports, List.filter_nil, List.getLast?_nil,
    Option.map_none]

/-- The module lies in no other scope. -/
theorem echoes_ancestors : (echoes count).scopes.ancestors 0 = [0] := by
  rw [ScopeTree.ancestors, echoes_get_zero]
  rfl

/-- Only assignments say something about the name. -/
theorem echo_plain : ∀ strategy ∈
      [Strategy.builtin, .override, .localDefinition, .importPath, .attributePath],
    ((echoes count).resolver {}).search trail 0 (.symbol span "x") strategy = ⟨.none, 0⟩ := by
  intro strategy member
  cases strategy with
  | assignment => simp at member
  | builtin | localDefinition | attributePath => rfl
  | importPath =>
      simp only [Resolver.search, importLead, Source.resolver, Expr.fragments?, Option.bind_some,
        echoes_importPath?]
  | override =>
      simp only [Resolver.search, Resolver.overrideLead, overridePaths, Source.resolver,
        Expr.fragments?, echoes_importPath?]
      with_unfolding_all rfl

/-- The call is not known by an import path. -/
theorem callAt_importPath (start : Nat) :
    ((echoes count).resolver {}).search trail 0 (callAt "f" start) .importPath = ⟨.none, 0⟩ := by
  simp only [Resolver.search, importLead, Source.resolver, callAt, Expr.fragments?,
    Option.bind_some, echoes_importPath?]

/-- Nothing is said about the call before its function is found. -/
theorem callAt_plain (start : Nat) : ∀ strategy ∈ [Strategy.builtin, .override],
    ((echoes count).resolver {}).search trail 0 (callAt "f" start) strategy = ⟨.none, 0⟩ := by
  refine List.forall_mem_cons.mpr ⟨by with_unfolding_all rfl, List.forall_mem_singleton.mpr ?_⟩
  simp only [Resolver.search, Resolver.overrideLead, overridePaths, Source.resolver, callAt,
    Expr.fragments?, echoes_importPath?]
  with_unfolding_all rfl

/-- The call refers to the exits of the function unless these are being resolved. -/
theorem callAt_lead {start : Nat} (unseen : (1, ⟨16, 17⟩) ∉ trail.visited) :
    ((echoes count).resolver {}).search trail 0 (callAt "f" start) .localDefinition =
      ⟨.exits 1, 0⟩ := by
  have called : (echoes count).calledFunction? 0 (.symbol ⟨start, start + 1⟩ "f") = some 1 := by
    have outermost : (echoModule count).kind = .module := rfl
    have children : (echoModule count).children = [1] := rfl
    simp [calledFunction?, echoes_ancestors, ScopeTree.childNamed?, echoes_get_zero, outermost,
      children, echoes_get_one, echoFunction, Scope.empty]
  simp only [Resolver.search, Source.resolver, localLead, callAt, called, echoes_get_one,
    echo_exitKeys]
  simp [echoFunction, Scope.empty, Scope.exits, unseen]

/-- The lookups in progress when the values of `level` assignments are being resolved, of which
the first has the given number. -/
def echoTrail (number level : Nat) : Trail :=
  ⟨(List.range' number level).map fun number => (0, (echo number).span), level⟩

/-- The assignments stand in their order. -/
theorem echo_start_lt {first second : Nat} (before : first < second) :
    (echo first).span.start < (echo second).span.start := by
  cases second with
  | zero => exact absurd before (Nat.not_lt_zero first)
  | succ second => cases first <;> simp only [echo, callAt, Expr.span] <;> omega

/-- The last assignment that is not being resolved is the one before those that are. -/
theorem echo_lead {number level : Nat} (all : number + level = count) :
    ((echoes count).resolver {}).search (echoTrail (number + 1) level) 0 (.symbol span "x")
      .assignment = ⟨.value 0 (echo number), level⟩ := by
  have unseen : (0, (echo number).span) ∉ (echoTrail (number + 1) level).visited := by
    intro member
    obtain ⟨other, inside, same⟩ := List.mem_map.mp member
    have before := echo_start_lt (List.mem_range'_1.mp inside).1
    rw [(Prod.mk.inj same).2] at before
    exact absurd before (Nat.lt_irrefl _)
  have split : (echoModule count).assignments.reverse =
      ((List.range' (number + 1) level).map echoed).reverse ++
        echoed number :: ((List.range number).map echoed).reverse := by
    have numbers : List.range (count + 1) =
        (List.range number ++ [number]) ++ List.range' (number + 1) level := by
      rw [← List.range_succ, List.range_eq_range', List.range_eq_range', ← all,
        Nat.add_right_comm, ← List.range'_append_1, Nat.zero_add]
    simp [echoModule, numbers]
  have binds : (echoed number).bound? "x" = some (.value (echo number)) := rfl
  have plain : Assignment.annotation (echoed number) = none := rfl
  have id : (echoModule count).id = 0 := rfl
  simp only [Resolver.search, Source.resolver, assignmentLead, lookupChain, echoes_ancestors,
    List.filter_nil, chainLead, echoes_get_zero, split]
  rw [scopeLead_append]
  · simp [scopeLead, binds, plain, id, unseen]
  · intro assignment member
    obtain ⟨other, inside, rfl⟩ := List.mem_map.mp (List.mem_reverse.mp member)
    exact ⟨rfl, echo other, rfl, List.mem_map.mpr ⟨other, inside, rfl⟩⟩

/-- A name `x` leads to the last assignment that is not in progress. -/
theorem echo_decides {number level : Nat} (all : number + level = count) :
    ((echoes count).resolver {}).Decides (echoTrail (number + 1) level) 0 (.symbol span "x")
      (.value 0 (echo number)) level [] :=
  ⟨rfl, rfl, _, .assignment, rfl, echo_plain, echo_lead all⟩

/-- A call of `f` leads to its exits unless they are in progress. -/
theorem callAt_decides {start : Nat} (unseen : (1, ⟨16, 17⟩) ∉ trail.visited) :
    ((echoes count).resolver {}).Decides trail 0 (callAt "f" start) (.exits 1) 0
      [.importPath, .attributePath, .assignment] :=
  ⟨rfl, rfl, _, .localDefinition, rfl, callAt_plain start, callAt_lead unseen⟩

/-- The trace of a call of `f` looks up its exits. -/
theorem callAt_trace {start : Nat} (unseen : (1, ⟨16, 17⟩) ∉ trail.visited)
    (below : trail.depth < maxDepth) :
    ((echoes count).resolver {}).trace trail 0 (callAt "f" start) =
      ⟨.ok [.leaf "int"], [.exits 1], 0, 0⟩ := by
  have inside : ((echoes count).resolver {}).traceLookup trail (.exits 1) =
      ⟨.ok [.leaf "int"], [], 0, 0⟩ := by
    simp only [Resolver.traceLookup, Source.resolver, echo_exits]
    rw [Resolver.traceExits, Resolver.trace]
    simp only [Trace.andThen, pure, Resolver.traceExits]
    rfl
  exact (callAt_decides unseen).trace_ok rfl below inside

/-- Where the function is nested too deeply, the call stands for itself. -/
theorem callAt_trace_deep {start : Nat} (unseen : (1, ⟨16, 17⟩) ∉ trail.visited)
    (deep : ¬trail.depth < maxDepth) :
    ((echoes count).resolver {}).trace trail 0 (callAt "f" start) =
      ⟨.ok [.foreign "<f>"], [], 1, 1⟩ := by
  have plain : (callAt "f" start).literalReceiver? = none := rfl
  have written : ((echoes count).resolver {}).search trail 0 (callAt "f" start) .attributePath =
      ⟨.label "f", 0⟩ := by
    with_unfolding_all rfl
  have foreign : TypeFormat.classify {} (.label "f") = [.foreign "<f>"] := by
    with_unfolding_all rfl
  have others : ((echoes count).resolver {}).traceFirst trail 0 (callAt "f" start)
      ([.importPath] ++ [.attributePath, .assignment]) = ⟨.ok [.foreign "<f>"], [], 0, 0⟩ := by
    rw [Resolver.traceFirst_append _ _ plain
      (List.forall_mem_singleton.mpr (callAt_importPath start)), Resolver.traceFirst,
      Resolver.traceStrategy_of_plain plain written, ← foreign]
    rfl
  rw [(callAt_decides unseen).trace_eq, Resolver.traceLead, Resolver.traceDefinition_of_le deep]
  change Trace.andThen _ (fun _ => Trace.skip 1 >>= fun _ => Resolver.traceFirst _ trail 0 _
    ([.importPath] ++ [.attributePath, .assignment])) = _
  rw [others]
  rfl

/-- The exit of `f` is not visited while assignments are resolved. -/
theorem unseen_echoTrail (number level : Nat) :
    (1, ⟨16, 17⟩) ∉ (echoTrail number level).visited := by
  intro member
  obtain ⟨other, -, same⟩ := List.mem_map.mp member
  exact absurd (Prod.mk.inj same).1 Nat.zero_ne_one

/-- With a memory, the exits of the function are known however deeply the call is nested. -/
theorem echo_alternatives_known (span : Span) (number level skips : Nat)
    (all : number + level = count) (bound : count < maxDepth) :
    ∃ passed, ((echoes count).resolver {}).alternatives (echoTrail (number + 1) level) 0
      (.symbol span "x") ⟨[(1, [.leaf "int"])], skips⟩ =
        .ok [.leaf "int"] ⟨[(1, [.leaf "int"])], passed⟩ := by
  have below : (echoTrail (number + 1) level).depth < maxDepth := by
    simp only [echoTrail]
    omega
  induction number generalizing span level skips with
  | zero =>
      refine ⟨skips + level, (echo_decides all).alternatives_ok
        (Resolver.followLead_value below ?_)⟩
      exact (callAt_decides (unseen_echoTrail 0 (level + 1))).alternatives_ok
        (Resolver.followLead_known rfl)
  | succ number ih =>
      have deeper : (echoTrail (number + 1) (level + 1)).depth < maxDepth := by
        simp only [echoTrail]
        omega
      obtain ⟨passed, known⟩ := ih _ (level + 1) (skips + level) (by omega) deeper
      refine ⟨passed, (echo_decides all).alternatives_ok ?_⟩
      exact Resolver.followLead_value below known

/-- The call of `f` is resolved by its exits, which are remembered. -/
theorem callAt_alternatives_start {start : Nat} :
    ((echoes count).resolver {}).alternatives Trail.start 0 (callAt "f" start) Memory.empty =
      .ok [.leaf "int"] ⟨[(1, [.leaf "int"])], 0⟩ := by
  refine (callAt_decides List.not_mem_nil).alternatives_ok
    (Resolver.followLead_exits rfl (by decide) ?_ rfl)
  simp only [Resolver.functionExits, Source.resolver, echo_exits]
  rw [Resolver.exitAlternatives, Resolver.alternatives]
  simp only [pure, EStateM.pure, Resolver.exitAlternatives]
  rfl

/-- The list `[f(), x]` is a list of integers as long as there are fewer assignments than levels. -/
theorem echoList_typeOf (count : Nat) (bound : count < maxDepth) :
    (echoes count).typeOf {} 0 (echoList count) = .ok (.container "list" [.leaf "int"]) := by
  obtain ⟨passed, known⟩ :=
    echo_alternatives_known ⟨32 + 6 * count, 33 + 6 * count⟩ count 0 0 (Nat.add_zero count) bound
  have found : ((echoes count).resolver {}).alternatives Trail.start 0 (echoList count)
      Memory.empty = .ok [.container "list" [.leaf "int"]] ⟨[(1, [.leaf "int"])], passed⟩ :=
    Resolver.alternatives_pair rfl rfl callAt_alternatives_start known
  rw [typeOf, Source.alternatives, Resolver.run, found]
  rfl

/-- What is looked up in `echoes`. -/
def EchoLookup (lookup : Lookup) : Prop :=
  lookup = .exits 1 ∨ ∃ number, lookup = .value 0 (echo number)

/-- The assignments have different spans. -/
theorem echo_span_inj {first second : Nat} (same : (echo first).span = (echo second).span) :
    first = second := by
  obtain before | rfl | after := Nat.lt_trichotomy first second
  · exact absurd (echo_start_lt before) (same ▸ Nat.lt_irrefl _)
  · rfl
  · exact absurd (echo_start_lt after) (same ▸ Nat.lt_irrefl _)

/-- What is looked up in `echoes` is known by its keys. -/
theorem echo_identified {α : Type} {trace : Trace α}
    (known : ∀ lookup ∈ trace.lookups, EchoLookup lookup) :
    trace.Identified (echoes count) := by
  intro first member second other key own shared
  obtain rfl | ⟨number, rfl⟩ := known first member <;>
    obtain rfl | ⟨again, rfl⟩ := known second other <;>
    simp only [Lookup.keys, echo_exitKeys, List.mem_singleton] at own shared <;> subst own
  · rfl
  · exact absurd (Prod.mk.inj shared).1 Nat.one_ne_zero
  · exact absurd (Prod.mk.inj shared).1 Nat.zero_ne_one
  · rw [echo_span_inj (Prod.mk.inj shared).2]

/-- Without a memory, the name has the types of the call at the end of the chain. -/
theorem echo_trace {types : Alternatives} {lookups : List Lookup} {skips cuts : Nat}
    (bound : count < maxDepth)
    (last : ((echoes count).resolver {}).trace (echoTrail 0 (count + 1)) 0 (callAt "f" 22) =
      ⟨.ok types, lookups, skips, cuts⟩) (known : ∀ lookup ∈ lookups, EchoLookup lookup)
    (span : Span) (number level : Nat) (all : number + level = count) :
    ∃ lookups skips, ((echoes count).resolver {}).trace (echoTrail (number + 1) level) 0
      (.symbol span "x") = ⟨.ok types, lookups, skips, cuts⟩ ∧
        ∀ lookup ∈ lookups, EchoLookup lookup := by
  induction number generalizing span level with
  | zero =>
      obtain rfl : level = count := by omega
      refine ⟨_, _, (echo_decides all).trace_ok rfl bound last, ?_⟩
      simpa [EchoLookup] using known
  | succ number ih =>
      have below : level < maxDepth := by omega
      obtain ⟨lookups, skips, found, known⟩ := ih (echo (number + 1)).span (level + 1) (by omega)
      refine ⟨_, _, (echo_decides all).trace_ok rfl below found, ?_⟩
      simpa [EchoLookup] using known

/-- The types of `[f(), x]` without a memory. -/
theorem echoList_trace {types : Alternatives} {lookups : List Lookup} {skips cuts : Nat}
    (bound : count < maxDepth)
    (last : ((echoes count).resolver {}).trace (echoTrail 0 (count + 1)) 0 (callAt "f" 22) =
      ⟨.ok types, lookups, skips, cuts⟩) (known : ∀ lookup ∈ lookups, EchoLookup lookup) :
    ∃ lookups skips, ((echoes count).resolver {}).trace Trail.start 0 (echoList count) =
      ⟨.ok [.container "list" (Alternatives.extend [.leaf "int"] types)], lookups, skips, cuts⟩ ∧
        ∀ lookup ∈ lookups, EchoLookup lookup := by
  have call : ((echoes count).resolver {}).trace Trail.start 0 (callAt "f" (27 + 6 * count)) =
      ⟨.ok [.leaf "int"], [.exits 1], 0, 0⟩ :=
    callAt_trace List.not_mem_nil (by decide)
  obtain ⟨lookups, skips, found, known⟩ :=
    echo_trace bound last known ⟨32 + 6 * count, 33 + 6 * count⟩ count 0 (Nat.add_zero count)
  refine ⟨.exits 1 :: lookups, skips, ?_, ?_⟩
  · rw [echoList, Resolver.trace_pair rfl rfl call found, Nat.zero_add, Nat.zero_add]
    rfl
  · simpa [EchoLookup] using known

/-- The name `x` in `return x`. -/
def relayed : Expr := .symbol ⟨51, 52⟩ "x"

/-- The value of the assignment `x = yield`. -/
def relayYield : Expr := .yield ⟨17, 22⟩ none false

/-- The list `[f(), g()]`. -/
def relayList : Expr := .sequence ⟨68, 78⟩ .list [callAt "f" 69, callAt "g" 74]

/-- The text of a function `g` that assigns what it is sent to `x` and returns `f()`, where the
function `f` inside it returns `x`; followed by `[f(), g()]`. -/
def relay : Source :=
  Source.ofProgram
    "def g():\n    x = yield\n    def f():\n        return x\n    return f()\n[f(), g()]\n" "m.py"
    ⟨[.function ⟨0, 67⟩ "g" ⟨[], none⟩
        [.assign ⟨13, 22⟩ [.symbol ⟨13, 14⟩ "x"] (some relayYield) none,
          .function ⟨27, 52⟩ "f" ⟨[], none⟩ [.ret ⟨44, 52⟩ (some relayed)] [] false,
          .ret ⟨57, 67⟩ (some (callAt "f" 64))] [] false,
      .expression relayList.span relayList], ⟨0, 79⟩⟩

/-- The lookups in progress during a call of `f`. -/
def insideF (trail : Trail) : Trail := trail.enter (relay.exitKeys 2)

/-- The lookups in progress during a call of `g`. -/
def insideG : Trail := Trail.start.enter (relay.exitKeys 1)

/-- Nothing is said about a call before its function is found. -/
theorem relay_decides {trail : Trail} {scope function : ScopeId} {name : String} {start : Nat}
    (named : name = "f" ∨ name = "g")
    (found : (relay.resolver {}).search trail scope (callAt name start) .localDefinition =
      ⟨.exits function, 0⟩) :
    (relay.resolver {}).Decides trail scope (callAt name start) (.exits function) 0
      [.importPath, .attributePath, .assignment] := by
  refine ⟨rfl, rfl, [.builtin, .override], .localDefinition, rfl, ?_, found⟩
  rw [List.forall_mem_cons, List.forall_mem_singleton]
  obtain rfl | rfl := named <;> constructor <;> with_unfolding_all rfl

/-- The call of `f` outside of `g` leads to the exits of `f`. -/
theorem relay_f_decides :
    (relay.resolver {}).Decides Trail.start 0 (callAt "f" 69) (.exits 2) 0
      [.importPath, .attributePath, .assignment] :=
  relay_decides (.inl rfl) (by with_unfolding_all rfl)

/-- The call of `g` leads to its exits. -/
theorem relay_g_decides :
    (relay.resolver {}).Decides Trail.start 0 (callAt "g" 74) (.exits 1) 0
      [.importPath, .attributePath, .assignment] :=
  relay_decides (.inr rfl) (by with_unfolding_all rfl)

/-- The call of `f` in `g` leads to the exits of `f`. -/
theorem relay_inner_decides :
    (relay.resolver {}).Decides insideG 1 (callAt "f" 64) (.exits 2) 0
      [.importPath, .attributePath, .assignment] :=
  relay_decides (.inl rfl) (by with_unfolding_all rfl)

/-- No earlier strategy finds the `x` that `f` returns. -/
theorem relay_x_plain (trail : Trail) : ∀ strategy ∈
      [Strategy.builtin, .override, .localDefinition, .importPath, .attributePath],
    (relay.resolver {}).search trail 2 relayed strategy = ⟨.none, 0⟩ := by
  intro strategy member
  cases strategy with
  | assignment => simp at member
  | builtin | override | localDefinition | importPath | attributePath => with_unfolding_all rfl

/-- The `x` that `f` returns leads to the `yield`, which is not in progress outside of `g`. -/
theorem relay_x_decides :
    (relay.resolver {}).Decides (insideF Trail.start) 2 relayed (.value 1 relayYield) 0 [] :=
  ⟨rfl, rfl, _, .assignment, rfl, relay_x_plain _, by with_unfolding_all rfl⟩

/-- In a call of `g` the `yield` is in progress, and `x` stays a label. -/
theorem relay_x_decides_again :
    (relay.resolver {}).Decides (insideF insideG) 2 relayed (.label "x") 1 [] :=
  ⟨rfl, rfl, _, .assignment, rfl, relay_x_plain _, by with_unfolding_all rfl⟩

theorem relay_f_exits : (relay.scopes.get 2).exits = [relayed] := by with_unfolding_all rfl

theorem relay_g_exits :
    (relay.scopes.get 1).exits = [callAt "f" 64, .constant ⟨17, 22⟩ .none] := by
  with_unfolding_all rfl

theorem relay_text : relay.textOf relayed.span = "x" := by with_unfolding_all rfl

/-- A `yield` has no type. -/
def relayFault : Fault := ⟨.unsupportedConstruct "yield", ⟨17, "m.py"⟩⟩

/-- Outside of `g`, the value of `x` has no type. -/
theorem relay_f_trace :
    (relay.resolver {}).trace Trail.start 0 (callAt "f" 69) =
      ⟨.ok [.unresolved "x"], [.exits 2, .value 1 relayYield], 0, 0⟩ := by
  have below : (insideF Trail.start).depth < maxDepth := by decide
  have own : (relay.resolver {}).trace (insideF Trail.start) 2 relayed =
      ⟨.error relayFault, [.value 1 relayYield], 0, 0⟩ := by
    rw [relay_x_decides.trace_eq, Resolver.traceLead, Resolver.traceDefinition_of_lt below,
      Resolver.traceLookup, relayYield, Resolver.trace]
    rfl
  have inside : (relay.resolver {}).traceLookup Trail.start (.exits 2) =
      ⟨.ok [.unresolved "x"], [.value 1 relayYield], 0, 0⟩ := by
    rw [← relay_text]
    simp only [Resolver.traceLookup, Source.resolver, relay_f_exits]
    exact Resolver.traceExits_error rfl own Resolver.traceExits_nil
  exact relay_f_decides.trace_ok rfl (by decide) inside

/-- During a call of `g`, the value of `x` is passed over. -/
theorem relay_g_trace :
    (relay.resolver {}).trace Trail.start 0 (callAt "g" 74) =
      ⟨.ok [.foreign "<x>", .leaf "None"], [.exits 1, .exits 2], 1, 0⟩ := by
  have foreign : TypeFormat.classify {} (.label "x") = [.foreign "<x>"] := by
    with_unfolding_all rfl
  have own : (relay.resolver {}).trace (insideF insideG) 2 relayed =
      ⟨.ok [.foreign "<x>"], [], 1, 0⟩ := by
    rw [relay_x_decides_again.trace_eq, ← foreign]
    rfl
  have inside : (relay.resolver {}).traceLookup insideG (.exits 2) =
      ⟨.ok [.foreign "<x>"], [], 1, 0⟩ := by
    simp only [Resolver.traceLookup, Source.resolver, relay_f_exits]
    exact Resolver.traceExits_ok own Resolver.traceExits_nil
  have called : (relay.resolver {}).trace insideG 1 (callAt "f" 64) =
      ⟨.ok [.foreign "<x>"], [.exits 2], 1, 0⟩ :=
    relay_inner_decides.trace_ok rfl (by decide) inside
  have bare : (relay.resolver {}).trace insideG 1 (.constant ⟨17, 22⟩ .none) =
      ⟨.ok [.leaf "None"], [], 0, 0⟩ := by
    rw [Resolver.trace]
    rfl
  have outer : (relay.resolver {}).traceLookup Trail.start (.exits 1) =
      ⟨.ok [.foreign "<x>", .leaf "None"], [.exits 2], 1, 0⟩ := by
    simp only [Resolver.traceLookup, Source.resolver, relay_g_exits]
    exact Resolver.traceExits_ok called (Resolver.traceExits_ok bare Resolver.traceExits_nil)
  exact relay_g_decides.trace_ok rfl (by decide) outer

/-- The call of `f` finds no type for `x`, and this is remembered. -/
theorem relay_f_alternatives :
    (relay.resolver {}).alternatives Trail.start 0 (callAt "f" 69) Memory.empty =
      .ok [.unresolved "x"] ⟨[(2, [.unresolved "x"])], 0⟩ := by
  have below : (insideF Trail.start).depth < maxDepth := by decide
  have own : (relay.resolver {}).alternatives (insideF Trail.start) 2 relayed Memory.empty =
      .error relayFault Memory.empty := by
    rw [relay_x_decides.alternatives_eq, Resolver.followLead, if_pos below, relayYield,
      Resolver.alternatives]
    rfl
  have exits : (relay.resolver {}).functionExits (insideF Trail.start) 2 Memory.empty =
      .ok [.unresolved "x"] Memory.empty := by
    rw [← relay_text]
    simp only [Resolver.functionExits, Source.resolver, relay_f_exits]
    refine (Resolver.exitAlternatives_error rfl own).trans ?_
    rw [Resolver.exitAlternatives]
    rfl
  exact relay_f_decides.alternatives_ok (Resolver.followLead_exits rfl (by decide) exits rfl)

/-- The call of `g` uses what is remembered of `f`. -/
theorem relay_g_alternatives :
    (relay.resolver {}).alternatives Trail.start 0 (callAt "g" 74)
      ⟨[(2, [.unresolved "x"])], 0⟩ =
      .ok [.unresolved "x", .leaf "None"]
        ⟨[(1, [.unresolved "x", .leaf "None"]), (2, [.unresolved "x"])], 0⟩ := by
  have called : (relay.resolver {}).alternatives insideG 1 (callAt "f" 64)
      ⟨[(2, [.unresolved "x"])], 0⟩ = .ok [.unresolved "x"] ⟨[(2, [.unresolved "x"])], 0⟩ :=
    relay_inner_decides.alternatives_ok (Resolver.followLead_known rfl)
  have bare (memory : Memory) :
      (relay.resolver {}).alternatives insideG 1 (.constant ⟨17, 22⟩ .none) memory =
        .ok [.leaf "None"] memory := by
    rw [Resolver.alternatives]
    rfl
  have exits : (relay.resolver {}).functionExits insideG 1 ⟨[(2, [.unresolved "x"])], 0⟩ =
      .ok [.unresolved "x", .leaf "None"] ⟨[(2, [.unresolved "x"])], 0⟩ := by
    simp only [Resolver.functionExits, Source.resolver, relay_g_exits]
    refine (Resolver.exitAlternatives_ok called).trans
      ((Resolver.exitAlternatives_ok (bare _)).trans ?_)
    rw [Resolver.exitAlternatives]
    rfl
  exact relay_g_decides.alternatives_ok (Resolver.followLead_exits rfl (by decide) exits rfl)

/-- With a memory, the list `[f(), g()]` has what is remembered of `f` in it. -/
theorem relayList_typeOf :
    relay.typeOf {} 0 relayList =
      .ok (.container "list" [.unresolved "x", .leaf "None"]) := by
  rw [typeOf, Source.alternatives, Resolver.run, relayList,
    Resolver.alternatives_pair rfl rfl relay_f_alternatives relay_g_alternatives]
  rfl

/-- Without a memory, `f` is resolved again in `g`, where `x` is a label. -/
theorem relayList_trace :
    (relay.resolver {}).trace Trail.start 0 relayList =
      ⟨.ok [.container "list" [.unresolved "x", .foreign "<x>", .leaf "None"]],
        [.exits 2, .value 1 relayYield, .exits 1, .exits 2], 1, 0⟩ :=
  Resolver.trace_pair rfl rfl relay_f_trace relay_g_trace

/-- **Transparency of the memory.**  Every request for the type of an expression, and every
request for the types of exits, ends as it does without a memory, unless lookups are nested too
deeply without one or different definitions that are looked up have a visit key in common. -/
theorem requests_transparent (source : Source) (context : ResolutionContext) (scope : ScopeId) :
    (∀ e : Expr,
      ((source.resolver context).trace Trail.start scope e).Shallow →
      ((source.resolver context).trace Trail.start scope e).Identified source →
        source.typeOf context scope e = source.typeOfAfresh context scope e) ∧
    ∀ exits : List Expr,
      (source.traceExitTypes context scope exits).Shallow →
      (source.traceExitTypes context scope exits).Identified source →
        source.exitTypes context scope exits = source.exitTypesAfresh context scope exits := by
  constructor
  · intro e shallow identified
    have ended : source.alternatives context scope e =
        ((source.resolver context).trace Trail.start scope e).result :=
      (source.resolver context).run_eq_result
        (fun _ clear => Resolver.Setting.alternatives_simulates _ scope e False clear)
        shallow identified
    rw [typeOf, typeOfAfresh, ended]
  · intro exits shallow identified
    exact (source.resolver context).run_eq_result
      (fun _ clear => Resolver.Setting.alternativesOfAll_simulates exits [] clear)
      shallow identified

/-- Thirty assignments are not too many, and the memory is not noticed. -/
theorem requests_transparent_echoes :
    (echoes 30).typeOf {} 0 (echoList 30) = (echoes 30).typeOfAfresh {} 0 (echoList 30) ∧
      (echoes 30).exitTypes {} 0 [callAt "f" 22, callAt "f" 207] =
        (echoes 30).exitTypesAfresh {} 0 [callAt "f" 22, callAt "f" 207] := by
  obtain ⟨lookups, skips, list, known⟩ := echoList_trace (by decide)
    (callAt_trace (unseen_echoTrail 0 31) (by decide)) (by simp [EchoLookup])
  have exits : (echoes 30).traceExitTypes {} 0 [callAt "f" 22, callAt "f" 207] =
      ⟨.ok [.leaf "int"], [.exits 1, .exits 1], 0, 0⟩ := by
    simp only [traceExitTypes, Resolver.traceAll]
    rw [callAt_trace (by decide) (by decide), callAt_trace (by decide) (by decide)]
    rfl
  refine ⟨(requests_transparent (echoes 30) {} 0).1 _ ?_ ?_,
    (requests_transparent (echoes 30) {} 0).2 _ ?_ ?_⟩
  · rw [list]
    rfl
  · rw [list]
    exact echo_identified known
  · rw [exits]
    rfl
  · rw [exits]
    refine echo_identified ?_
    simp [EchoLookup]

/-- Neither condition can be left out.  After 31 assignments `x = x`, the call that `x` stands
for is nested too deeply, but the function was called before; and in `relay`, the value of `x`
has the key of an exit of the function around it. -/
theorem requests_show_memory :
    ((echoes 31).typeOf {} 0 (echoList 31) ≠ (echoes 31).typeOfAfresh {} 0 (echoList 31) ∧
      (((echoes 31).resolver {}).trace Trail.start 0 (echoList 31)).Identified (echoes 31)) ∧
    relay.typeOf {} 0 relayList ≠ relay.typeOfAfresh {} 0 relayList ∧
      ((relay.resolver {}).trace Trail.start 0 relayList).Shallow := by
  obtain ⟨lookups, skips, deep, known⟩ := echoList_trace (by decide)
    (callAt_trace_deep (unseen_echoTrail 0 32) (by decide)) (by simp)
  refine ⟨⟨?_, ?_⟩, ?_, ?_⟩
  · have afresh : (echoes 31).typeOfAfresh {} 0 (echoList 31) =
        .ok (.container "list" [.leaf "int", .foreign "<f>"]) := by
      rw [typeOfAfresh, deep]
      rfl
    rw [echoList_typeOf 31 (by decide), afresh]
    simp
  · rw [deep]
    exact echo_identified known
  · have afresh : relay.typeOfAfresh {} 0 relayList =
        .ok (.container "list" [.unresolved "x", .foreign "<x>", .leaf "None"]) := by
      rw [typeOfAfresh, relayList_trace]
      rfl
    rw [relayList_typeOf, afresh]
    simp
  · rw [relayList_trace]
    rfl

end Source

end DocSketch
