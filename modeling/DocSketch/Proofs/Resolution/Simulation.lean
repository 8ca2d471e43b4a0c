import DocSketch.Proofs.Resolution.Replay

/-!
# Requests with and without a memory

A request that remembers the exits of functions ends as it does without a memory, unless
lookups are nested too deeply or different definitions have a visit key in common.  What is
remembered was traced where nothing was passed over.  Where it is used, the trace could only
differ at a lookup in progress; but the trace of that lookup then was as clean, and so is
everything inside.

* `Resolver.Setting`: the definitions that a request looks up.
* `Resolver.Setting.Kept`: a memory holds only what clean traces found.
* `Resolver.Setting.Clear`: the lookups in progress get in the way of nothing that is kept.
* `Resolver.Setting.Simulates`: a resolution ends as its trace does.
* `Source.requests_transparent`: requests end as they do without a memory.
-/

namespace DocSketch

/-- Definitions that were looked up are the same if they have a visit key in common. -/
def Trace.Identified {α : Type} (trace : Trace α) (source : Source) : Prop :=
  ∀ first ∈ trace.lookups, ∀ second ∈ trace.lookups,
    ∀ key ∈ first.keys source, key ∈ second.keys source → first = second

namespace Resolver

variable {resolver : Resolver} {α β : Type}

/-- What is being resolved when a request starts, and the definitions that it looks up: no two
of them have a key in common. -/
structure Setting (resolver : Resolver) where
  roots : List VisitKey
  Seen : Lookup → Prop
  identified : ∀ {first second : Lookup} {key : VisitKey}, Seen first → Seen second →
    key ∈ first.keys resolver.source → key ∈ second.keys resolver.source → first = second

/-- Goes on with what a resolution ends with. -/
def proceed (request : Resolve α) (rest : Except Fault α → Resolve β) : Resolve β :=
  fun memory => rest (outcome request memory) (after request memory)

/-- Goes on with a value that is found. -/
def resume (rest : α → Resolve β) : Except Fault α → Resolve β
  | .ok value => rest value
  | .error fault => throw fault

/-- Going on with a value is going on with an ending. -/
theorem bind_eq_proceed (request : Resolve α) (rest : α → Resolve β) :
    request >>= rest = proceed request (resume rest) := by
  funext memory
  simp only [Bind.bind, EStateM.bind, proceed, outcome, after]
  cases request memory <;> rfl

/-- What a strategy ends with decides whether the others are tried. -/
def conclude (resolver : Resolver) (trail : Trail) (scope : ScopeId) (e : Expr)
    (others : List Strategy) : Except Fault (Option Finding) → Resolve Alternatives
  | .ok (some finding) => pure (resolver.context.format.classify finding)
  | .ok none => resolver.firstFinding trail scope e others
  | .error fault =>
    if fault.cause.isRecursionGuard then do
      skip 1
      resolver.firstFinding trail scope e others
    else
      throw fault

/-- The other strategies are tried according to what the first one ends with. -/
theorem firstFinding_cons (trail : Trail) (scope : ScopeId) (e : Expr) (strategy : Strategy)
    (others : List Strategy) :
    resolver.firstFinding trail scope e (strategy :: others) =
      proceed (resolver.attempt trail scope e strategy)
        (resolver.conclude trail scope e others) := by
  funext memory
  simp only [firstFinding, proceed, outcome, after]
  cases resolver.attempt trail scope e strategy memory with
  | ok finding next => cases finding <;> rfl
  | error fault next =>
      dsimp only [conclude]
      split <;> rfl

/-- The other exits are resolved according to what the first one ends with. -/
theorem exitAlternatives_cons (trail : Trail) (scope : ScopeId) (found : Alternatives)
    (exit : Expr) (others : List Expr) :
    resolver.exitAlternatives trail scope found (exit :: others) =
      proceed (resolver.alternatives trail scope exit) fun
        | .ok types =>
          resolver.exitAlternatives trail scope (Alternatives.extend found types) others
        | .error fault =>
          if fault.isRecoverable then
            let own := Descriptor.unresolved (resolver.source.textOf exit.span)
            resolver.exitAlternatives trail scope (Alternatives.add found own) others
          else
            throw fault := by
  funext memory
  simp only [exitAlternatives, proceed, outcome, after]
  cases resolver.alternatives trail scope exit memory with
  | ok types next => rfl
  | error fault next =>
      dsimp only
      split <;> rfl

/-- What a lead gives to the reference that follows it. -/
def followLead (resolver : Resolver) (trail : Trail) : Lead → Resolve (Option Finding)
  | .none => return none
  | .label text => return some (.label text)
  | .types types => return some (.types types)
  | .value outer value =>
    if trail.depth < maxDepth then do
      let types ← resolver.alternatives (trail.enter [(outer, value.span)]) outer value
      return some (.types types)
    else
      resolver.tooDeep trail.depth
  | .exits function => do
    let memory ← get
    match memory.memo.lookup function with
    | some types => return some (.types types)
    | none =>
      if trail.depth < maxDepth then
        let types ←
          resolver.functionExits (trail.enter (resolver.source.exitKeys function)) function
        remember function memory.skips types
        return some (.types types)
      else
        resolver.tooDeep trail.depth

/-- An override of a literal receiver asks for the type of the receiver. -/
theorem attempt_of_literal {trail : Trail} {scope : ScopeId} {e object : Expr}
    {property : String} (found : e.literalReceiver? = some (object, property)) :
    resolver.attempt trail scope e .override =
      if resolver.context.overrides.isEmpty then pure none
      else do
        let types ← resolver.alternatives trail scope object
        let paths := (types.head?.bind Descriptor.typeName?).toList.map (· ++ "." ++ property)
        return (resolver.context.overrideLabel? e.call? paths).map Finding.label := by
  rw [attempt.eq_def]
  split
  case h_1 receiver =>
    cases found.symm.trans receiver
    rfl
  case h_2 other => exact (other object property rfl found).elim

/-- Any other strategy follows its lead. -/
theorem attempt_of_other {trail : Trail} {scope : ScopeId} {e : Expr} {strategy : Strategy}
    (plain : ∀ object property, strategy = .override →
      e.literalReceiver? = some (object, property) → False) :
    resolver.attempt trail scope e strategy = (do
      skip (resolver.search trail scope e strategy).skips
      resolver.followLead trail (resolver.search trail scope e strategy).lead) := by
  rw [attempt.eq_def]
  split
  case h_1 object property found => exact (plain object property rfl found).elim
  case h_2 strategy _ _ =>
    generalize resolver.search trail scope e strategy = found
    obtain ⟨lead, skips⟩ := found
    cases lead <;> rfl

namespace Setting

variable {setting : resolver.Setting} {trail elsewhere : Trail} {lookup found : Lookup}
  {calm : Prop}

/-- Nothing is passed over while a definition is looked up. -/
structure Settled (setting : resolver.Setting) (trail : Trail) (lookup : Lookup) : Prop where
  above : setting.roots ⊆ trail.visited
  clean : (resolver.traceLookup trail lookup).Clean
  seen : ∀ inner ∈ (resolver.traceLookup trail lookup).lookups, setting.Seen inner

/-- What a settled definition looks up is settled. -/
theorem Settled.inner (settled : setting.Settled trail lookup)
    (inside : found ∈ (resolver.traceLookup trail lookup).lookups) :
    ∃ deeper : Trail, setting.Settled deeper found := by
  obtain ⟨deeper, below, part⟩ := (traceLookup_akin trail trail lookup).inner found inside
  exact ⟨deeper, fun _ root => below (settled.above root), part.clean settled.clean,
    fun inner member => settled.seen inner (part.lookups member)⟩

/-- A memory holds only what lookups found that passed over nothing. -/
def Kept (setting : resolver.Setting) (memory : Memory) : Prop :=
  ∀ function types, (function, types) ∈ memory.memo → ∃ trail : Trail,
    setting.Settled trail (.exits function) ∧
      (resolver.traceLookup trail (.exits function)).result = .ok types

/-- A definition that was settled meets none of the lookups in progress but those that the
request started with, unless the lookups in progress are calm: nothing will be passed over
during one of them. -/
structure Clear (setting : resolver.Setting) (trail : Trail) (calm : Prop) : Prop where
  above : setting.roots ⊆ trail.visited
  apart : ∀ {elsewhere : Trail} {lookup : Lookup}, setting.Settled elsewhere lookup →
    calm ∨ ∀ inner ∈ (resolver.traceLookup elsewhere lookup).lookups,
      ∀ key ∈ inner.keys resolver.source, key ∈ trail.visited → key ∈ setting.roots

/-- At the start of a request nothing else is in progress. -/
theorem Clear.start (trail : Trail) (roots : setting.roots = trail.visited) :
    setting.Clear trail False :=
  ⟨fun _ root => roots ▸ root, fun _ => .inr fun _ _ _ _ visited => roots ▸ visited⟩

/-- A settled definition is found as it was, where the lookups in progress allow it. -/
theorem Clear.traceLookup_eq (clear : setting.Clear trail calm)
    (settled : setting.Settled elsewhere lookup)
    (shallow : (resolver.traceLookup trail lookup).Shallow)
    (clean : calm → (resolver.traceLookup trail lookup).Clean) :
    resolver.traceLookup trail lookup = resolver.traceLookup elsewhere lookup := by
  refine (traceLookup_akin elsewhere trail lookup).same settled.clean shallow ?_
  obtain quiet | apart := clear.apart settled
  · exact .inr (clean quiet)
  · exact .inl fun inner member key own visited =>
      settled.above (apart inner member key own visited)

/-- The lookups in progress stay clear when a definition is looked up. -/
theorem Clear.enter (clear : setting.Clear trail calm) (seen : setting.Seen lookup)
    (shallow : (resolver.traceLookup trail lookup).Shallow) :
    setting.Clear (trail.enter (lookup.keys resolver.source))
      (calm ∨ (resolver.traceLookup trail lookup).Clean) := by
  refine ⟨fun _ root => List.mem_append_right _ (clear.above root), fun settled => ?_⟩
  by_cases quiet : calm ∨ (resolver.traceLookup trail lookup).Clean
  · exact .inl quiet
  · obtain ⟨restless, unclean⟩ := not_or.mp quiet
    refine .inr fun inner member key own visited => ?_
    obtain entered | earlier := List.mem_append.mp visited
    · -- The lookup was met before, and since nothing was passed over there, nothing is here.
      obtain rfl := setting.identified (settled.seen inner member) seen own entered
      obtain ⟨deeper, again⟩ := settled.inner member
      have same := clear.traceLookup_eq again shallow fun calm => absurd calm restless
      exact absurd (same ▸ again.clean) unclean
    · exact (clear.apart settled).resolve_left restless inner member key own earlier

/-- A trace that belongs to the request, and that passes over nothing if it is calm. -/
structure Fits (setting : resolver.Setting) (calm : Prop) (trace : Trace α) : Prop where
  shallow : trace.Shallow
  seen : ∀ lookup ∈ trace.lookups, setting.Seen lookup
  clean : calm → trace.Clean

/-- A part of a fitting trace fits. -/
theorem Fits.part {whole : Trace α} {part : Trace β} (fits : setting.Fits calm whole)
    (within : part.Within whole) : setting.Fits calm part :=
  ⟨within.shallow fits.shallow, fun lookup member => fits.seen lookup (within.lookups member),
    fun quiet => within.clean (fits.clean quiet)⟩

/-- From `memory` on, a resolution ends as its trace does and passes over as much, and what is
kept may be kept. -/
structure Mirrors (setting : resolver.Setting) (request : Resolve α) (trace : Trace α)
    (memory : Memory) : Prop where
  ends : outcome request memory = trace.result
  kept : setting.Kept (after request memory)
  skips : (after request memory).skips = memory.skips + trace.skips

/-- A resolution ends as its trace does, from every memory on. -/
def Simulates (setting : resolver.Setting) (calm : Prop) (request : Resolve α)
    (trace : Trace α) : Prop :=
  setting.Fits calm trace → ∀ memory, setting.Kept memory → setting.Mirrors request trace memory

namespace Simulates

variable {request : Resolve α} {trace : Trace α}

theorem pure (value : α) : setting.Simulates calm (Pure.pure value) (Pure.pure value) :=
  fun _ _ kept => ⟨rfl, kept, rfl⟩

theorem throw (fault : Fault) :
    setting.Simulates calm (MonadExcept.throw fault : Resolve α) (.fail fault) :=
  fun _ _ kept => ⟨rfl, kept, rfl⟩

theorem skip (count : Nat) : setting.Simulates calm (Resolver.skip count) (.skip count) :=
  fun _ _ kept => ⟨rfl, kept, rfl⟩

/-- Going on with an ending is simulated part by part. -/
theorem andThen {rest : Except Fault α → Resolve β} {others : Except Fault α → Trace β}
    (head : setting.Simulates calm request trace)
    (tail : ∀ result, setting.Simulates calm (rest result) (others result)) :
    setting.Simulates calm (proceed request rest) (trace.andThen others) := by
  intro fits memory kept
  obtain ⟨ended, still, passed⟩ := head (fits.part (.head trace others)) memory kept
  obtain ⟨finished, last, more⟩ :=
    tail trace.result (fits.part (.tail trace others)) (after request memory) still
  have step : proceed request rest memory = rest trace.result (after request memory) := by
    rw [proceed, ended]
  refine ⟨?_, ?_, ?_⟩
  · rw [outcome, step, ← outcome, finished, Trace.andThen]
  · rw [after, step, ← after]
    exact last
  · rw [after, step, ← after, more, passed, Trace.andThen, Nat.add_assoc]

/-- Going on with a value is simulated part by part. -/
theorem bind {others : α → Resolve β} {further : α → Trace β}
    (head : setting.Simulates calm request trace)
    (tail : ∀ value, setting.Simulates calm (others value) (further value)) :
    setting.Simulates calm (request >>= others) (trace >>= further) := by
  rw [bind_eq_proceed]
  refine head.andThen fun result => ?_
  cases result with
  | ok value => exact tail value
  | error fault => exact .throw fault

/-- Values are simulated by themselves, and going on by going on. -/
theorem congruence : Congruence fun α (request : Resolve α) (trace : Trace α) =>
    setting.Simulates calm request trace where
  pure := .pure
  bind := .bind

end Simulates

/-- The exits of a function are simulated if each of them is. -/
theorem exitAlternatives_simulates {scope : ScopeId} (exits : List Expr) (found : Alternatives)
    (each : ∀ e ∈ exits, setting.Simulates calm (resolver.alternatives trail scope e)
      (resolver.trace trail scope e)) :
    setting.Simulates calm (resolver.exitAlternatives trail scope found exits)
      (resolver.traceExits trail scope found exits) := by
  induction exits generalizing found with
  | nil =>
      rw [exitAlternatives, traceExits]
      exact .pure found
  | cons exit others ih =>
      have later := fun e member => each e (List.mem_cons_of_mem exit member)
      rw [exitAlternatives_cons, traceExits]
      refine .andThen (each exit List.mem_cons_self) fun result => ?_
      cases result with
      | ok types => exact ih _ later
      | error fault =>
          dsimp only
          split
          · exact ih _ later
          · exact .throw fault

/-- Strategies in turn are simulated if each of them is. -/
theorem firstFinding_simulates {scope : ScopeId} {e : Expr} (strategies : List Strategy)
    (each : ∀ strategy, setting.Simulates calm (resolver.attempt trail scope e strategy)
      (resolver.traceStrategy trail scope e strategy)) :
    setting.Simulates calm (resolver.firstFinding trail scope e strategies)
      (resolver.traceFirst trail scope e strategies) := by
  induction strategies with
  | nil =>
      rw [firstFinding, traceFirst]
      exact .pure _
  | cons strategy others ih =>
      rw [firstFinding_cons, traceFirst]
      refine .andThen (each strategy) fun result => ?_
      cases result with
      | ok finding =>
          cases finding with
          | none => exact ih
          | some finding => exact .pure _
      | error fault =>
          dsimp only [conclude]
          split
          · exact .bind (.skip 1) fun _ => ih
          · exact .throw fault

namespace Fits

variable (fits : setting.Fits calm (resolver.traceDefinition trail lookup))
include fits

theorem below : trail.depth < maxDepth := by
  by_contra deep
  have shallow := fits.shallow
  rw [traceDefinition_of_le deep] at shallow
  exact absurd shallow Nat.one_ne_zero

theorem seen_self : setting.Seen lookup := by
  refine fits.seen lookup ?_
  rw [traceDefinition_of_lt fits.below]
  exact List.mem_cons_self

theorem inside :
    setting.Fits (calm ∨ (resolver.traceLookup trail lookup).Clean)
      (resolver.traceLookup trail lookup) := by
  obtain ⟨shallow, seen, clean⟩ := fits.part (traceLookup_within fits.below)
  exact ⟨shallow, seen, fun quiet => quiet.elim clean id⟩

end Fits

namespace Mirrors

variable {memory : Memory} {request : Resolve Alternatives}

/-- A resolution may read the memory that it starts from. -/
theorem reading {use : Memory → Resolve α} {trace : Trace α}
    (own : setting.Mirrors (use memory) trace memory) :
    setting.Mirrors (get >>= use) trace memory :=
  ⟨own.ends, own.kept, own.skips⟩

/-- A lookup that fails is mirrored by its trace. -/
theorem failing {fault : Fault} {middle : Memory} (rest : Alternatives → Resolve (Option Finding))
    (below : trail.depth < maxDepth)
    (inside : setting.Mirrors request (resolver.traceLookup trail lookup) memory)
    (step : request memory = .error fault middle) :
    setting.Mirrors (request >>= rest) (resolver.traceDefinition trail lookup) memory := by
  obtain ⟨ended, kept, passed⟩ := inside
  simp only [outcome, after, step] at ended kept passed
  have result : (request >>= rest) memory = .error fault middle := by
    simp only [Bind.bind, EStateM.bind, step]
  rw [traceDefinition_of_lt below]
  refine ⟨?_, ?_, ?_⟩
  · simp only [outcome, result, ← ended]
    rfl
  · simpa only [after, result] using kept
  · simpa only [after, result] using passed

/-- A lookup that finds types is mirrored by its trace. -/
theorem finding (below : trail.depth < maxDepth)
    (inside : setting.Mirrors request (resolver.traceLookup trail lookup) memory) :
    setting.Mirrors (do return some (.types (← request))) (resolver.traceDefinition trail lookup)
      memory := by
  cases step : request memory with
  | ok types middle =>
      obtain ⟨ended, kept, passed⟩ := inside
      simp only [outcome, after, step] at ended kept passed
      have result : (do return some (.types (← request)) : Resolve (Option Finding)) memory =
          .ok (some (.types types)) middle := by
        simp only [Bind.bind, EStateM.bind, step]
        rfl
      rw [traceDefinition_of_lt below]
      refine ⟨?_, ?_, ?_⟩
      · simp only [outcome, result, ← ended]
        rfl
      · simpa only [after, result] using kept
      · simpa only [after, result] using passed
  | error fault middle => exact inside.failing _ below step

/-- What is found without anything passed over may be kept. -/
theorem remembering {function : ScopeId} (below : trail.depth < maxDepth)
    (settled : (resolver.traceLookup trail (.exits function)).skips = 0 →
      setting.Settled trail (.exits function))
    (inside : setting.Mirrors request (resolver.traceLookup trail (.exits function)) memory) :
    setting.Mirrors
      (do
        let types ← request
        remember function memory.skips types
        return some (.types types))
      (resolver.traceDefinition trail (.exits function)) memory := by
  cases step : request memory with
  | ok types middle =>
      obtain ⟨ended, kept, passed⟩ := inside
      simp only [outcome, after, step] at ended kept passed
      have result : (do
            let types ← request
            remember function memory.skips types
            return some (.types types) : Resolve (Option Finding)) memory =
          .ok (some (.types types)) (if middle.skips = memory.skips then
            { middle with memo := (function, types) :: middle.memo } else middle) := by
        simp only [Bind.bind, EStateM.bind, step]
        rfl
      rw [traceDefinition_of_lt below]
      refine ⟨?_, ?_, ?_⟩
      · simp only [outcome, result, ← ended]
        rfl
      · simp only [after, result]
        split
        case isTrue same =>
          have quiet : (resolver.traceLookup trail (.exits function)).skips = 0 := by omega
          intro known kinds member
          obtain own | earlier := List.mem_cons.mp member
          · cases own
            exact ⟨trail, settled quiet, ended.symm⟩
          · exact kept known kinds earlier
        case isFalse => exact kept
      · simp only [after, result]
        split <;> exact passed
  | error fault middle => exact inside.failing _ below step

end Mirrors

/-- Following a lead to a value is simulated if resolving the value is. -/
theorem followLead_value_simulates {outer : ScopeId} {value : Expr}
    (clear : setting.Clear trail calm)
    (inside : trail.depth < maxDepth → ∀ calm : Prop,
      setting.Clear (trail.enter [(outer, value.span)]) calm →
        setting.Simulates calm
          (resolver.alternatives (trail.enter [(outer, value.span)]) outer value)
          (resolver.trace (trail.enter [(outer, value.span)]) outer value)) :
    setting.Simulates calm (resolver.followLead trail (.value outer value))
      (resolver.traceDefinition trail (.value outer value)) := by
  intro fits memory kept
  have entered := clear.enter fits.seen_self fits.inside.shallow
  rw [followLead, if_pos fits.below]
  exact .finding fits.below (inside fits.below _ entered fits.inside memory kept)

/-- Following a lead to a function is simulated, whether its types are remembered or not. -/
theorem followLead_exits_simulates {function : ScopeId} (clear : setting.Clear trail calm)
    (inside : trail.depth < maxDepth → ∀ calm : Prop,
      setting.Clear (trail.enter (resolver.source.exitKeys function)) calm →
        ∀ exit ∈ (resolver.source.scopes.get function).exits, setting.Simulates calm
          (resolver.alternatives (trail.enter (resolver.source.exitKeys function)) function exit)
          (resolver.trace (trail.enter (resolver.source.exitKeys function)) function exit)) :
    setting.Simulates calm (resolver.followLead trail (.exits function))
      (resolver.traceDefinition trail (.exits function)) := by
  intro fits memory kept
  have below := fits.below
  have entered := clear.enter fits.seen_self fits.inside.shallow
  rw [followLead]
  refine .reading ?_
  cases known : memory.memo.lookup function with
  | some types =>
      obtain ⟨front, back, split, -⟩ := List.lookup_eq_some_iff.mp known
      obtain ⟨elsewhere, settled, found⟩ := kept function types
        (split ▸ List.mem_append_right front List.mem_cons_self)
      have same := clear.traceLookup_eq settled fits.inside.shallow
        fun quiet => fits.inside.clean (.inl quiet)
      rw [traceDefinition_of_lt below, same, found, settled.clean.1]
      exact ⟨rfl, kept, rfl⟩
  | none =>
      have exits := exitAlternatives_simulates _ [] (inside below _ entered) fits.inside memory kept
      dsimp only
      rw [if_pos below]
      refine exits.remembering below fun quiet => ?_
      exact ⟨clear.above, ⟨quiet, fits.inside.shallow⟩, fits.inside.seen⟩

/-- A strategy is simulated if what it asks for is. -/
theorem attempt_simulates {scope : ScopeId} {e : Expr} (strategy : Strategy)
    (clear : setting.Clear trail calm)
    (asked : ∀ next : Request, resolver.Asks ⟨trail, scope, e⟩ next → ∀ calm : Prop,
      setting.Clear next.trail calm →
        setting.Simulates calm (resolver.alternatives next.trail next.scope next.expr)
          (resolver.trace next.trail next.scope next.expr)) :
    setting.Simulates calm (resolver.attempt trail scope e strategy)
      (resolver.traceStrategy trail scope e strategy) := by
  by_cases literal : ∃ object property, strategy = .override ∧
      e.literalReceiver? = some (object, property)
  · obtain ⟨object, property, rfl, found⟩ := literal
    rw [attempt_of_literal found, traceStrategy_of_literal found]
    split
    · exact .pure _
    · exact .bind (asked _ (.receiver found) calm clear) fun types => .pure _
  · have plain : ∀ object property, strategy = .override →
        e.literalReceiver? = some (object, property) → False :=
      fun object property override found => literal ⟨object, property, override, found⟩
    rw [attempt_of_other plain, traceStrategy_of_other plain]
    refine .bind (.skip _) fun _ => ?_
    cases lead : (resolver.search trail scope e strategy).lead with
    | none | label | types => exact .pure _
    | value outer value =>
        exact followLead_value_simulates clear fun below => asked _ (.value lead below)
    | exits function =>
        refine followLead_exits_simulates clear fun below calm entered exit member => ?_
        exact asked _ (.exit lead below member) calm entered

/-- A resolution ends as its trace does as long as the lookups in progress are clear. -/
theorem alternatives_simulates (trail : Trail) (scope : ScopeId) (e : Expr) (calm : Prop)
    (clear : setting.Clear trail calm) :
    setting.Simulates calm (resolver.alternatives trail scope e)
      (resolver.trace trail scope e) := by
  induction trail, scope, e using resolver.request_induction generalizing calm with
  | step trail scope e ih =>
      have reference : setting.Simulates calm
          (resolver.firstFinding trail scope e resolver.strategies)
          (resolver.traceFirst trail scope e resolver.strategies) :=
        firstFinding_simulates _ fun strategy => attempt_simulates strategy clear ih
      rw [alternatives_assembled, trace_assembled]
      exact Simulates.congruence.assemble (resolver.inquiry trail scope e)
        (resolver.tracedInquiry trail scope e) (fun child member => ih _ (.part member) calm clear)
        reference fun construct _ => .throw _

/-- The types of several expressions are simulated. -/
theorem alternativesOfAll_simulates {scope : ScopeId} (exprs : List Expr) (found : Alternatives)
    (clear : setting.Clear trail calm) :
    setting.Simulates calm (resolver.alternativesOfAll trail scope found exprs)
      (resolver.traceAll trail scope found exprs) := by
  induction exprs generalizing found with
  | nil => exact .pure found
  | cons e others ih =>
      rw [alternativesOfAll, traceAll]
      exact .bind (alternatives_simulates trail scope e calm clear) fun types => ih _

end Setting

/-- A request ends as its trace does if no lookup is nested too deeply and the visit keys
identify what is looked up. -/
theorem run_eq_result {request : Resolve α} {trace : Trace α} {trail : Trail}
    (simulated : ∀ setting : resolver.Setting, setting.Clear trail False →
      setting.Simulates False request trace)
    (shallow : trace.Shallow) (identified : trace.Identified resolver.source) :
    run request = trace.result := by
  let setting : resolver.Setting :=
    ⟨trail.visited, (· ∈ trace.lookups), fun first second => identified _ first _ second _⟩
  have fits : setting.Fits False trace := ⟨shallow, fun _ => id, False.elim⟩
  have kept : setting.Kept Memory.empty := fun _ _ member => absurd member List.not_mem_nil
  exact (simulated setting (.start trail rfl) fits Memory.empty kept).ends

end Resolver

end DocSketch
