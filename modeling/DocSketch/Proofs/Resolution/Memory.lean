import DocSketch.Proofs.Resolution.Faults
import DocSketch.Proofs.Resolution.Pursuit

/-!
# What resolutions remember

A resolution that passes over nothing finds what a pursuit finds, as long as its memory
holds nothing else.  Since only such resolutions are remembered, that never changes, and
the lookups in progress and the memory have no influence on what is found.

* `Resolver.Sound`: a memory holds only what pursuing finds.
* `Resolver.Follows`: a resolution agrees with a pursuit unless something is passed over.
* `Resolver.Reachable`: the memories that requests come to.
* `Resolver.quiet_resolutions_agree`: resolutions that pass over nothing agree, and so do
  they with what is remembered.
-/

namespace DocSketch

namespace Source

variable {source : Source} {trail : Trail} {name : String}

/-- A parameter that passes over nothing has the lead it has while no lookup is in progress. -/
theorem parameterLead_skips (scope : Scope) (parameter : Parameter Expr) (skips : Nat) :
    skips ≤ (source.parameterLead trail scope parameter skips).skips ∧
      ((source.parameterLead trail scope parameter skips).skips = skips →
        source.parameterLead trail scope parameter skips =
          source.parameterLead Trail.start scope parameter skips) := by
  cases annotated : parameter.annotation with
  | some annotation => simp only [parameterLead, annotated, Nat.le_refl, implies_true, and_self]
  | none =>
      cases given : parameter.default with
      | none => simp only [parameterLead, annotated, given, Nat.le_refl, implies_true, and_self]
      | some default =>
          simp only [parameterLead, annotated, given, Trail.start, List.contains_nil,
            Bool.false_eq_true, ↓reduceIte]
          split
          · exact ⟨Nat.le_succ skips, fun same => absurd same (Nat.succ_ne_self skips)⟩
          · exact ⟨Nat.le_refl skips, fun _ => rfl⟩

/-- A scope that passes over nothing has the lead it has while no lookup is in progress. -/
theorem scopeLead_skips (scope : Scope) : ∀ (assignments : List Assignment) (skips : Nat),
    skips ≤ (source.scopeLead trail scope name skips assignments).skips ∧
      ((source.scopeLead trail scope name skips assignments).skips = skips →
        source.scopeLead trail scope name skips assignments =
          source.scopeLead Trail.start scope name skips assignments)
  | [], skips => by
      rw [scopeLead, scopeLead]
      split
      · exact parameterLead_skips scope _ skips
      · exact ⟨Nat.le_refl skips, fun _ => rfl⟩
  | assignment :: others, skips => by
      rw [scopeLead, scopeLead]
      split
      · exact scopeLead_skips scope others skips
      · exact ⟨Nat.le_refl skips, fun _ => rfl⟩
      · exact ⟨Nat.le_refl skips, fun _ => rfl⟩
      · simp only [Trail.start, List.contains_nil, Bool.false_eq_true, ↓reduceIte]
        split
        · have more := (scopeLead_skips scope others (skips + 1)).1
          exact ⟨Nat.le_of_succ_le more, fun same => absurd (same ▸ more) (Nat.not_succ_le_self _)⟩
        · exact ⟨Nat.le_refl skips, fun _ => rfl⟩

/-- A chain of scopes that passes over nothing has the lead it has while no lookup is in progress. -/
theorem chainLead_skips : ∀ (chain : List ScopeId) (skips : Nat),
    skips ≤ (source.chainLead trail name skips chain).skips ∧
      ((source.chainLead trail name skips chain).skips = skips →
        source.chainLead trail name skips chain =
          source.chainLead Trail.start name skips chain)
  | [], skips => ⟨Nat.le_refl skips, fun _ => rfl⟩
  | id :: others, skips => by
      obtain ⟨grows, same⟩ := scopeLead_skips (source.scopes.get id)
        (source.scopes.get id).assignments.reverse skips
      rw [chainLead, chainLead]
      generalize source.scopeLead trail (source.scopes.get id) name skips _ = own at grows same
      obtain ⟨lead, passed⟩ := own
      by_cases unchanged : passed = skips
      · rw [← same unchanged]
        cases lead with
        | none => exact unchanged ▸ chainLead_skips others passed
        | _ => exact ⟨grows, fun _ => rfl⟩
      · have more : skips < passed := Nat.lt_of_le_of_ne grows (Ne.symm unchanged)
        cases lead with
        | none =>
            have later := (chainLead_skips others passed).1
            refine ⟨Nat.le_trans grows later, fun back => ?_⟩
            exact absurd (back ▸ later) (Nat.not_le_of_gt more)
        | _ => exact ⟨grows, fun back => absurd back unchanged⟩

/-- A search that passes over nothing ends as it does while no lookup is in progress. -/
theorem localLead_eq_start {context : ResolutionContext} {scope : ScopeId} {e : Expr}
    (quiet : (source.localLead context trail scope e).skips = 0) :
    source.localLead context trail scope e = source.localLead context Trail.start scope e := by
  cases e with
  | call span callee arguments keywords =>
      simp only [localLead] at quiet ⊢
      split
      case isFalse => rfl
      case isTrue follows =>
        simp only [follows, ↓reduceIte] at quiet
        split
        case h_1 => rfl
        case h_2 function called =>
          simp only [called] at quiet
          split
          case h_1 => rfl
          case h_2 bare =>
            simp only [bare] at quiet
            split
            · rfl
            case isFalse some =>
              split
              case isTrue cut =>
                simp only [some, cut, ↓reduceIte, Bool.false_eq_true, Nat.one_ne_zero] at quiet
              case isFalse =>
                have idle : (source.exitKeys function).any Trail.start.visited.contains = false :=
                  List.any_eq_false.mpr fun key _ => by simp [Trail.start]
                simp only [idle, Bool.false_eq_true, ↓reduceIte]
  | _ => rfl

end Source

namespace Resolver

variable {resolver : Resolver} {α β : Type}

/-- A strategy that passes over nothing says what it says while no lookup is in progress. -/
theorem search_eq_start {trail : Trail} {scope : ScopeId} {e : Expr} {strategy : Strategy}
    (quiet : (resolver.search trail scope e strategy).skips = 0) :
    resolver.search trail scope e strategy = resolver.search Trail.start scope e strategy := by
  cases strategy with
  | localDefinition => exact Source.localLead_eq_start quiet
  | assignment =>
      cases e with
      | symbol span name => exact (Source.chainLead_skips _ 0).2 quiet
      | _ => rfl
  | _ => rfl

/-- What a request ends with. -/
def outcome (request : Resolve α) (memory : Memory) : Except Fault α :=
  match request memory with
  | .ok value _ => .ok value
  | .error fault _ => .error fault

/-- The memory after a request. -/
def after (request : Resolve α) (memory : Memory) : Memory :=
  match request memory with
  | .ok _ next | .error _ next => next

/-- A memory holds only what pursuing the exits of functions finds. -/
def Sound (resolver : Resolver) (memory : Memory) : Prop :=
  ∀ function types, (function, types) ∈ memory.memo →
    resolver.Ends (resolver.pursueExits function [] (resolver.source.scopes.get function).exits)
      (.ok types)

/-- From `memory` on, a request keeps the memory sound, and it ends as the pursuit does
unless something is passed over or an exempt fault ends it. -/
structure Agrees (resolver : Resolver) (exempt : Fault → Prop) (request : Resolve α)
    (pursuit : Pursuit α) (memory : Memory) : Prop where
  grows : memory.skips ≤ (after request memory).skips
  sound : resolver.Sound (after request memory)
  quiet : (after request memory).skips = memory.skips →
    (∃ fault, exempt fault ∧ outcome request memory = .error fault) ∨
      resolver.Ends pursuit (outcome request memory)

/-- A request agrees with a pursuit from every sound memory on. -/
def Follows (resolver : Resolver) (exempt : Fault → Prop) (request : Resolve α)
    (pursuit : Pursuit α) : Prop :=
  ∀ memory, resolver.Sound memory → resolver.Agrees exempt request pursuit memory

variable {exempt spared : Fault → Prop} {request : Resolve α} {pursuit : Pursuit α}
  {whole rest : Resolve β} {entire more : Pursuit β} {memory middle : Memory}

/-- A request that passes over nothing ends as its pursuit does. -/
theorem Agrees.ends (agrees : resolver.Agrees (fun _ => False) request pursuit memory)
    (calm : (after request memory).skips = memory.skips) :
    resolver.Ends pursuit (outcome request memory) := by
  obtain ⟨fault, impossible, -⟩ | found := agrees.quiet calm
  · exact impossible.elim
  · exact found

/-- A request that goes on after another one agrees with a pursuit if what it goes on with
does: nothing is passed over in all if nothing is passed over in either. -/
theorem Agrees.andThen (head : resolver.Agrees spared request pursuit memory)
    (leaving : after request memory = middle) (continues : whole memory = rest middle)
    (tail : resolver.Follows exempt rest more)
    (pursued : (∃ fault, spared fault ∧ outcome request memory = .error fault) ∨
      resolver.Ends pursuit (outcome request memory) →
        ∀ result, resolver.Ends more result → resolver.Ends entire result) :
    resolver.Agrees exempt whole entire memory := by
  obtain ⟨grows, sound, quiet⟩ := head
  rw [leaving] at grows sound quiet
  obtain ⟨further, kept, calm⟩ := tail middle sound
  have ended : outcome whole memory = outcome rest middle := by simp only [outcome, continues]
  have left : after whole memory = after rest middle := by
    simp only [after.eq_def whole, after.eq_def rest, continues]
  refine ⟨left ▸ Nat.le_trans grows further, left ▸ kept, fun same => ?_⟩
  rw [left] at same
  have unchanged : middle.skips = memory.skips := Nat.le_antisymm (same ▸ further) grows
  rw [ended]
  exact (calm (same.trans unchanged.symm)).imp_right (pursued (quiet unchanged) _)

/-- A request that found something agrees with the rest of its pursuit. -/
theorem Agrees.thenOk {value : α} (head : resolver.Agrees spared request pursuit memory)
    (step : request memory = .ok value middle) (continues : whole memory = rest middle)
    (tail : resolver.Follows exempt rest more)
    (pursued : resolver.Ends pursuit (.ok value) →
      ∀ result, resolver.Ends more result → resolver.Ends entire result) :
    resolver.Agrees exempt whole entire memory := by
  refine head.andThen (by simp only [after, step]) continues tail fun quiet => ?_
  simp only [outcome, step, reduceCtorEq, and_false, exists_false, false_or] at quiet
  exact pursued quiet

/-- A request that failed agrees with what the pursuit makes of its fault. -/
theorem Agrees.thenError {fault : Fault} (head : resolver.Agrees spared request pursuit memory)
    (step : request memory = .error fault middle) (continues : whole memory = rest middle)
    (tail : resolver.Follows exempt rest more)
    (pursued : spared fault ∨ resolver.Ends pursuit (.error fault) →
      ∀ result, resolver.Ends more result → resolver.Ends entire result) :
    resolver.Agrees exempt whole entire memory := by
  refine head.andThen (by simp only [after, step]) continues tail fun quiet => ?_
  simp only [outcome, step, Except.error.injEq, exists_eq_right'] at quiet
  exact pursued quiet

/-- A request that passes over something before it goes on agrees with every pursuit. -/
theorem Agrees.afterSkip (skipped : memory.skips < middle.skips)
    (continues : whole memory = rest middle) (tail : resolver.Agrees spared rest more middle) :
    resolver.Agrees exempt whole entire memory := by
  have left : after whole memory = after rest middle := by
    simp only [after.eq_def whole, after.eq_def rest, continues]
  have further : memory.skips < (after whole memory).skips :=
    left ▸ Nat.lt_of_lt_of_le skipped tail.grows
  exact ⟨Nat.le_of_lt further, left ▸ tail.sound,
    fun same => absurd same (Nat.ne_of_gt further)⟩

namespace Follows

theorem pure (value : α) : resolver.Follows exempt (pure value) (pure value) :=
  fun _ sound => ⟨Nat.le_refl _, sound, fun _ => .inr (.done _)⟩

theorem throw (fault : Fault) :
    resolver.Follows exempt (throw fault : Resolve α) (.done (.error fault)) :=
  fun _ sound => ⟨Nat.le_refl _, sound, fun _ => .inr (.done _)⟩

/-- What follows the pursuit of an expression follows the question for its types. -/
theorem asked {search : Resolve Alternatives} {scope : ScopeId} {e : Expr}
    (follows : resolver.Follows exempt search (resolver.pursue scope e)) :
    resolver.Follows exempt search (Pursuit.types scope e) := by
  intro memory sound
  obtain ⟨grows, still, quiet⟩ := follows memory sound
  exact ⟨grows, still, fun same => (quiet same).imp_right Ends.types⟩

/-- An exempt fault agrees with any pursuit. -/
theorem of_exempt {fault : Fault} (spared : exempt fault) (pursuit : Pursuit α) :
    resolver.Follows exempt (MonadExcept.throw fault) pursuit :=
  fun _ sound => ⟨Nat.le_refl _, sound, fun _ => .inl ⟨fault, spared, rfl⟩⟩

/-- Being nested too deeply is exempt. -/
theorem tooDeep (depth : Nat) (pursuit : Pursuit α) :
    resolver.Follows Deep (resolver.tooDeep depth) pursuit := by
  have deep : Deep ⟨.recursionGuardTripped depth, ⟨0, resolver.source.file⟩⟩ := rfl
  exact of_exempt deep pursuit

theorem mono (follows : resolver.Follows spared request pursuit)
    (weaker : ∀ fault, spared fault → exempt fault) :
    resolver.Follows exempt request pursuit := by
  intro memory sound
  obtain ⟨grows, still, quiet⟩ := follows memory sound
  refine ⟨grows, still, fun same => ?_⟩
  obtain ⟨fault, passes, ended⟩ | found := quiet same
  · exact .inl ⟨fault, weaker fault passes, ended⟩
  · exact .inr found

/-- Requests in turn follow pursuits in turn. -/
theorem bind {others : α → Resolve β} {further : α → Pursuit β}
    (head : resolver.Follows exempt request pursuit)
    (tail : ∀ value, resolver.Follows exempt (others value) (further value)) :
    resolver.Follows exempt (request >>= others) (pursuit >>= further) := by
  intro memory sound
  have first := head memory sound
  cases step : request memory with
  | ok value middle =>
      refine first.thenOk step ?_ (tail value) fun found result => found.bind
      simp only [Bind.bind, EStateM.bind, step]
  | error fault middle =>
      have stops : (request >>= others) memory = (MonadExcept.throw fault : Resolve β) middle := by
        simp only [Bind.bind, EStateM.bind, step]
        rfl
      by_cases exempted : exempt fault
      · exact first.thenError step stops (of_exempt exempted (pursuit >>= further)) fun _ _ => id
      · refine first.thenError step stops (Follows.throw fault) fun quiet result ends => ?_
        cases ends
        exact (quiet.resolve_left exempted).bind_error further

/-- Passing something over agrees with any pursuit, and passing over nothing with the rest. -/
theorem skipping (count : Nat) (more : Pursuit β) (tail : resolver.Follows exempt rest more)
    (unskipped : count = 0 → entire = more) :
    resolver.Follows exempt (skip count >>= fun _ => rest) entire := by
  intro memory sound
  obtain rfl | some := Nat.eq_zero_or_pos count
  · rw [unskipped rfl]
    exact tail memory sound
  · have skipped : memory.skips < memory.skips + count := Nat.lt_add_of_pos_right some
    have continues : (skip count >>= fun _ => rest) memory =
        rest ⟨memory.memo, memory.skips + count⟩ := rfl
    exact Agrees.afterSkip skipped continues (tail _ sound)

/-- Values follow themselves, and going on follows going on. -/
theorem congruence : Congruence fun α (request : Resolve α) (pursuit : Pursuit α) =>
    resolver.Follows exempt request pursuit where
  pure := .pure
  bind := .bind

end Follows

/-- The exits of a function follow their pursuit if each of them does. -/
theorem exitAlternatives_follows {trail : Trail} {scope : ScopeId} (exits : List Expr)
    (found : Alternatives)
    (each : ∀ e ∈ exits, resolver.Follows (fun _ => False) (resolver.alternatives trail scope e)
      (Pursuit.types scope e)) :
    resolver.Follows (fun _ => False) (resolver.exitAlternatives trail scope found exits)
      (resolver.pursueExits scope found exits) := by
  induction exits generalizing found with
  | nil =>
      rw [exitAlternatives, pursueExits]
      exact .pure found
  | cons exit others ih =>
      have later := fun e member => each e (List.mem_cons_of_mem exit member)
      intro memory sound
      have first := each exit List.mem_cons_self memory sound
      -- How the exit itself ends decides with which types the others are joined.
      cases step : resolver.alternatives trail scope exit memory with
      | ok types middle =>
          refine first.thenOk step ?_
            (ih (Alternatives.extend found types) later)
            fun ended result further => ?_
          · rw [exitAlternatives]
            simp only [step]
          · rw [pursueExits]
            exact ended.answer further
      | error fault middle =>
          by_cases caught : fault.isRecoverable
          · refine first.thenError step ?_
              (ih (Alternatives.add found (.unresolved (resolver.source.textOf exit.span))) later)
              fun ended result further => (ended.resolve_left id).answer ?_
            · rw [exitAlternatives]
              simp only [step, caught, ↓reduceIte]
            · simpa only [caught, ↓reduceIte] using further
          · refine first.thenError step ?_ (Follows.throw fault)
              fun ended result further => (ended.resolve_left id).answer ?_
            · rw [exitAlternatives]
              simp only [step, caught]
              rfl
            · simpa only [caught, Bool.false_eq_true, ↓reduceIte] using further

/-- Strategies in turn follow their pursuit if each of them does. -/
theorem firstFinding_follows {trail : Trail} {scope : ScopeId} {e : Expr}
    (strategies : List Strategy)
    (each : ∀ strategy, resolver.Follows Deep (resolver.attempt trail scope e strategy)
      (resolver.pursueStrategy scope e strategy)) :
    resolver.Follows (fun _ => False) (resolver.firstFinding trail scope e strategies)
      (resolver.pursueFirst scope e strategies) := by
  induction strategies with
  | nil =>
      rw [firstFinding, pursueFirst]
      exact .pure _
  | cons strategy others ih =>
      intro memory sound
      have first := each strategy memory sound
      cases step : resolver.attempt trail scope e strategy memory with
      | ok finding middle =>
          cases finding with
          | none =>
              refine first.thenOk step ?_ ih fun ended result further => ?_
              · rw [firstFinding]
                simp only [step]
              · rw [pursueFirst]
                exact ended.bind further
          | some finding =>
              refine first.thenOk step ?_ (.pure (resolver.context.format.classify finding))
                fun ended result further => ?_
              · rw [firstFinding]
                simp only [step]
                rfl
              · rw [pursueFirst]
                exact ended.bind further
      | error fault middle =>
          by_cases deep : Deep fault
          · -- The fault of the bound is caught, and what it cut counts as passed over.
            have left : after (resolver.attempt trail scope e strategy) memory = middle := by
              simp only [after, step]
            have skipped : memory.skips < middle.skips + 1 :=
              Nat.lt_succ_of_le (left ▸ first.grows)
            refine Agrees.afterSkip skipped ?_
              (ih ⟨middle.memo, middle.skips + 1⟩ (left ▸ first.sound))
            rw [firstFinding]
            simp only [step, deep, ↓reduceIte]
          · refine first.thenError step ?_ (Follows.throw fault) fun ended result ends => ?_
            · rw [firstFinding]
              simp only [step, deep]
              rfl
            · cases ends
              exact (ended.resolve_left deep).bind_error _

/-- A request that reads a sound memory may use that it is sound. -/
theorem Follows.reading {use : Memory → Resolve α}
    (each : ∀ memory, resolver.Sound memory → resolver.Agrees exempt (use memory) pursuit memory) :
    resolver.Follows exempt (get >>= use) pursuit :=
  fun memory sound => ⟨(each memory sound).grows, (each memory sound).sound,
    (each memory sound).quiet⟩

/-- What is found without anything passed over may be remembered. -/
theorem Agrees.remembering {function : ScopeId} {search : Resolve Alternatives}
    (finish : Alternatives → α)
    (head : resolver.Agrees (fun _ => False) search
      (resolver.pursueExits function [] (resolver.source.scopes.get function).exits) memory) :
    resolver.Agrees exempt
      (do
        let types ← search
        remember function memory.skips types
        return finish types)
      (do
        let types ←
          resolver.pursueExits function [] (resolver.source.scopes.get function).exits
        return finish types)
      memory := by
  cases step : search memory with
  | ok types middle =>
      have grows := head.grows
      have sound := head.sound
      simp only [after, step] at grows sound
      have result : (do
            let types ← search
            remember function memory.skips types
            return finish types : Resolve α) memory =
          .ok (finish types) (if middle.skips = memory.skips then
            { middle with memo := (function, types) :: middle.memo } else middle) := by
        simp only [Bind.bind, EStateM.bind, step]
        rfl
      -- The types are remembered only if nothing was passed over, and then the pursuit found them.
      by_cases calm : middle.skips = memory.skips
      · have pursued := head.ends (by simpa only [after, step] using calm)
        simp only [outcome, step] at pursued
        rw [if_pos calm] at result
        refine ⟨?_, ?_, fun _ => .inr ?_⟩
        · simpa only [after, result] using grows
        · simp only [after, result]
          intro known kinds member
          obtain own | earlier := List.mem_cons.mp member
          · cases own
            exact pursued
          · exact sound known kinds earlier
        · simp only [outcome, result]
          exact pursued.bind (.done _)
      · rw [if_neg calm] at result
        refine ⟨?_, ?_, fun same => ?_⟩
        · simpa only [after, result] using grows
        · simpa only [after, result] using sound
        · simp only [after, result] at same
          exact absurd same calm
  | error fault middle =>
      refine head.thenError step ?_ (Follows.throw fault) fun ended result ends => ?_
      · simp only [Bind.bind, EStateM.bind, step]
        rfl
      · cases ends
        exact (ended.resolve_left id).bind_error _

/-- A strategy follows its pursuit if what it asks for does. -/
theorem attempt_follows {trail : Trail} {scope : ScopeId} {e : Expr} (strategy : Strategy)
    (asked : ∀ next : Request, resolver.Asks ⟨trail, scope, e⟩ next →
      resolver.Follows (fun _ => False) (resolver.alternatives next.trail next.scope next.expr)
        (Pursuit.types next.scope next.expr)) :
    resolver.Follows Deep (resolver.attempt trail scope e strategy)
      (resolver.pursueStrategy scope e strategy) := by
  rw [attempt.eq_def]
  split
  case h_1 object property found =>
    rw [pursueStrategy.eq_def]
    simp only [found]
    split
    · exact .pure _
    · exact .bind ((asked _ (.receiver found)).mono fun _ => False.elim) fun types => .pure _
  case h_2 strategy _ other =>
    have pursued : resolver.pursueStrategy scope e strategy =
        resolver.pursueLead (resolver.search Trail.start scope e strategy).lead := by
      rw [pursueStrategy]
      exact other
    -- A search that passes something over may find anything; else it finds what it does at the
    -- start.
    refine .skipping _ (resolver.pursueLead (resolver.search trail scope e strategy).lead) ?_
      fun unskipped => by rw [pursued, search_eq_start unskipped]
    split
    case h_1 found =>
      rw [found, pursueLead]
      exact .pure _
    case h_2 found =>
      rw [found, pursueLead]
      exact .pure _
    case h_3 found =>
      rw [found, pursueLead]
      exact .pure _
    case h_4 outer value found =>
      rw [found, pursueLead]
      split
      case isTrue below =>
        exact .bind ((asked _ (.value found below)).mono fun _ => False.elim) fun types => .pure _
      case isFalse => exact .tooDeep _ _
    case h_5 function found =>
      rw [found, pursueLead]
      refine .reading fun memory sound => ?_
      split
      case h_1 types kept =>
        obtain ⟨front, back, split, -⟩ := List.lookup_eq_some_iff.mp kept
        -- What is remembered was found by a pursuit of the exits, for the memory is sound.
        have known := sound function types
          (split ▸ List.mem_append_right front List.mem_cons_self)
        refine ⟨Nat.le_refl _, sound, fun _ => .inr ?_⟩
        exact known.bind (.done _)
      case h_2 =>
        split
        case isTrue below =>
          have exits := exitAlternatives_follows (resolver.source.scopes.get function).exits []
            (fun exit member => asked _ (.exit found below member)) memory sound
          exact exits.remembering (fun types => some (Finding.types types))
        case isFalse => exact Follows.tooDeep _ _ memory sound

/-- A resolution finds what a pursuit finds unless something is passed over on the way. -/
theorem alternatives_follows (trail : Trail) (scope : ScopeId) (e : Expr) :
    resolver.Follows (fun _ => False) (resolver.alternatives trail scope e)
      (Pursuit.types scope e) := by
  induction trail, scope, e using resolver.request_induction with
  | step trail scope e ih =>
      have reference : resolver.Follows (fun _ => False)
          (resolver.firstFinding trail scope e resolver.strategies)
          (resolver.pursueFirst scope e resolver.strategies) :=
        firstFinding_follows _ fun strategy => attempt_follows strategy ih
      refine .asked ?_
      rw [alternatives_assembled, pursue_assembled]
      exact Follows.congruence.assemble (resolver.inquiry trail scope e)
        (resolver.pursuedInquiry scope e) (fun child member => ih _ (.part member)) reference
        fun construct _ => .throw _

/-- The memories that requests come to: expressions are resolved and strategies are tried
one after the other, whatever lookups are in progress, and things are passed over. -/
inductive Reachable (resolver : Resolver) : Memory → Prop
  | empty : Reachable resolver Memory.empty
  | resolve {memory : Memory} (reached : Reachable resolver memory) (trail : Trail)
      (scope : ScopeId) (e : Expr) :
      Reachable resolver (after (resolver.alternatives trail scope e) memory)
  | attempt {memory : Memory} (reached : Reachable resolver memory) (trail : Trail)
      (scope : ScopeId) (e : Expr) (strategy : Strategy) :
      Reachable resolver (after (resolver.attempt trail scope e strategy) memory)
  | skip {memory : Memory} (reached : Reachable resolver memory) (count : Nat) :
      Reachable resolver (after (Resolver.skip count) memory)

/-- Every memory that requests come to is sound. -/
theorem Reachable.sound (reached : resolver.Reachable memory) : resolver.Sound memory := by
  induction reached with
  | empty => exact fun _ _ member => absurd member List.not_mem_nil
  | resolve reached trail scope e ih => exact (alternatives_follows trail scope e _ ih).sound
  | attempt reached trail scope e strategy ih =>
      exact (attempt_follows strategy (fun _ _ => alternatives_follows _ _ _) _ ih).sound
  | skip reached count ih => exact ih

/-- The types of everything that a function returns and yields. -/
def functionExits (resolver : Resolver) (trail : Trail) (function : ScopeId) :
    Resolve Alternatives :=
  resolver.exitAlternatives trail function [] (resolver.source.scopes.get function).exits

/-- Whatever requests came before and whatever lookups are in progress, resolutions of one
expression that pass over nothing end alike; and what is remembered of a function is what
every resolution of its exits that passes over nothing finds. -/
theorem quiet_resolutions_agree {first second : Memory} (reached : resolver.Reachable first)
    (others : resolver.Reachable second) :
    (∀ (trail elsewhere : Trail) (scope : ScopeId) (e : Expr),
      (after (resolver.alternatives trail scope e) first).skips = first.skips →
      (after (resolver.alternatives elsewhere scope e) second).skips = second.skips →
        outcome (resolver.alternatives trail scope e) first =
          outcome (resolver.alternatives elsewhere scope e) second) ∧
    ∀ (function : ScopeId) (types : Alternatives), (function, types) ∈ first.memo →
      ∀ trail : Trail,
        (after (resolver.functionExits trail function) second).skips = second.skips →
          outcome (resolver.functionExits trail function) second = .ok types := by
  constructor
  · intro trail elsewhere scope e calm quiet
    have found := (alternatives_follows trail scope e first reached.sound).ends calm
    have again := (alternatives_follows elsewhere scope e second others.sound).ends quiet
    exact found.unique again
  · intro function types kept trail quiet
    have remembered := reached.sound function types kept
    have follows := exitAlternatives_follows (resolver.source.scopes.get function).exits []
      (fun exit _ => alternatives_follows trail function exit) second others.sound
    exact (follows.ends quiet).unique remembered

/-- A strategy without a lead finds nothing. -/
theorem attempt_of_none {resolver : Resolver} {trail : Trail} {scope : ScopeId} {e : Expr}
    {strategy : Strategy} (plain : e.literalReceiver? = none)
    (nothing : resolver.search trail scope e strategy = ⟨.none, 0⟩) :
    resolver.attempt trail scope e strategy = pure none := by
  rw [attempt.eq_def]
  split
  case h_1 found => exact absurd (plain.symm.trans found) (by simp)
  case h_2 =>
    simp only [nothing]
    rfl

/-- The call at the end of the text `def f(): return 1` and `f()`. -/
def constantCall : Expr := .call ⟨18, 21⟩ (.symbol ⟨18, 19⟩ "f") [] []

/-- A resolver for the text of `constantCall`, without overrides. -/
def constantFunction : Resolver :=
  (Source.ofProgram "def f(): return 1\nf()" "m.py"
    ⟨[.function ⟨0, 17⟩ "f" ⟨[], none⟩ [.ret ⟨9, 17⟩ (some (.number ⟨16, 17⟩ .int "1"))] [] false,
      .expression ⟨18, 21⟩ constantCall], ⟨0, 21⟩⟩).resolver { overrides := .empty }

/-- The function returns an integer, whatever is remembered. -/
theorem constantFunction_exits (trail : Trail) (memory : Memory) :
    constantFunction.functionExits trail 1 memory = .ok [.leaf "int"] memory := by
  have exits : (constantFunction.source.scopes.get 1).exits = [.number ⟨16, 17⟩ .int "1"] := by
    with_unfolding_all rfl
  rw [functionExits, exits, exitAlternatives, alternatives]
  simp only [pure, EStateM.pure, exitAlternatives]
  rfl

/-- A call gives what its local definition gives. -/
theorem constantFunction_call (memory next : Memory)
    (called : constantFunction.attempt Trail.start 0 constantCall .localDefinition memory =
      .ok (some (.types [.leaf "int"])) next) :
    constantFunction.alternatives Trail.start 0 constantCall memory = .ok [.leaf "int"] next := by
  have standard : constantFunction.strategies = Strategy.standard := rfl
  have plain : constantCall.literalReceiver? = none := rfl
  rw [constantCall, alternatives, ← constantCall, standard, Strategy.standard, firstFinding,
    attempt_of_none plain (by with_unfolding_all rfl), firstFinding,
    attempt_of_none plain (by with_unfolding_all rfl), firstFinding]
  simp only [pure, EStateM.pure, called]
  rfl

/-- The call leads to the exits of its function. -/
theorem constantFunction_lead :
    constantFunction.search Trail.start 0 constantCall .localDefinition = ⟨.exits 1, 0⟩ := by
  with_unfolding_all rfl

/-- The first call is resolved by the exits, which are remembered. -/
theorem constantFunction_call_empty :
    constantFunction.alternatives Trail.start 0 constantCall Memory.empty =
      .ok [.leaf "int"] ⟨[(1, [.leaf "int"])], 0⟩ := by
  refine constantFunction_call _ _ ?_
  rw [attempt.eq_def]
  simp only [constantFunction_lead]
  change EStateM.bind (constantFunction.functionExits _ 1) _ Memory.empty = _
  simp only [EStateM.bind, constantFunction_exits]
  rfl

/-- A later call is resolved by what is remembered. -/
theorem constantFunction_call_known (skips : Nat) :
    constantFunction.alternatives Trail.start 0 constantCall ⟨[(1, [.leaf "int"])], skips⟩ =
      .ok [.leaf "int"] ⟨[(1, [.leaf "int"])], skips⟩ := by
  refine constantFunction_call _ _ ?_
  rw [attempt.eq_def]
  simp only [constantFunction_lead]
  rfl

/-- A call is resolved alike before and after its function is remembered. -/
theorem quiet_resolutions_agree_constant_call :
    constantFunction.Reachable ⟨[(1, [.leaf "int"])], 0⟩ ∧
      outcome (constantFunction.alternatives Trail.start 0 constantCall) Memory.empty =
        outcome (constantFunction.alternatives Trail.start 0 constantCall)
          ⟨[(1, [.leaf "int"])], 0⟩ ∧
      outcome (constantFunction.functionExits Trail.start 1) Memory.empty =
        .ok [.leaf "int"] := by
  have known : constantFunction.Reachable ⟨[(1, [.leaf "int"])], 0⟩ := by
    have start : constantFunction.Reachable Memory.empty := .empty
    have reached := start.resolve Trail.start 0 constantCall
    rwa [after, constantFunction_call_empty] at reached
  refine ⟨known, (quiet_resolutions_agree .empty known).1 _ _ _ _ ?_ ?_,
    (quiet_resolutions_agree known .empty).2 _ _ List.mem_cons_self _ ?_⟩
  · rw [after, constantFunction_call_empty]
    rfl
  · rw [after, constantFunction_call_known]
  · rw [after, constantFunction_exits]

end Resolver

end DocSketch
