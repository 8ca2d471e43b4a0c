import DocSketch.Proofs.Resolution.Sessions

/-!
# Marks are taken back

A resolution that marks what it visits ends as one that hands the lookups in progress down,
whether it finds types or fails.  It takes back exactly the marks that it added, nests lookups
no deeper than allowed, and forgets nothing.

* `Memory.Retained`: nothing that was remembered is lost.
* `Resolver.search_congr`: only which expressions are visited counts.
* `Resolver.Mirrors`: a resolution with marks does what one without them does.
* `Resolver.track_restores`: all that a resolution leaves behind is what it remembers.
-/

namespace DocSketch

/-! ## Marks -/

namespace Session

/-- The fresh keys are those that are not yet visited. -/
theorem mem_fresh {visited keys : List VisitKey} {key : VisitKey} :
    key ∈ fresh visited keys ↔ key ∈ keys ∧ key ∉ visited := by
  induction keys generalizing visited with
  | nil => simp [fresh]
  | cons first keys ih =>
      rw [fresh]
      split
      case isTrue known =>
        rw [ih, List.mem_cons]
        constructor
        · exact fun ⟨member, unknown⟩ => ⟨.inr member, unknown⟩
        · rintro ⟨rfl | member, unknown⟩
          · exact absurd known unknown
          · exact ⟨member, unknown⟩
      case isFalse unknown =>
        rw [List.mem_cons, ih, List.mem_cons, List.mem_cons, not_or]
        by_cases same : key = first
        · simp [same, unknown]
        · simp [same]

/-- Taking back the marks that were added leaves those that were there. -/
theorem filter_fresh (visited keys : List VisitKey) :
    (fresh visited keys ++ visited).filter (· ∉ fresh visited keys) = visited := by
  have added : (fresh visited keys).filter (· ∉ fresh visited keys) = [] :=
    List.filter_eq_nil_iff.mpr fun key member => by simpa using member
  have present : visited.filter (· ∉ fresh visited keys) = visited :=
    List.filter_eq_self.mpr fun key member => by simp [mem_fresh, member]
  rw [List.filter_append, added, present, List.nil_append]

/-- The lookups in progress are those of a trail. -/
structure On (session : Session) (trail : Trail) : Prop where
  visited : ∀ key, key ∈ session.visited ↔ key ∈ trail.visited
  depth : session.depth = trail.depth

/-- The lookups in progress stay those of the trail when a lookup starts. -/
theorem On.enter {session : Session} {trail : Trail} (on : session.On trail)
    (keys : List VisitKey) :
    (session.enter (fresh session.visited keys)).On (trail.enter keys) where
  visited key := by
    simp only [Session.enter, Trail.enter, List.mem_append, mem_fresh, ← on.visited]
    by_cases known : key ∈ session.visited
    · simp [known]
    · simp [known]
  depth := congrArg (· + 1) on.depth

end Session

/-! ## Only membership counts -/

namespace Source

variable {source : Source} {trail other : Trail}

/-- The lead of a parameter depends on what is visited only. -/
theorem parameterLead_congr
    (same : ∀ key, trail.visited.contains key = other.visited.contains key)
    (scope : Scope) (parameter : Parameter Expr) (skips : Nat) :
    source.parameterLead trail scope parameter skips =
      source.parameterLead other scope parameter skips := by
  simp only [parameterLead, same]

/-- The lead of a name in a scope depends on what is visited only. -/
theorem scopeLead_congr (same : ∀ key, trail.visited.contains key = other.visited.contains key)
    (scope : Scope) (name : String) (assignments : List Assignment) (skips : Nat) :
    source.scopeLead trail scope name skips assignments =
      source.scopeLead other scope name skips assignments := by
  induction assignments generalizing skips with
  | nil => simp only [scopeLead, parameterLead_congr same]
  | cons assignment others ih => simp only [scopeLead, same, ih]

/-- The lead of a name in a chain of scopes depends on what is visited only. -/
theorem chainLead_congr (same : ∀ key, trail.visited.contains key = other.visited.contains key)
    (name : String) (chain : List ScopeId) (skips : Nat) :
    source.chainLead trail name skips chain = source.chainLead other name skips chain := by
  induction chain generalizing skips with
  | nil => rfl
  | cons id others ih => simp only [chainLead, scopeLead_congr same, ih]

/-- A search depends on what is visited only. -/
theorem localLead_congr (same : ∀ key, trail.visited.contains key = other.visited.contains key)
    (context : ResolutionContext) (scope : ScopeId) (e : Expr) :
    source.localLead context trail scope e = source.localLead context other scope e := by
  cases e with
  | call span callee arguments keywords => simp only [localLead, funext same]
  | _ => rfl

end Source

/-- Nothing that was remembered is lost. -/
structure Memory.Retained (memory next : Memory) : Prop where
  skips : memory.skips ≤ next.skips
  memo : ∀ function types, memory.memo.lookup function = some types →
    next.memo.lookup function = some types

theorem Memory.Retained.refl (memory : Memory) : memory.Retained memory :=
  ⟨Nat.le_refl _, fun _ _ => id⟩

theorem Memory.Retained.trans {first second third : Memory} (head : first.Retained second)
    (tail : second.Retained third) : first.Retained third :=
  ⟨Nat.le_trans head.skips tail.skips,
    fun function types known => tail.memo function types (head.memo function types known)⟩

namespace Resolver

variable {resolver : Resolver} {α β : Type}

/-- What a strategy says depends on which expressions are visited only. -/
theorem search_congr {session : Session} {trail : Trail} (on : session.On trail) (scope : ScopeId)
    (e : Expr) (strategy : Strategy) :
    resolver.search session.trail scope e strategy = resolver.search trail scope e strategy := by
  have same : ∀ key, session.trail.visited.contains key = trail.visited.contains key := by
    intro key
    rw [Bool.eq_iff_iff, List.contains_iff_mem, List.contains_iff_mem]
    exact on.visited key
  cases strategy with
  | localDefinition => exact Source.localLead_congr same _ _ _
  | assignment =>
      cases e with
      | symbol span name => exact Source.chainLead_congr same _ _ _
      | _ => rfl
  | _ => rfl

/-! ## Resolutions with and without marks -/

/-- From `session` on, a resolution with marks ends as one without them, which retains what is
remembered; of the rest of the session only the peak changes, within its bound. -/
structure Mirrored (tracked : Tracked α) (request : Resolve α) (session : Session) : Prop where
  ends : ∃ peak, session.peak ≤ peak ∧ peak ≤ max session.peak maxDepth ∧
    tracked session = { session with peak := peak }.attach (request session.memory)
  retained : session.memory.Retained (after request session.memory)

/-- A resolution with marks does what one without them does where the lookups of a trail are
in progress. -/
def Mirrors (trail : Trail) (tracked : Tracked α) (request : Resolve α) : Prop :=
  ∀ session : Session, session.On trail → Mirrored tracked request session

variable {trail : Trail} {tracked : Tracked α} {request : Resolve α}

namespace Mirrors

/-- A request that loses nothing mirrors itself, for it touches no mark. -/
theorem onMemory (retained : ∀ memory : Memory, memory.Retained (after request memory)) :
    Mirrors trail (Tracked.onMemory request) request :=
  fun session _ => ⟨⟨session.peak, Nat.le_refl _, Nat.le_max_left _ _, rfl⟩, retained _⟩

theorem pure (value : α) : Mirrors trail (pure value) (pure value) :=
  fun session _ =>
    ⟨⟨session.peak, Nat.le_refl _, Nat.le_max_left _ _, rfl⟩, .refl session.memory⟩

theorem throw (fault : Fault) :
    Mirrors trail (throw fault : Tracked α) (throw fault : Resolve α) :=
  fun session _ =>
    ⟨⟨session.peak, Nat.le_refl _, Nat.le_max_left _ _, rfl⟩, .refl session.memory⟩

/-- Going on with any ending is mirrored part by part. -/
theorem proceed {rest : Except Fault α → Tracked β} {further : Except Fault α → Resolve β}
    (head : Mirrors trail tracked request)
    (tail : ∀ result, Mirrors trail (rest result) (further result)) :
    Mirrors trail (Tracked.proceed tracked rest) (Resolver.proceed request further) := by
  intro session on
  obtain ⟨⟨peak, low, high, run⟩, kept⟩ := head session on
  -- What the resolution goes on from differs from the session in its peak and its memory.
  have next :
      Session.On { session with peak := peak, memory := after request session.memory } trail :=
    ⟨on.visited, on.depth⟩
  obtain ⟨⟨peak', low', high', run'⟩, kept'⟩ := tail (outcome request session.memory) _ next
  refine ⟨⟨peak', Nat.le_trans low low', ?_, ?_⟩, kept.trans kept'⟩
  · have bound : max peak maxDepth ≤ max session.peak maxDepth :=
      Nat.max_le.mpr ⟨high, Nat.le_max_right _ _⟩
    exact Nat.le_trans high' bound
  · have started : Tracked.proceed tracked rest session =
        rest (outcome request session.memory)
          { session with peak := peak, memory := after request session.memory } := by
      rw [Tracked.proceed, run, outcome, after]
      cases request session.memory <;> rfl
    rw [started, run', Resolver.proceed]
    cases further (outcome request session.memory) (after request session.memory) <;> rfl

/-- Going on with a value is mirrored part by part. -/
theorem bind {rest : α → Tracked β} {further : α → Resolve β}
    (head : Mirrors trail tracked request)
    (tail : ∀ value, Mirrors trail (rest value) (further value)) :
    Mirrors trail (tracked >>= rest) (request >>= further) := by
  have same : tracked >>= rest = Tracked.proceed tracked (Tracked.resume rest) := by
    funext session
    simp only [Bind.bind, EStateM.bind, Tracked.proceed]
    cases tracked session <;> rfl
  rw [same, bind_eq_proceed]
  refine head.proceed fun result => ?_
  cases result with
  | ok value => exact tail value
  | error fault => exact .throw fault

/-- A resolution may use what the session is, on the lookups of its trail. -/
theorem reading {use : Session → Tracked α}
    (each : ∀ session : Session, session.On trail → Mirrored (use session) request session) :
    Mirrors trail (get >>= use) request :=
  fun session on => ⟨(each session on).ends, (each session on).retained⟩

/-- A lookup between marks does what the lookup does one level deeper. -/
theorem visiting {keys : List VisitKey} (below : trail.depth < maxDepth)
    (lookup : Mirrors (trail.enter keys) tracked request) :
    Mirrors trail (resolver.visiting keys tracked) request := by
  intro session on
  have allowed : ¬maxDepth ≤ session.depth := by
    rw [on.depth]
    exact Nat.not_le_of_gt below
  obtain ⟨⟨peak, low, high, run⟩, kept⟩ := lookup _ (on.enter keys)
  have released : ∀ memory, Session.leave
      { session.enter (Session.fresh session.visited keys) with peak := peak, memory := memory }
      (Session.fresh session.visited keys) = { session with peak := peak, memory := memory } := by
    intro memory
    simp only [Session.leave, Session.enter, Session.filter_fresh, Nat.add_sub_cancel]
  simp only [Session.enter] at low high kept
  refine ⟨⟨peak, by omega, by omega, ?_⟩, kept⟩
  rw [Resolver.visiting, if_neg allowed]
  simp only [run]
  have unchanged : (session.enter (Session.fresh session.visited keys)).memory = session.memory :=
    rfl
  rw [unchanged]
  cases request session.memory with
  | ok value memory => simp only [Session.attach, released]
  | error fault memory => simp only [Session.attach, released]

/-- A lookup that is nested too deeply is refused on both sides. -/
theorem tooDeep {keys : List VisitKey} (deep : ¬trail.depth < maxDepth) :
    Mirrors trail (resolver.visiting keys tracked) (resolver.tooDeep trail.depth) := by
  intro session on
  have refused : maxDepth ≤ session.depth := by
    rw [on.depth]
    exact Nat.le_of_not_lt deep
  refine ⟨⟨session.peak, Nat.le_refl _, Nat.le_max_left _ _, ?_⟩, .refl session.memory⟩
  rw [Resolver.visiting, if_pos refused, ← on.depth]
  rfl

/-- Values mirror themselves, and going on mirrors going on. -/
theorem congruence : Congruence fun α (tracked : Tracked α) (request : Resolve α) =>
    Mirrors trail tracked request where
  pure := .pure
  bind := .bind

end Mirrors

/-- A request may read the memory of the session. -/
theorem Mirrored.reading {session : Session} {use : Memory → Resolve α}
    (own : Mirrored tracked (use session.memory) session) :
    Mirrored tracked (get >>= use) session :=
  ⟨own.ends, own.retained⟩

/-- Nothing comes behind a lookup that is nested too deeply. -/
theorem tooDeep_bind {depth : Nat} (rest : α → Resolve β) :
    (resolver.tooDeep depth >>= rest) = resolver.tooDeep depth := rfl

/-- Passing something over loses nothing. -/
theorem skip_retained (count : Nat) (memory : Memory) :
    memory.Retained (after (skip count) memory) :=
  ⟨Nat.le_add_right _ _, fun _ _ => id⟩

/-- What is remembered anew was not known before, so nothing is replaced. -/
theorem Mirrored.remembering {tracked : Tracked Alternatives} {request : Resolve Alternatives}
    {session : Session} {function : ScopeId} (head : Mirrored tracked request session)
    (unknown : session.memory.memo.lookup function = none) :
    Mirrored
      (do
        let types ← tracked
        Tracked.onMemory (remember function session.memory.skips types)
        return some (Finding.types types))
      (do
        let types ← request
        remember function session.memory.skips types
        return some (Finding.types types))
      session := by
  obtain ⟨⟨peak, low, high, run⟩, kept⟩ := head
  cases step : request session.memory with
  | ok types middle =>
      rw [after, step] at kept
      rw [step, Session.attach] at run
      refine ⟨⟨peak, low, high, ?_⟩, ?_⟩
      · simp only [Bind.bind, EStateM.bind, run, step]
        rfl
      · have result : after (do
              let types ← request
              remember function session.memory.skips types
              return some (Finding.types types) : Resolve (Option Finding)) session.memory =
            if middle.skips = session.memory.skips then
              { middle with memo := (function, types) :: middle.memo } else middle := by
          simp only [after, Bind.bind, EStateM.bind, step]
          rfl
        rw [result]
        split
        case isFalse => exact kept
        case isTrue =>
          refine ⟨kept.skips, fun other known found => ?_⟩
          have apart : (other == function) = false := by
            refine beq_eq_false_iff_ne.mpr ?_
            rintro rfl
            rw [unknown] at found
            cases found
          rw [List.lookup_cons, apart]
          exact kept.memo other known found
  | error fault middle =>
      rw [after, step] at kept
      rw [step, Session.attach] at run
      refine ⟨⟨peak, low, high, ?_⟩, ?_⟩
      · simp only [Bind.bind, EStateM.bind, run, step, Session.attach]
      · simpa only [after, Bind.bind, EStateM.bind, step] using kept

/-! ## All resolutions -/

section Resolutions

variable {levels : Nat} {scope : ScopeId}

/-- The exits of a function are mirrored if each of them is. -/
theorem trackExits_mirrors (exits : List Expr) (found : Alternatives)
    (each : ∀ e ∈ exits,
      Mirrors trail (resolver.track levels scope e) (resolver.alternatives trail scope e)) :
    Mirrors trail (resolver.trackExits levels scope found exits)
      (resolver.exitAlternatives trail scope found exits) := by
  induction exits generalizing found with
  | nil =>
      rw [trackExits, exitAlternatives]
      exact .pure found
  | cons exit others ih =>
      have later := fun e member => each e (List.mem_cons_of_mem exit member)
      rw [trackExits, exitAlternatives_cons]
      refine .proceed (each exit List.mem_cons_self) fun result => ?_
      cases result with
      | ok types => exact ih _ later
      | error fault =>
          dsimp only
          split
          · exact ih _ later
          · exact .throw fault

/-- Strategies in turn are mirrored if each of them is. -/
theorem trackFirst_mirrors {e : Expr} (strategies : List Strategy)
    (each : ∀ strategy, Mirrors trail (resolver.trackStrategy levels scope e strategy)
      (resolver.attempt trail scope e strategy)) :
    Mirrors trail (resolver.trackFirst levels scope e strategies)
      (resolver.firstFinding trail scope e strategies) := by
  induction strategies with
  | nil =>
      rw [trackFirst, firstFinding]
      exact .pure _
  | cons strategy others ih =>
      rw [trackFirst, firstFinding_cons]
      refine .proceed (each strategy) fun result => ?_
      cases result with
      | ok finding =>
          cases finding with
          | none => exact ih
          | some finding => exact .pure _
      | error fault =>
          dsimp only [conclude]
          split
          · exact .bind (.onMemory (skip_retained 1)) fun _ => ih
          · exact .throw fault

/-- A lookup one level deeper, where there is one. -/
theorem visiting_mirrors {keys : List VisitKey} {request : Resolve α} (body : Nat → Tracked α)
    (below : trail.depth < maxDepth)
    (lookup : Mirrors (trail.enter keys) (body (maxDepth - (trail.enter keys).depth)) request)
    (otherwise : Tracked α) :
    Mirrors trail
      (resolver.visiting keys
        (Tracked.descend (maxDepth - trail.depth) (fun fewer _ => body fewer) otherwise))
      request := by
  have levels : maxDepth - trail.depth = maxDepth - (trail.enter keys).depth + 1 := by
    simp only [Trail.enter]
    omega
  rw [levels]
  exact .visiting below lookup

/-- A lead is mirrored if what it asks for is. -/
theorem trackLead_mirrors {e : Expr} {strategy : Strategy} {lead : Lead}
    (found : (resolver.search trail scope e strategy).lead = lead)
    (asked : ∀ next : Request, resolver.Asks ⟨trail, scope, e⟩ next →
      Mirrors next.trail (resolver.track (maxDepth - next.trail.depth) next.scope next.expr)
        (resolver.alternatives next.trail next.scope next.expr)) :
    Mirrors trail (resolver.trackLead (maxDepth - trail.depth) lead)
      (resolver.followLead trail lead) := by
  cases lead with
  | none | label | types =>
      rw [trackLead]
      exact .pure _
  | value outer value =>
      rw [trackLead, followLead]
      split
      case isTrue below =>
        exact .bind (visiting_mirrors (fun fewer => resolver.track fewer outer value) below
          (asked _ (.value found below)) _) fun types => .pure _
      case isFalse deep =>
        rw [← tooDeep_bind fun types : Alternatives => pure (some (Finding.types types))]
        exact .bind (.tooDeep deep) fun types => .pure _
  | exits function =>
      rw [trackLead, followLead]
      refine .reading fun session on => .reading ?_
      cases known : session.memory.memo.lookup function with
      | some types => exact Mirrors.pure _ session on
      | none =>
          dsimp only
          split
          case isTrue below =>
            let inside := trail.enter (resolver.source.exitKeys function)
            have exits : Mirrors inside
                (resolver.trackExits (maxDepth - inside.depth) function []
                  (resolver.source.scopes.get function).exits)
                (resolver.functionExits inside function) :=
              trackExits_mirrors _ [] fun exit member => asked _ (.exit found below member)
            exact (visiting_mirrors (fun fewer => resolver.trackExits fewer function [] _) below
              exits _ session on).remembering known
          case isFalse deep =>
            rw [← tooDeep_bind fun types : Alternatives => do
              remember function session.memory.skips types
              pure (some (Finding.types types))]
            exact Mirrored.remembering (Mirrors.tooDeep deep session on) known

/-- A strategy is mirrored if what it asks for is. -/
theorem trackStrategy_mirrors {e : Expr} (strategy : Strategy)
    (asked : ∀ next : Request, resolver.Asks ⟨trail, scope, e⟩ next →
      Mirrors next.trail (resolver.track (maxDepth - next.trail.depth) next.scope next.expr)
        (resolver.alternatives next.trail next.scope next.expr)) :
    Mirrors trail (resolver.trackStrategy (maxDepth - trail.depth) scope e strategy)
      (resolver.attempt trail scope e strategy) := by
  rw [trackStrategy.eq_def]
  split
  case h_1 object property found =>
    rw [attempt_of_literal found]
    split
    · exact .pure _
    · exact .bind (asked _ (.receiver found)) fun types => .pure _
  case h_2 strategy _ other =>
    rw [attempt_of_other other]
    refine .reading fun session on => ?_
    rw [search_congr on]
    exact Mirrors.bind (.onMemory (skip_retained _)) (fun _ => trackLead_mirrors rfl asked)
      session on

/-- A resolution with marks does what one without them does. -/
theorem track_mirrors (trail : Trail) (scope : ScopeId) (e : Expr) :
    Mirrors trail (resolver.track (maxDepth - trail.depth) scope e)
      (resolver.alternatives trail scope e) := by
  induction trail, scope, e using resolver.request_induction with
  | step trail scope e ih =>
      have reference : Mirrors trail
          (resolver.trackFirst (maxDepth - trail.depth) scope e resolver.strategies)
          (resolver.firstFinding trail scope e resolver.strategies) :=
        trackFirst_mirrors _ fun strategy => trackStrategy_mirrors strategy ih
      have untyped : ∀ construct : String,
          Mirrors trail (Tracked.onMemory (resolver.unsupported e construct))
            (resolver.unsupported e construct : Resolve Alternatives) :=
        fun construct => .onMemory fun memory => .refl memory
      rw [track_assembled, alternatives_assembled]
      exact Mirrors.congruence.assemble (resolver.trackedInquiry (maxDepth - trail.depth) scope e)
        (resolver.inquiry trail scope e)
        (fun child member => ih ⟨trail, scope, child⟩ (.part member)) reference
        fun construct _ => untyped construct

end Resolutions

/-- What a resolution with marks ends with. -/
def ending (tracked : Tracked α) (session : Session) : Except Fault α × Session :=
  match tracked session with
  | .ok value next => (.ok value, next)
  | .error fault next => (.error fault, next)

/-- **Restoration.** However a resolution ends, and in whatever session it is made, the marks and
the depth are those it started with, lookups were nested no deeper than `maxDepth`, the count of
what was passed over has not gone down, and what was remembered still is; and it ends, and
remembers, as the resolution does to which the lookups in progress are handed down. -/
theorem track_restores (resolver : Resolver) (session : Session) (scope : ScopeId) (e : Expr) :
    let (result, next) := ending (resolver.track (maxDepth - session.depth) scope e) session
    next.visited = session.visited ∧ next.depth = session.depth ∧
      next.peak ≤ max session.peak maxDepth ∧
      session.memory.skips ≤ next.memory.skips ∧
      (∀ function types, session.memory.memo.lookup function = some types →
        next.memory.memo.lookup function = some types) ∧
      result = outcome (resolver.alternatives session.trail scope e) session.memory ∧
      next.memory = after (resolver.alternatives session.trail scope e) session.memory := by
  obtain ⟨⟨peak, -, high, run⟩, retained⟩ :=
    track_mirrors session.trail scope e session ⟨fun _ => Iff.rfl, rfl⟩
  have same : resolver.track (maxDepth - session.depth) scope e session = _ := run
  obtain ⟨skips, memo⟩ := retained
  rw [after] at skips memo
  rw [ending, same, outcome, after]
  cases step : resolver.alternatives session.trail scope e session.memory with
  | ok types memory =>
      rw [step] at skips memo
      exact ⟨rfl, rfl, high, skips, memo, rfl, rfl⟩
  | error fault memory =>
      rw [step] at skips memo
      exact ⟨rfl, rfl, high, skips, memo, rfl, rfl⟩

end Resolver

end DocSketch
