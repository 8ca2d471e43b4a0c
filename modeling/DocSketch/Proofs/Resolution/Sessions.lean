import DocSketch.Proofs.Resolution.Simulation

/-!
# Resolutions that mark what they visit

The lookups in progress can be handed down, as `Resolver.alternatives` does, or they can be
kept in one place, where every lookup marks the expressions that it visits and takes back its
own marks when it ends.  Here is the second way, next to what resolutions remember.

* `Session`: what is kept during a request.
* `Session.fresh`: the marks that a lookup adds, and later takes back.
* `Resolver.visiting`: a lookup between marks.
* `Resolver.track`: the types of an expression, with marks.
-/

namespace DocSketch

/-- What is kept during a request. -/
structure Session where
  /-- Expressions that are being resolved. -/
  visited : List VisitKey
  /-- How deeply lookups are nested. -/
  depth : Nat
  /-- How deeply lookups have been nested so far. -/
  peak : Nat
  memory : Memory
deriving Repr, Inhabited

/-- Resolutions within one request; all that is kept outlives a fault. -/
abbrev Tracked := EStateM Fault Session

namespace Session

def trail (session : Session) : Trail := ⟨session.visited, session.depth⟩

/-- The keys that are not visited yet, each once. -/
def fresh (visited : List VisitKey) : List VisitKey → List VisitKey
  | [] => []
  | key :: keys =>
    if key ∈ visited then fresh visited keys else key :: fresh (key :: visited) keys

/-- Marks keys, one level deeper. -/
def enter (session : Session) (marks : List VisitKey) : Session :=
  { session with
    visited := marks ++ session.visited
    depth := session.depth + 1
    peak := max session.peak (session.depth + 1) }

/-- Takes marks back. -/
def leave (session : Session) (marks : List VisitKey) : Session :=
  { session with
    visited := session.visited.filter (· ∉ marks)
    depth := session.depth - 1 }

/-- What is remembered changes as it does without the rest of the session. -/
def attach {α : Type} (session : Session) :
    EStateM.Result Fault Memory α → EStateM.Result Fault Session α
  | .ok value memory => .ok value { session with memory := memory }
  | .error fault memory => .error fault { session with memory := memory }

end Session

namespace Tracked

variable {α β : Type}

/-- Changes nothing but what is remembered. -/
def onMemory (request : Resolve α) : Tracked α :=
  fun session => session.attach (request session.memory)

/-- Goes on with what a resolution ends with. -/
def proceed (tracked : Tracked α) (rest : Except Fault α → Tracked β) : Tracked β :=
  fun session =>
    match tracked session with
    | .ok value next => rest (.ok value) next
    | .error fault next => rest (.error fault) next

/-- Goes on where something was found. -/
def resume (rest : α → Tracked β) : Except Fault α → Tracked β
  | .ok value => rest value
  | .error fault => throw fault

/-- Goes on with fewer levels of lookups, if there are any. -/
def descend (levels : Nat) (body : (fewer : Nat) → fewer < levels → Tracked α)
    (otherwise : Tracked α) : Tracked α :=
  match levels with
  | 0 => otherwise
  | fewer + 1 => body fewer (Nat.lt_succ_self fewer)

end Tracked

namespace Resolver

open Tracked

/-- A lookup that marks keys; the marks that it added are taken back however it ends. -/
def visiting {α : Type} (resolver : Resolver) (keys : List VisitKey) (lookup : Tracked α) :
    Tracked α :=
  fun session =>
    if maxDepth ≤ session.depth then onMemory (resolver.tooDeep session.depth) session
    else
      let marks := Session.fresh session.visited keys
      match lookup (session.enter marks) with
      | .ok value next => .ok value (next.leave marks)
      | .error fault next => .error fault (next.leave marks)

mutual

/-- The types of an expression that stands in `scope`, with so many levels of lookups left. -/
def track (resolver : Resolver) (levels : Nat) (scope : ScopeId) (e : Expr) :
    Tracked Alternatives :=
  match e with
  | .number _ kind _ => pure (Alternatives.leaf kind.typeName)
  | .string _ kind _ => pure (Alternatives.leaf kind.typeName)
  | .constant _ value => pure (Alternatives.leaf value.typeName)
  | .symbol span name => resolver.trackFirst levels scope (.symbol span name) resolver.strategies
  | .member span object property =>
    resolver.trackFirst levels scope (.member span object property) resolver.strategies
  | .call span callee arguments keywords =>
    resolver.trackFirst levels scope (.call span callee arguments keywords) resolver.strategies
  | .sequence _ kind elements => do
    let children ← resolver.trackElements levels scope [] elements
    return [.container kind.typeName children]
  | .dict _ entries => do
    let (keys, values) ← resolver.trackEntries levels scope [] [] entries
    return [.mapping keys values]
  | .comprehension _ .list element _ _ => do
    return [.container "list" (← resolver.track levels scope element)]
  | .comprehension _ .dict _ _ _ => pure (Alternatives.leaf "dict")
  | .comprehension _ .set _ _ _ => pure (Alternatives.leaf "set")
  | .comprehension _ .generator _ _ _ => pure (Alternatives.leaf "Generator")
  | .binary _ left operator right =>
    if operator.kind.isRelationalOrLogical then
      pure (Alternatives.leaf "bool")
    else do
      let leftTypes ← resolver.track levels scope left
      if operator.kind = .percent ∧ leftTypes = Alternatives.leaf "str" then
        return leftTypes
      else
        let rightTypes ← resolver.track levels scope right
        return (arithmetic? operator.kind leftTypes rightTypes).getD (resolver.unresolved e)
  | .unary _ operator operand =>
    if operator.kind = .notKw then pure (Alternatives.leaf "bool")
    else if operator.kind = .awaitKw then pure (resolver.unresolved e)
    else resolver.track levels scope operand
  | .ternary _ body _ orelse => do
    let bodyTypes ← resolver.track levels scope body
    let orelseTypes ← resolver.track levels scope orelse
    return Alternatives.extend bodyTypes orelseTypes
  | .subscript _ object index => do
    let objectTypes ← resolver.track levels scope object
    return (subscript? objectTypes index.isSlice).getD (resolver.unresolved e)
  | .lambda .. => onMemory (resolver.unsupported e "lambda")
  | .starred .. => onMemory (resolver.unsupported e "starred")
  | .slice .. => onMemory (resolver.unsupported e "slice")
  | .yield .. => onMemory (resolver.unsupported e "yield")
termination_by (levels, sizeOf e, resolver.strategies.length + 2)
decreasing_by
  all_goals
    simp only [Prod.lex_def]
    simp
    try omega

def trackElements (resolver : Resolver) (levels : Nat) (scope : ScopeId) (found : Alternatives)
    (elements : List Expr) : Tracked Alternatives :=
  match elements with
  | [] => pure found
  | element :: others =>
    if element.isStarred then
      resolver.trackElements levels scope found others
    else do
      let types ← resolver.track levels scope element
      resolver.trackElements levels scope (Alternatives.extend found types) others
termination_by (levels, sizeOf elements, 0)
decreasing_by
  all_goals
    simp only [Prod.lex_def]
    simp
    try omega

def trackEntries (resolver : Resolver) (levels : Nat) (scope : ScopeId)
    (foundKeys foundValues : Alternatives) (entries : List (Entry Expr)) :
    Tracked (Alternatives × Alternatives) :=
  match entries with
  | [] => pure (foundKeys, foundValues)
  | ⟨none, _⟩ :: others => resolver.trackEntries levels scope foundKeys foundValues others
  | ⟨some key, value⟩ :: others => do
    let keyTypes ← resolver.track levels scope key
    let valueTypes ← resolver.track levels scope value
    resolver.trackEntries levels scope (Alternatives.extend foundKeys keyTypes)
      (Alternatives.extend foundValues valueTypes) others
termination_by (levels, sizeOf entries, 0)
decreasing_by
  all_goals
    simp only [Prod.lex_def]
    simp
    try omega

/-- The types of a reference by the first strategy that finds something. -/
def trackFirst (resolver : Resolver) (levels : Nat) (scope : ScopeId) (e : Expr)
    (strategies : List Strategy) : Tracked Alternatives :=
  match strategies with
  | [] => pure (resolver.unresolved e)
  | strategy :: others => Tracked.proceed (resolver.trackStrategy levels scope e strategy) fun
    | .ok (some finding) => pure (resolver.context.format.classify finding)
    | .ok none => resolver.trackFirst levels scope e others
    | .error fault =>
      if fault.cause.isRecursionGuard then do
        onMemory (skip 1)
        resolver.trackFirst levels scope e others
      else
        throw fault
termination_by (levels, sizeOf e, strategies.length + 1)
decreasing_by
  all_goals
    simp only [Prod.lex_def]
    simp

/-- What a strategy finds for a reference. -/
def trackStrategy (resolver : Resolver) (levels : Nat) (scope : ScopeId) (e : Expr)
    (strategy : Strategy) : Tracked (Option Finding) :=
  match strategy, _hreceiver : e.literalReceiver? with
  | .override, some (object, property) =>
    if resolver.context.overrides.isEmpty then
      pure none
    else do
      let types ← resolver.track levels scope object
      let paths := (types.head?.bind Descriptor.typeName?).toList.map (· ++ "." ++ property)
      return (resolver.context.overrideLabel? e.call? paths).map Finding.label
  | strategy, _ => do
    let session ← get
    let found := resolver.search session.trail scope e strategy
    onMemory (skip found.skips)
    resolver.trackLead levels found.lead
termination_by (levels, sizeOf e, 0)
decreasing_by
  · have := Expr.sizeOf_lt_of_literalReceiver? _hreceiver
    simp only [Prod.lex_def]
    simp [this]
  · apply Prod.Lex.right
    apply Prod.Lex.left
    cases e <;> simp +arith

/-- What a lead gives to the reference that follows it. -/
def trackLead (resolver : Resolver) (levels : Nat) (lead : Lead) : Tracked (Option Finding) :=
  match lead with
  | .none => return none
  | .label text => return some (.label text)
  | .types types => return some (.types types)
  | .value outer value => do
    let types ← resolver.visiting [(outer, value.span)]
      (descend levels (fun fewer _ => resolver.track fewer outer value)
        (onMemory (resolver.tooDeep maxDepth)))
    return some (.types types)
  | .exits function => do
    let session ← get
    match session.memory.memo.lookup function with
    | some types => return some (.types types)
    | none =>
      let types ← resolver.visiting (resolver.source.exitKeys function)
        (descend levels
          (fun fewer _ => resolver.trackExits fewer function []
            (resolver.source.scopes.get function).exits)
          (onMemory (resolver.tooDeep maxDepth)))
      onMemory (remember function session.memory.skips types)
      return some (.types types)
termination_by (levels, 0, 0)
decreasing_by
  all_goals
    apply Prod.Lex.left
    assumption

/-- The types of the exits of a function; an exit without a type stands for itself. -/
def trackExits (resolver : Resolver) (levels : Nat) (scope : ScopeId) (found : Alternatives)
    (exits : List Expr) : Tracked Alternatives :=
  match exits with
  | [] => pure found
  | exit :: others => Tracked.proceed (resolver.track levels scope exit) fun
    | .ok types => resolver.trackExits levels scope (Alternatives.extend found types) others
    | .error fault =>
      if fault.isRecoverable then
        let own := Descriptor.unresolved (resolver.source.textOf exit.span)
        resolver.trackExits levels scope (Alternatives.add found own) others
      else
        throw fault
termination_by (levels, sizeOf exits, 0)
decreasing_by
  all_goals
    simp only [Prod.lex_def]
    simp +arith

end

/-- A resolution with marks puts the types of elements together. -/
theorem trackElements_eq (resolver : Resolver) (levels : Nat) (scope : ScopeId)
    (found : Alternatives) (elements : List Expr) :
    resolver.trackElements levels scope found elements =
      assembleElements (resolver.track levels scope) found elements := by
  induction elements generalizing found with
  | nil => rw [trackElements, assembleElements]
  | cons element others ih =>
      rw [trackElements, assembleElements]
      simp only [ih]

/-- A resolution with marks puts the types of entries together. -/
theorem trackEntries_eq (resolver : Resolver) (levels : Nat) (scope : ScopeId)
    (foundKeys foundValues : Alternatives) (entries : List (Entry Expr)) :
    resolver.trackEntries levels scope foundKeys foundValues entries =
      assembleEntries (resolver.track levels scope) foundKeys foundValues entries := by
  induction entries generalizing foundKeys foundValues with
  | nil => rw [trackEntries, assembleEntries]
  | cons entry others ih =>
      obtain ⟨key | key, value⟩ := entry
      all_goals
        rw [trackEntries, assembleEntries]
        simp only [ih]

/-- What a resolution with marks finds out about an expression. -/
def trackedInquiry (resolver : Resolver) (levels : Nat) (scope : ScopeId) (e : Expr) :
    Inquiry Tracked where
  part := resolver.track levels scope
  reference := resolver.trackFirst levels scope e resolver.strategies
  untyped construct := onMemory (resolver.unsupported e construct)

/-- A resolution with marks puts types together. -/
theorem track_assembled (resolver : Resolver) (levels : Nat) (scope : ScopeId) (e : Expr) :
    resolver.track levels scope e =
      resolver.assemble (resolver.trackedInquiry levels scope e) e := by
  cases e with
  | sequence span kind elements =>
      rw [track, trackElements_eq]
      rfl
  | dict span entries =>
      rw [track, trackEntries_eq]
      rfl
  | comprehension span kind element value clauses =>
      cases kind
      all_goals
        rw [track]
        rfl
  | _ =>
      rw [track]
      rfl

end Resolver

end DocSketch
