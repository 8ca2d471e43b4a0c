import DocSketch.Proofs.Resolution.Recomputation

/-!
# Traces under other lookups

A resolution that passes over nothing goes the same way under other lookups in progress, as
long as these leave open what it looks up, or nothing is passed over there either.

* `Trace.Within`: a resolution that is a part of another one.
* `Resolver.Akin`: the traces of one resolution under different lookups in progress.
* `Resolver.traceLookup_akin`: the traces of one lookup are akin.
-/

namespace DocSketch

namespace Trace

variable {α β γ : Type} {trace : Trace α} {others : Except Fault α → Trace β}

/-- A trace in two parts is shallow if both parts are. -/
theorem shallow_andThen :
    (trace.andThen others).Shallow ↔ trace.Shallow ∧ (others trace.result).Shallow := by
  simp only [Shallow, andThen, Nat.add_eq_zero_iff]

/-- A trace in two parts passes over nothing if neither part does. -/
theorem clean_andThen :
    (trace.andThen others).Clean ↔ trace.Clean ∧ (others trace.result).Clean := by
  simp only [Clean, shallow_andThen]
  simp only [andThen, Nat.add_eq_zero_iff]
  exact and_and_and_comm

/-- What is passed over first is counted before the rest. -/
theorem skip_bind (count : Nat) (rest : Trace α) :
    (skip count >>= fun _ => rest) =
      ⟨rest.result, rest.lookups, count + rest.skips, rest.cuts⟩ := by
  simp only [Bind.bind, andThen, skip, onward, List.nil_append, Nat.zero_add]

/-- What is looked up in a part is looked up in the whole, and what the whole avoids is avoided
in the part. -/
structure Within (part : Trace α) (whole : Trace β) : Prop where
  lookups : part.lookups ⊆ whole.lookups
  shallow : whole.Shallow → part.Shallow
  clean : whole.Clean → part.Clean

namespace Within

theorem trans {first : Trace α} {second : Trace β} {third : Trace γ} (inner : first.Within second)
    (outer : second.Within third) : first.Within third :=
  ⟨fun _ member => outer.lookups (inner.lookups member),
    fun shallow => inner.shallow (outer.shallow shallow),
    fun clean => inner.clean (outer.clean clean)⟩

/-- The first part of a trace is a part of it. -/
theorem head (trace : Trace α) (others : Except Fault α → Trace β) :
    trace.Within (trace.andThen others) :=
  ⟨List.subset_append_left _ _, fun shallow => (shallow_andThen.mp shallow).1,
    fun clean => (clean_andThen.mp clean).1⟩

/-- What comes behind the first part of a trace is a part of it. -/
theorem tail (trace : Trace α) (others : Except Fault α → Trace β) :
    (others trace.result).Within (trace.andThen others) :=
  ⟨List.subset_append_right _ _, fun shallow => (shallow_andThen.mp shallow).2,
    fun clean => (clean_andThen.mp clean).2⟩

end Within

end Trace

namespace Resolver

variable {resolver : Resolver} {α β : Type} {trail other : Trail}

/-- What is looked up is being resolved under `other` only if it is under `trail`. -/
def Fresh (resolver : Resolver) (trail other : Trail) (lookup : Lookup) : Prop :=
  ∀ key ∈ lookup.keys resolver.source, key ∈ other.visited → key ∈ trail.visited

/-- A lookup stays fresh when both trails enter the same keys. -/
theorem Fresh.enter {lookup : Lookup} (fresh : resolver.Fresh trail other lookup)
    (keys : List VisitKey) : resolver.Fresh (trail.enter keys) (other.enter keys) lookup := by
  intro key own visited
  obtain entered | earlier := List.mem_append.mp visited
  · exact List.mem_append_left _ entered
  · exact List.mem_append_right _ (fresh key own earlier)

/-- The traces of one resolution under two trails: whatever the first one looks up is shown
whole by it, and if it passes over nothing, the second one is the same unless it meets lookups
in progress. -/
structure Akin (resolver : Resolver) (trail other : Trail) (trace again : Trace α) : Prop where
  inner : ∀ lookup ∈ trace.lookups, ∃ deeper : Trail, trail.visited ⊆ deeper.visited ∧
    (resolver.traceLookup deeper lookup).Within trace
  same : trace.Clean → again.Shallow →
    (∀ lookup ∈ trace.lookups, resolver.Fresh trail other lookup) ∨ again.Clean → again = trace

namespace Akin

variable {trace again : Trace α}

/-- A resolution that looks up nothing is the same under all trails. -/
theorem bare (plain : trace.lookups = []) : resolver.Akin trail other trace trace := by
  refine ⟨fun lookup member => ?_, fun _ _ _ => rfl⟩
  rw [plain] at member
  exact absurd member List.not_mem_nil

theorem pure (value : α) :
    resolver.Akin trail other (Pure.pure value : Trace α) (Pure.pure value) :=
  bare rfl

theorem fail (fault : Fault) :
    resolver.Akin trail other (Trace.fail fault : Trace α) (Trace.fail fault) :=
  bare rfl

/-- Traces in two parts are akin if their parts are. -/
theorem andThen {others further : Except Fault α → Trace β}
    (head : resolver.Akin trail other trace again)
    (tail : ∀ result, resolver.Akin trail other (others result) (further result)) :
    resolver.Akin trail other (trace.andThen others) (again.andThen further) := by
  refine ⟨fun lookup member => ?_, fun clean shallow clear => ?_⟩
  · obtain first | later := List.mem_append.mp member
    · obtain ⟨deeper, above, part⟩ := head.inner lookup first
      exact ⟨deeper, above, part.trans (.head trace others)⟩
    · obtain ⟨deeper, above, part⟩ := (tail trace.result).inner lookup later
      exact ⟨deeper, above, part.trans (.tail trace others)⟩
  · obtain ⟨first, later⟩ := Trace.clean_andThen.mp clean
    obtain ⟨high, low⟩ := Trace.shallow_andThen.mp shallow
    have own : again = trace := by
      refine head.same first high (clear.imp (fun fresh lookup member => ?_) fun quiet => ?_)
      · exact fresh lookup (List.mem_append_left _ member)
      · exact (Trace.clean_andThen.mp quiet).1
    subst own
    have rest : further again.result = others again.result := by
      refine (tail _).same later low (clear.imp (fun fresh lookup member => ?_) fun quiet => ?_)
      · exact fresh lookup (List.mem_append_right _ member)
      · exact (Trace.clean_andThen.mp quiet).2
    simp only [Trace.andThen, rest]

/-- Traces that go on with a value are akin if their parts are. -/
theorem bind {others further : α → Trace β} (head : resolver.Akin trail other trace again)
    (tail : ∀ value, resolver.Akin trail other (others value) (further value)) :
    resolver.Akin trail other (trace >>= others) (again >>= further) := by
  change resolver.Akin trail other (trace.andThen (.onward others))
    (again.andThen (.onward further))
  refine head.andThen fun result => ?_
  cases result with
  | ok value => exact tail value
  | error fault => exact .fail fault

/-- What is looked up is traced one level deeper. -/
theorem enter {keys : List VisitKey}
    (deeper : resolver.Akin (trail.enter keys) (other.enter keys) trace again) :
    resolver.Akin trail other trace again := by
  refine ⟨fun lookup member => ?_, fun clean shallow clear => ?_⟩
  · obtain ⟨below, above, part⟩ := deeper.inner lookup member
    exact ⟨below, fun key visited => above (List.mem_append_right _ visited), part⟩
  · exact deeper.same clean shallow (clear.imp_left fun fresh lookup member =>
      (fresh lookup member).enter keys)

/-- Values are traced alike, and so is going on. -/
theorem congruence : Congruence fun α (trace again : Trace α) =>
    resolver.Akin trail other trace again where
  pure := .pure
  bind := .bind

end Akin

/-- A definition is looked up below the greatest depth. -/
theorem traceDefinition_of_lt {lookup : Lookup} (below : trail.depth < maxDepth) :
    resolver.traceDefinition trail lookup =
      ⟨(resolver.traceLookup trail lookup).result.map fun types => some (.types types),
        lookup :: (resolver.traceLookup trail lookup).lookups,
        (resolver.traceLookup trail lookup).skips, (resolver.traceLookup trail lookup).cuts⟩ := by
  rw [traceDefinition, if_pos below]
  generalize resolver.traceLookup trail lookup = inside
  obtain ⟨result, lookups, skips, cuts⟩ := inside
  cases result <;> simp [Bind.bind, Trace.andThen, Trace.onward, Trace.enter, Pure.pure,
    Trace.fail, Except.map]

/-- No definition is looked up at the greatest depth. -/
theorem traceDefinition_of_le {lookup : Lookup} (deep : ¬trail.depth < maxDepth) :
    resolver.traceDefinition trail lookup = resolver.cut trail.depth := by
  rw [traceDefinition, if_neg deep]

/-- The trace of a lookup is a part of that of its definition. -/
theorem traceLookup_within {lookup : Lookup} (below : trail.depth < maxDepth) :
    (resolver.traceLookup trail lookup).Within (resolver.traceDefinition trail lookup) := by
  rw [traceDefinition_of_lt below]
  exact ⟨List.subset_cons_self _ _, id, id⟩

/-- A definition is shown whole, and it is the same as long as it is looked up at all. -/
theorem Akin.definition {lookup : Lookup}
    (deeper : trail.depth < maxDepth → resolver.Akin trail other
      (resolver.traceLookup trail lookup) (resolver.traceLookup other lookup)) :
    resolver.Akin trail other (resolver.traceDefinition trail lookup)
      (resolver.traceDefinition other lookup) := by
  by_cases below : trail.depth < maxDepth
  case neg =>
    rw [traceDefinition_of_le below]
    exact ⟨fun _ member => absurd member List.not_mem_nil,
      fun clean => absurd clean.2 Nat.one_ne_zero⟩
  case pos =>
    obtain ⟨inner, same⟩ := deeper below
    refine ⟨fun found member => ?_, fun clean shallow clear => ?_⟩
    · rw [traceDefinition_of_lt below] at member
      obtain rfl | inside := List.mem_cons.mp member
      · exact ⟨trail, List.Subset.refl _, traceLookup_within below⟩
      · obtain ⟨deeper, above, part⟩ := inner found inside
        exact ⟨deeper, above, part.trans (traceLookup_within below)⟩
    · by_cases further : other.depth < maxDepth
      case neg =>
        rw [traceDefinition_of_le further] at shallow
        exact absurd shallow Nat.one_ne_zero
      case pos =>
        rw [traceDefinition_of_lt further] at shallow
        have own : resolver.traceLookup other lookup = resolver.traceLookup trail lookup := by
          refine same ((traceLookup_within below).clean clean) shallow ?_
          refine clear.imp (fun fresh found member => ?_) (traceLookup_within further).clean
          exact fresh found ((traceLookup_within below).lookups member)
        rw [traceDefinition_of_lt below, traceDefinition_of_lt further, own]

/-- Following a lead is akin if what it refers to is. -/
theorem Akin.lead (lead : Lead)
    (deeper : ∀ lookup, lead.lookup? = some lookup → trail.depth < maxDepth →
      resolver.Akin trail other (resolver.traceLookup trail lookup)
        (resolver.traceLookup other lookup)) :
    resolver.Akin trail other (resolver.traceLead trail lead) (resolver.traceLead other lead) := by
  cases lead with
  | none | label | types => exact .pure _
  | value | exits => exact .definition (deeper _ rfl)

/-- A lead to a definition is followed by looking it up. -/
theorem traceLead_of_lookup {lead : Lead} {lookup : Lookup} (refers : lead.lookup? = some lookup) :
    resolver.traceLead trail lead = resolver.traceDefinition trail lookup := by
  cases lead <;> cases refers <;> rfl

/-- If nothing is passed over, what a lead refers to is looked up. -/
theorem mem_lookups_of_clean {lead : Lead} {lookup : Lookup}
    (clean : (resolver.traceLead trail lead).Clean) (found : lead.lookup? = some lookup) :
    lookup ∈ (resolver.traceLead trail lead).lookups := by
  rw [traceLead_of_lookup found] at clean ⊢
  by_cases below : trail.depth < maxDepth
  · rw [traceDefinition_of_lt below]
    exact List.mem_cons_self
  · rw [traceDefinition_of_le below] at clean
    exact absurd clean.2 Nat.one_ne_zero

/-- An override of a literal receiver asks for the type of the receiver. -/
theorem traceStrategy_of_literal {scope : ScopeId} {e object : Expr} {property : String}
    (found : e.literalReceiver? = some (object, property)) :
    resolver.traceStrategy trail scope e .override =
      if resolver.context.overrides.isEmpty then pure none
      else do
        let types ← resolver.trace trail scope object
        let paths := (types.head?.bind Descriptor.typeName?).toList.map (· ++ "." ++ property)
        return (resolver.context.overrideLabel? e.call? paths).map Finding.label := by
  rw [traceStrategy.eq_def]
  split
  case h_1 receiver =>
    cases found.symm.trans receiver
    rfl
  case h_2 other => exact (other object property rfl found).elim

/-- Any other strategy follows its lead. -/
theorem traceStrategy_of_other {scope : ScopeId} {e : Expr} {strategy : Strategy}
    (plain : ∀ object property, strategy = .override →
      e.literalReceiver? = some (object, property) → False) :
    resolver.traceStrategy trail scope e strategy = (do
      Trace.skip (resolver.search trail scope e strategy).skips
      resolver.traceLead trail (resolver.search trail scope e strategy).lead) := by
  rw [traceStrategy.eq_def]
  split
  case h_1 object property found => exact (plain object property rfl found).elim
  case h_2 strategy _ _ =>
    generalize resolver.search trail scope e strategy = found
    obtain ⟨lead, skips⟩ := found
    cases lead <;> rfl

/-- A strategy is the same under another trail if what it refers to is not being resolved, or
nothing is passed over. -/
theorem Akin.searched {scope : ScopeId} {e : Expr} {strategy : Strategy}
    (own : ∀ lead, (resolver.search trail scope e strategy).lead = lead →
      resolver.Akin trail other (resolver.traceLead trail lead) (resolver.traceLead other lead)) :
    resolver.Akin trail other
      (do
        Trace.skip (resolver.search trail scope e strategy).skips
        resolver.traceLead trail (resolver.search trail scope e strategy).lead)
      (do
        Trace.skip (resolver.search other scope e strategy).skips
        resolver.traceLead other (resolver.search other scope e strategy).lead) := by
  have free : (resolver.search trail scope e strategy).lead.Free resolver.source trail :=
    (search_free trail scope e strategy).1
  simp only [Trace.skip_bind]
  obtain ⟨inner, same⟩ := own _ rfl
  refine ⟨fun lookup member => ?_, fun clean shallow clear => ?_⟩
  · obtain ⟨deeper, above, part⟩ := inner lookup member
    exact ⟨deeper, above, part.lookups, part.shallow,
      fun clean => part.clean ⟨(Nat.add_eq_zero_iff.mp clean.1).2, clean.2⟩⟩
  · obtain ⟨quiet, below⟩ := Nat.add_eq_zero_iff.mp clean.1
    have start := search_eq_start quiet
    have again : resolver.search other scope e strategy =
        resolver.search trail scope e strategy := by
      rw [start]
      obtain fresh | calm := clear
      · refine (search_free other scope e strategy).2 fun lookup found key own visited => ?_
        rw [← start] at found
        have member := mem_lookups_of_clean ⟨below, clean.2⟩ found
        exact free lookup found key own (fresh lookup member key own visited)
      · exact search_eq_start (Nat.add_eq_zero_iff.mp calm.1).1
    rw [again] at shallow clear ⊢
    rw [same ⟨below, clean.2⟩ shallow (clear.imp_right fun calm =>
      ⟨(Nat.add_eq_zero_iff.mp calm.1).2, calm.2⟩)]

/-- The traces of the exits of a function are akin if each is. -/
theorem traceExits_akin {scope : ScopeId} (exits : List Expr) (found : Alternatives)
    (each : ∀ e ∈ exits, resolver.Akin trail other (resolver.trace trail scope e)
      (resolver.trace other scope e)) :
    resolver.Akin trail other (resolver.traceExits trail scope found exits)
      (resolver.traceExits other scope found exits) := by
  induction exits generalizing found with
  | nil =>
      rw [traceExits, traceExits]
      exact .pure found
  | cons exit others ih =>
      have later := fun e member => each e (List.mem_cons_of_mem exit member)
      rw [traceExits, traceExits]
      refine .andThen (each exit List.mem_cons_self) fun result => ?_
      cases result with
      | ok types => exact ih _ later
      | error fault =>
          dsimp only
          split
          · exact ih _ later
          · exact .fail fault

/-- The traces of strategies in turn are akin if each is. -/
theorem traceFirst_akin {scope : ScopeId} {e : Expr} (strategies : List Strategy)
    (each : ∀ strategy, resolver.Akin trail other (resolver.traceStrategy trail scope e strategy)
      (resolver.traceStrategy other scope e strategy)) :
    resolver.Akin trail other (resolver.traceFirst trail scope e strategies)
      (resolver.traceFirst other scope e strategies) := by
  induction strategies with
  | nil =>
      rw [traceFirst, traceFirst]
      exact .pure _
  | cons strategy others ih =>
      rw [traceFirst, traceFirst]
      refine .andThen (each strategy) fun result => ?_
      cases result with
      | ok finding =>
          cases finding with
          | none => exact ih
          | some finding => exact .pure _
      | error fault =>
          dsimp only
          split
          · exact .bind (.bare rfl) fun _ => ih
          · exact .fail fault

/-- The traces of a strategy are akin if those that it asks for are. -/
theorem traceStrategy_akin {scope : ScopeId} {e : Expr} (strategy : Strategy)
    (asked : ∀ next : Request, resolver.Asks ⟨trail, scope, e⟩ next → ∀ other : Trail,
      resolver.Akin next.trail other (resolver.trace next.trail next.scope next.expr)
        (resolver.trace other next.scope next.expr)) :
    resolver.Akin trail other (resolver.traceStrategy trail scope e strategy)
      (resolver.traceStrategy other scope e strategy) := by
  by_cases literal : ∃ object property, strategy = .override ∧
      e.literalReceiver? = some (object, property)
  · obtain ⟨object, property, rfl, found⟩ := literal
    rw [traceStrategy_of_literal found, traceStrategy_of_literal found]
    split
    · exact .pure _
    · exact .bind (asked _ (.receiver found) other) fun types => .pure _
  · have plain : ∀ object property, strategy = .override →
        e.literalReceiver? = some (object, property) → False :=
      fun object property override found => literal ⟨object, property, override, found⟩
    rw [traceStrategy_of_other plain, traceStrategy_of_other plain]
    refine .searched fun lead found => .lead lead fun lookup refers below => ?_
    cases lead with
    | none | label | types => cases refers
    | value outer value =>
        cases refers
        exact .enter (asked _ (.value found below) (other.enter [(outer, value.span)]))
    | exits function =>
        cases refers
        refine .enter (traceExits_akin _ _ fun exit member => ?_)
        exact asked _ (.exit found below member) (other.enter (resolver.source.exitKeys function))

/-- The traces of one expression are akin. -/
theorem trace_akin (trail : Trail) (scope : ScopeId) (e : Expr) (other : Trail) :
    resolver.Akin trail other (resolver.trace trail scope e) (resolver.trace other scope e) := by
  induction trail, scope, e using resolver.request_induction generalizing other with
  | step trail scope e ih =>
      have reference : resolver.Akin trail other
          (resolver.traceFirst trail scope e resolver.strategies)
          (resolver.traceFirst other scope e resolver.strategies) :=
        traceFirst_akin _ fun strategy => traceStrategy_akin strategy ih
      rw [trace_assembled, trace_assembled]
      exact Akin.congruence.assemble (resolver.tracedInquiry trail scope e)
        (resolver.tracedInquiry other scope e) (fun child member => ih _ (.part member) other)
        reference fun construct _ => .fail _

/-- The traces of one lookup are akin. -/
theorem traceLookup_akin (trail other : Trail) (lookup : Lookup) :
    resolver.Akin trail other (resolver.traceLookup trail lookup)
      (resolver.traceLookup other lookup) := by
  cases lookup with
  | value scope e => exact .enter (trace_akin _ scope e _)
  | exits function => exact .enter (traceExits_akin _ _ fun exit _ => trace_akin _ function exit _)

end Resolver

end DocSketch
