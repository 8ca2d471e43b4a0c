import DocSketch.Proofs.Grammar.Reaching
import DocSketch.Proofs.Grammar.SourceOrder

/-!
# Spans of statements

Statements that are read stand one after another, as their tokens do: a statement stops before
the next one starts, and the statements inside it lie between its own start and stop.

* `Grammar.Placing`: where the statements stand that the readers of statements give.
* `Source.statements_settled`: the statements of an accepted text.
-/

namespace DocSketch

namespace Grammar

open Parse Token Stmt

variable {β : Type} {tokens : List Token} {At : TokenKind → Prop} {begun : Option Nat}
  {lo start bound : Nat} {Last : β → Nat → Prop}

/-- The end of a simple statement. -/
theorem finish_reaches {build : Span → Stmt}
    (settled : ∀ stop, start ≤ stop → Settled lo [build ⟨start, stop⟩] stop) :
    Reaches tokens At (some start) bound (do
        let span ← spanFrom start
        endSimple
        return build span) fun stmt hi => Settled lo [stmt] hi :=
  .spanFrom fun stop ordered =>
    .skip endSimple_level fun _ => .pure (settled stop ordered)

/-- An expression lies among the tokens that are gone past for it. -/
theorem readExpr_begins {fuel : Nat} {level : Power} {others : Expr → Parse β}
    (second : ∀ e, lo ≤ e.span.start → e.span.start ≤ e.span.stop →
      Reaches tokens Anywhere (some e.span.start) e.span.stop (others e) Last) :
    Reaches tokens At begun lo (readExpr fuel level >>= others) Last := by
  intro cursor result after within here stands ran
  obtain ⟨e, middle, read, ran⟩ := ran_bind ran
  obtain ⟨passed, passes, taken⟩ := (retraces tokens fuel).expr level cursor e middle within read
  obtain ⟨opening, inner, closing, cut, outlines, -⟩ := taken.spans.cut
  have ahead := stands.ahead
  rw [passes.rest, ← passes.stop] at ahead
  obtain ⟨own, rest⟩ := ahead.behind (passes.getLast? taken.spans.ne_nil)
  rw [cut.whole] at own
  obtain ⟨right, covered, behind⟩ := own.drop.split
  obtain ⟨starts, ordered, stops⟩ := covered.outlined outlines
  have le := stops.trans behind.le
  have since : middle.Stands (some e.span.start) e.span.stop := by
    refine ⟨rest.lower le, fun start member => ?_⟩
    cases member
    exact ⟨ordered.trans le, rest⟩
  exact (second e starts ordered).goOn within passes since ran

/-- A tuple without parentheses lies among its tokens. -/
theorem readTuple_reaches (fuel : Nat) (level : Power) :
    Reaches tokens At begun lo (readTuple fuel level) fun e hi =>
      lo ≤ e.span.start ∧ e.span.start ≤ e.span.stop ∧ e.span.stop ≤ hi := by
  cases fuel with
  | zero =>
      rw [readTuple]
      exact .giveUp
  | succ fuel =>
      rw [readTuple]
      refine readExpr_begins fun e after ordered => .kind fun _ _ => .ite (fun _ => ?_) fun _ => ?_
      · refine .skip ((retraces tokens fuel).tupleRest level).takes fun others => ?_
        refine .spanFrom fun stop le => .pure ?_
        exact ⟨after, le, Nat.le_refl _⟩
      · exact .pure ⟨after, ordered, Nat.le_refl _⟩

/-- A tuple without parentheses takes at least one token. -/
theorem readTuple_moves (fuel : Nat) (level : Power) :
    Takes tokens At (readTuple fuel level) fun passed _ _ => passed ≠ [] :=
  ((retraces tokens fuel).tuple level).takes.mono fun _ _ _ known => known.1

/-- The links of a chain of assignments stay in their line. -/
theorem readLinks_level (fuel : Nat) : Level tokens At Any (readLinks fuel) := by
  induction fuel generalizing At with
  | zero => exact .giveUp
  | succ fuel ih =>
      rw [readLinks]
      refine .eat rfl fun _ => .ite ?_ (.pure trivial)
      exact .bind (.tuple fuel _) fun _ => .bind ih fun _ => .pure trivial

/-- An import of modules lies among its tokens. -/
theorem readImport_places (fuel : Nat) :
    Places tokens Visible ([·]) (readImport fuel) := by
  refine fun lo => .step (fun _ visible => visible.ne_eof) fun token after => ?_
  refine .skip (readImports_level fuel) fun _ => ?_
  exact finish_reaches fun _ ordered => .bare after ordered rfl

/-- An import of names lies among its tokens. -/
theorem readFromImport_places (fuel : Nat) :
    Places tokens Visible ([·]) (readFromImport fuel) := by
  refine fun lo => .step (fun _ visible => visible.ne_eof) fun token after => ?_
  have named : ∀ {At : TokenKind → Prop} {module : String} {isWildcard : Bool}
      (names : List ImportName), Reaches tokens At (some token.span.start) token.span.start (do
        let span ← spanFrom token.span.start
        endSimple
        return .importFrom span module names isWildcard) fun stmt hi => Settled lo [stmt] hi :=
    fun _ => finish_reaches fun _ ordered => .bare after ordered rfl
  have goesOn : ∀ {At : TokenKind → Prop} {dots : String} (path : String),
      Reaches tokens At (some token.span.start) token.span.start (do
        let _ ← expect .importKw
        let isWildcard ← eat .star
        let names ← if isWildcard then pure [] else readImportList fuel
        let span ← spanFrom token.span.start
        endSimple
        return .importFrom span (dots ++ path) names isWildcard)
      fun stmt hi => Settled lo [stmt] hi := by
    intro At dots path
    refine .skip (expect_takes (by decide)) fun _ => .skip (eat_takes (by decide)) fun _ => ?_
    exact .ite (fun _ => .known (named _)) fun _ => .skip (readImportList_level fuel) named
  refine .skip (readLeadingDots_level fuel) fun _ => .kind fun _ _ => ?_
  exact .ite (fun _ => .skip (readDottedName_level fuel) goesOn) fun _ => .known (goesOn _)

/-- A `return` statement lies among its tokens. -/
theorem readReturn_places (fuel : Nat) :
    Places tokens Visible ([·]) (readReturn fuel) := by
  refine fun lo => .step (fun _ visible => visible.ne_eof) fun token after => .look fun _ => ?_
  have ends : ∀ {At : TokenKind → Prop} (value : Option Expr),
      Reaches tokens At (some token.span.start) token.span.start (do
        let span ← spanFrom token.span.start
        endSimple
        return .ret span value) fun stmt hi => Settled lo [stmt] hi :=
    fun _ => finish_reaches fun _ ordered => .bare after ordered rfl
  refine .ite (fun _ => ?_) fun _ => .known (ends none)
  exact .skip (Level.tuple fuel _) fun _ => .known (ends _)

/-- A `raise` statement lies among its tokens. -/
theorem readRaise_places (fuel : Nat) :
    Places tokens Visible ([·]) (readRaise fuel) := by
  refine fun lo => .step (fun _ visible => visible.ne_eof) fun token after => .look fun _ => ?_
  refine .ite (fun _ => ?_) fun _ => finish_reaches fun _ ordered => .bare after ordered rfl
  refine .skip (Level.expr fuel _) fun _ => .skip (Level.optional fuel rfl) fun _ => ?_
  exact finish_reaches fun _ ordered => .bare after ordered rfl

/-- A keyword statement lies among its tokens. -/
theorem readKeyword_places (fuel : Nat) :
    Places tokens Visible ([·]) (readKeyword fuel) := by
  refine fun lo => .step (fun _ visible => visible.ne_eof) fun token after => ?_
  have ends : ∀ {At : TokenKind → Prop} (arguments : List Expr),
      Reaches tokens At (some token.span.start) token.span.start (do
        let span ← spanFrom token.span.start
        endSimple
        return .keyword span token.kind arguments) fun stmt hi => Settled lo [stmt] hi :=
    fun _ => finish_reaches fun _ ordered => .bare after ordered rfl
  dsimp only
  split
  · exact .known (ends _)
  · exact .known (ends _)
  · exact .known (ends _)
  · exact .skip (readOperands_level fuel) ends

/-- Assignments and expressions lie among their tokens. -/
theorem readSimpleHead_places (fuel : Nat) :
    Places tokens Anywhere ([·]) (readSimpleHead fuel) := by
  refine fun lo => .offset fun start after => ?_
  refine .begin (readTuple_moves fuel _) (readTuple_reaches fuel _) ?_
  rintro first hi ⟨starts, ordered, stops⟩
  have ends : ∀ {At : TokenKind → Prop} {bound : Nat} {build : Span → Stmt},
      (∀ stop, start ≤ stop → Settled lo [build ⟨start, stop⟩] stop) →
      Reaches tokens At (some start) bound (do return build (← spanFrom start))
        fun stmt hi => Settled lo [stmt] hi :=
    fun settled => .spanFrom fun stop ordered => .pure (settled stop ordered)
  refine .kind fun next _ => ?_
  split
  · refine .skip (readLinks_level fuel) fun links => .skip (ensureAllAssignable_takes _) fun _ => ?_
    exact ends fun _ ordered => .bare after ordered rfl
  · refine .skip advance_takes fun _ => .skip (ensureAssignable_takes _) fun _ => ?_
    refine .skip (Level.expr fuel _) fun _ => .skip (eat_takes (by decide)) fun _ => ?_
    refine .ite (fun _ => ?_) fun _ => .known (ends fun _ ordered => .bare after ordered rfl)
    exact .skip (Level.tuple fuel _) fun _ => .known (ends fun _ ordered => .bare after ordered rfl)
  · refine .ite (fun _ => ?_) fun _ => ?_
    · refine .skip (ensureAssignable_takes _) fun _ => .skip advance_takes fun _ => ?_
      exact .skip (Level.tuple fuel _) fun _ => ends fun _ ordered => .bare after ordered rfl
    · exact .pure (.cons (after.trans starts) (.nil ordered) (.nil stops))

/-- A simple statement lies among its tokens. -/
theorem readSimple_places (fuel : Nat) : Places tokens Anywhere ([·]) (readSimple fuel) :=
  fun _ => .place (readSimpleHead_places fuel) fun _ _ settled =>
    .skip endSimple_level fun _ => .pure settled

/-- All readers of statements, with a bound on how deeply they call each other: where the
statements stand that they give. -/
structure Placing (tokens : List Token) (fuel : Nat) : Prop where
  stmt : Places tokens Anywhere ([·]) (readStmt fuel)
  form : ∀ form, Places tokens (·.statement? = some form) ([·]) (readForm fuel form)
  function : ∀ start decorators isAsync, Reaches tokens Anywhere none start
    (readFunction fuel start decorators isAsync) fun stmt hi => Settled start [stmt] hi
  classDef : ∀ start decorators, Reaches tokens Anywhere none start
    (readClass fuel start decorators) fun stmt hi => Settled start [stmt] hi
  decorated : Places tokens Anywhere ([·]) (readDecorated fuel)
  forLoop : ∀ start isAsync, Reaches tokens Anywhere none start
    (readFor fuel start isAsync) fun stmt hi => Settled start [stmt] hi
  withBlock : ∀ start isAsync, Reaches tokens Anywhere none start
    (readWith fuel start isAsync) fun stmt hi => Settled start [stmt] hi
  conditional : Places tokens Visible ([·]) (readConditional fuel)
  tryBlock : Places tokens Visible ([·]) (readTry fuel)
  handlers : Places tokens Anywhere (fun handlers => (handlers.map Handler.body).flatten)
    (readHandlers fuel)
  orelse : Places tokens Anywhere id (readElse fuel)
  block : Places tokens Anywhere id (readBlock fuel)
  indented : Places tokens Anywhere id (readIndented fuel)
  inline : Places tokens Anywhere id (readInline fuel)

section Compound

variable {fuel : Nat} (ih : Placing tokens fuel)

include ih

/-- A function goes from its start to the end of its body. -/
theorem function_reaches (start : Nat) (decorators : List Expr) (isAsync : Bool) :
    Reaches tokens Anywhere none start (readFunction (fuel + 1) start decorators isAsync)
      fun stmt hi => Settled start [stmt] hi := by
  rw [readFunction]
  refine .beginSkip ((readSignature_takes fuel).mono fun _ _ _ known => known.1) ?_
  rintro ⟨name, signature⟩
  refine .place ih.block fun body hi settled => ?_
  refine compoundSpan_reaches (settled.join (.nil (Nat.le_refl _))) fun stop inner => .pure ?_
  exact .single (Nat.le_refl _) inner

/-- A class goes from its start to the end of its body. -/
theorem classDef_reaches (start : Nat) (decorators : List Expr) :
    Reaches tokens Anywhere none start (readClass (fuel + 1) start decorators)
      fun stmt hi => Settled start [stmt] hi := by
  rw [readClass]
  refine .beginSkip (expect_takes (by decide)) fun _ => .skip (expect_takes (by decide)) fun _ => ?_
  refine .skip (readBases_level fuel) ?_
  rintro ⟨bases, keywords⟩
  refine .place ih.block fun body hi settled => ?_
  refine compoundSpan_reaches (settled.join (.nil (Nat.le_refl _))) fun stop inner => .pure ?_
  exact .single (Nat.le_refl _) inner

/-- A `for` loop goes from its start to the end of its last body. -/
theorem forLoop_reaches (start : Nat) (isAsync : Bool) :
    Reaches tokens Anywhere none start (readFor (fuel + 1) start isAsync)
      fun stmt hi => Settled start [stmt] hi := by
  rw [readFor]
  refine .beginSkip (expect_takes (by decide)) fun _ => .skip (Level.tuple fuel _) fun _ => ?_
  refine .skip (expect_takes (by decide)) fun _ => .skip (Level.tuple fuel _) fun _ => ?_
  refine .place ih.block fun body _ first => .place ih.orelse fun orelse _ second => ?_
  refine compoundSpan_reaches (first.join (second.join (.nil (Nat.le_refl _))))
    fun stop inner => .pure ?_
  exact .single (Nat.le_refl _) inner

/-- A `with` block goes from its start to the end of its body. -/
theorem withBlock_reaches (start : Nat) (isAsync : Bool) :
    Reaches tokens Anywhere none start (readWith (fuel + 1) start isAsync)
      fun stmt hi => Settled start [stmt] hi := by
  rw [readWith]
  refine .beginSkip (expect_takes (by decide)) fun _ => .skip (readWithItems_level fuel) fun _ => ?_
  refine .place ih.block fun body hi settled => ?_
  refine compoundSpan_reaches (settled.join (.nil (Nat.le_refl _))) fun stop inner => .pure ?_
  exact .single (Nat.le_refl _) inner

/-- A decorated definition goes from its first decorator to the end of its body. -/
theorem decorated_places : Places tokens Anywhere ([·]) (readDecorated (fuel + 1)) := by
  intro lo
  rw [readDecorated]
  refine .offset fun start after => .skip (readDecorators_level fuel) fun decorators => ?_
  refine .kind fun next _ => ?_
  split
  · exact (ih.function _ _ _).anywhere.mono fun _ _ settled => settled.lower after
  · refine .skip advance_takes fun _ => ?_
    exact (ih.function _ _ _).mono fun _ _ settled => settled.lower after
  · exact (ih.classDef _ _).anywhere.mono fun _ _ settled => settled.lower after
  · exact .failHere _

/-- A conditional encloses its branches. -/
theorem conditional_places : Places tokens Visible ([·]) (readConditional (fuel + 1)) := by
  intro lo
  rw [readConditional]
  refine .step (fun _ visible => visible.ne_eof) fun token after => ?_
  refine .skip (Level.expr fuel _) fun test => .place ih.block fun body middle first => ?_
  have ends : ∀ {At : TokenKind → Prop} {hi : Nat} (orelse : List Stmt),
      Settled middle orelse hi → Reaches tokens At (some token.span.start) hi (do
        return .conditional (← compoundSpan token.span.start [body, orelse]) test body orelse)
      fun stmt hi => Settled lo [stmt] hi := by
    intro At hi orelse second
    refine compoundSpan_reaches (first.join (second.join (.nil (Nat.le_refl _))))
      fun stop inner => .pure ?_
    exact .single after inner
  refine .kind fun next _ => .ite (fun chained => ?_) fun _ => ?_
  · refine .bind ((ih.conditional middle).inside.narrow ?_) fun stmt hi second => ?_
    · rintro _ rfl
      rw [chained]
      rfl
    · exact .known (ends _ second)
  · exact .bind (ih.orelse middle).inside.anywhere fun orelse hi second => ends _ second

/-- A `try` block encloses its clauses. -/
theorem tryBlock_places : Places tokens Visible ([·]) (readTry (fuel + 1)) := by
  intro lo
  rw [readTry]
  refine .step (fun _ visible => visible.ne_eof) fun token after => ?_
  refine .place ih.block fun body _ first => .place ih.handlers fun handlers _ clauses => ?_
  refine .place ih.orelse fun orelse middle otherwise => ?_
  have ends : ∀ {At : TokenKind → Prop} {hi : Nat} (finalbody : List Stmt),
      Settled middle finalbody hi → Reaches tokens At (some token.span.start) hi (do
        if handlers.isEmpty ∧ finalbody.isEmpty then
          failHere "expected `except` or `finally` after `try` block"
        else
          let span ← compoundSpan token.span.start
            (body :: handlers.map Handler.body ++ [orelse, finalbody])
          return .tryBlock span body handlers orelse finalbody)
      fun stmt hi => Settled lo [stmt] hi := by
    intro At hi finalbody last
    have suites : Settled token.span.start
        (body :: handlers.map Handler.body ++ [orelse, finalbody]).flatten hi := by
      rw [List.flatten_append]
      exact (first.join clauses).append (otherwise.join (last.join (.nil (Nat.le_refl _))))
    refine .ite (fun _ => .failHere _) fun _ => ?_
    exact compoundSpan_reaches suites fun stop inner => .pure (.single after inner)
  refine .skip (eat_takes (by decide)) fun _ => .ite (fun _ => ?_) fun _ => ?_
  · exact .place ih.block fun finalbody _ last => ends finalbody last
  · exact .known (ends [] (.nil (Nat.le_refl _)))

/-- What is in handlers stands one behind the other. -/
theorem handlers_places : Places tokens Anywhere
    (fun handlers => (handlers.map Handler.body).flatten) (readHandlers (fuel + 1)) := by
  intro lo
  rw [readHandlers]
  refine .kind fun next _ => .ite (fun clause => ?_) fun _ => .pure (.nil (Nat.le_refl _))
  refine .step (fun _ here => here ▸ clause ▸ by decide) fun token after => ?_
  have ends : ∀ {At : TokenKind → Prop} (exception : Option Expr),
      Reaches tokens At (some token.span.start) token.span.start (do
        let name ← readAlias
        let body ← readBlock fuel
        let span ← compoundSpan token.span.start [body]
        let others ← readHandlers fuel
        return (⟨span, exception, name, body⟩ : Handler Stmt) :: others)
      fun handlers hi => Settled lo (handlers.map Handler.body).flatten hi := by
    intro At exception
    refine .skip readAlias_level fun _ => .place ih.block fun body _ settled => ?_
    refine compoundSpan_reaches (settled.join (.nil (Nat.le_refl _))) fun stop inner => ?_
    refine .place ih.handlers fun handlers _ others => .pure ?_
    rw [List.flatten_singleton] at inner
    exact (inner.lower after).join others
  refine .skip (eat_takes (by decide)) fun _ => .kind fun _ _ => .ite (fun _ => ?_) fun _ => ?_
  · exact .known (ends _)
  · exact .skip (Level.expr fuel _) fun _ => .known (ends _)

/-- What is in an `else` clause stands behind what is before it. -/
theorem orelse_places : Places tokens Anywhere id (readElse (fuel + 1)) := by
  intro lo
  rw [readElse]
  refine .skip (eat_takes (by decide)) fun _ => .ite (fun _ => ih.block lo) fun _ => ?_
  exact .pure (.nil (Nat.le_refl _))

/-- The statements of a block stand one behind the other. -/
theorem block_places : Places tokens Anywhere id (readBlock (fuel + 1)) := by
  intro lo
  rw [readBlock]
  refine .skip (expect_takes (by decide)) fun _ => .skip (eat_takes (by decide)) fun _ => ?_
  refine .ite (fun _ => .skip (expectOr_takes (by decide)) fun _ => ?_) fun _ => ih.inline lo
  refine .place ih.indented fun body _ settled => ?_
  exact .skip (eat_takes (by decide)) fun _ => .pure settled

/-- The statements of an indented block stand one behind the other. -/
theorem indented_places : Places tokens Anywhere id (readIndented (fuel + 1)) := by
  intro lo
  rw [readIndented]
  refine .kind fun next _ => ?_
  split
  · exact .pure (.nil (Nat.le_refl _))
  · exact .pure (.nil (Nat.le_refl _))
  · exact .skip advance_takes fun _ => ih.indented lo
  · refine .bind (ih.stmt lo).anywhere fun stmt hi first => ?_
    exact .place ih.indented fun others _ settled => .pure (first.append settled)

/-- The same for statements on the line of their header. -/
theorem inline_places : Places tokens Anywhere id (readInline (fuel + 1)) := by
  intro lo
  rw [readInline]
  refine .place ih.stmt fun stmt hi first => .get fun cursor => .ite (fun _ => ?_) fun _ => ?_
  · exact .place ih.inline fun others _ settled => .pure (first.append settled)
  · exact .pure first

/-- Statements of every form lie among their tokens. -/
theorem form_places (form : StatementForm) :
    Places tokens (·.statement? = some form) ([·]) (readForm (fuel + 1) form) := by
  have visible : ∀ kind : TokenKind, kind.statement? = some form → Visible kind :=
    fun _ => visible_of_statement?
  have alone : ∀ {lo : Nat} {reader : Nat → Parse Stmt},
      (∀ start, Reaches tokens Anywhere none start (reader start)
        fun stmt hi => Settled start [stmt] hi) →
      Reaches tokens (·.statement? = some form) none lo (offset >>= reader)
        fun stmt hi => Settled lo [stmt] hi :=
    fun reads => .offset fun start after =>
      (reads start).anywhere.mono fun _ _ settled => settled.lower after
  intro lo
  cases form with
  | function =>
      rw [readForm]
      exact alone fun start => ih.function start [] false
  | classDef =>
      rw [readForm]
      exact alone fun start => ih.classDef start []
  | forLoop =>
      rw [readForm]
      exact alone fun start => ih.forLoop start false
  | withBlock =>
      rw [readForm]
      exact alone fun start => ih.withBlock start false
  | decorated =>
      rw [readForm]
      exact (ih.decorated lo).anywhere
  | async =>
      rw [readForm]
      refine .step (fun _ here => (visible _ here).ne_eof) fun token after => .kind fun next _ => ?_
      split
      · exact (ih.function _ _ _).inside.anywhere.mono fun _ _ settled => settled.lower after
      · exact (ih.forLoop _ _).inside.anywhere.mono fun _ _ settled => settled.lower after
      · exact (ih.withBlock _ _).inside.anywhere.mono fun _ _ settled => settled.lower after
      · exact .failHere _
  | conditional =>
      rw [readForm]
      exact (ih.conditional lo).narrow visible
  | whileLoop =>
      rw [readForm]
      refine .step (fun _ here => (visible _ here).ne_eof) fun token after => ?_
      refine .skip (Level.expr fuel _) fun test => ?_
      refine .place ih.block fun body _ first => .place ih.orelse fun orelse _ second => ?_
      refine compoundSpan_reaches (first.join (second.join (.nil (Nat.le_refl _))))
        fun stop inner => .pure ?_
      exact .single after inner
  | tryBlock =>
      rw [readForm]
      exact (ih.tryBlock lo).narrow visible
  | ret =>
      rw [readForm]
      exact (readReturn_places fuel lo).narrow visible
  | raise =>
      rw [readForm]
      exact (readRaise_places fuel lo).narrow visible
  | importNames =>
      rw [readForm]
      exact (readImport_places fuel lo).narrow visible
  | importFrom =>
      rw [readForm]
      exact (readFromImport_places fuel lo).narrow visible
  | keyword =>
      rw [readForm]
      exact (readKeyword_places fuel lo).narrow visible

end Compound

theorem placing_zero : Placing tokens 0 where
  stmt lo := by rw [readStmt]; exact .giveUp
  form form lo := by rw [readForm]; exact .giveUp
  function start decorators isAsync := by rw [readFunction]; exact .giveUp
  classDef start decorators := by rw [readClass]; exact .giveUp
  decorated lo := by rw [readDecorated]; exact .giveUp
  forLoop start isAsync := by rw [readFor]; exact .giveUp
  withBlock start isAsync := by rw [readWith]; exact .giveUp
  conditional lo := by rw [readConditional]; exact .giveUp
  tryBlock lo := by rw [readTry]; exact .giveUp
  handlers lo := by rw [readHandlers]; exact .giveUp
  orelse lo := by rw [readElse]; exact .giveUp
  block lo := by rw [readBlock]; exact .giveUp
  indented lo := by rw [readIndented]; exact .giveUp
  inline lo := by rw [readInline]; exact .giveUp

/-- The statements that are read stand one after another. -/
theorem placing (tokens : List Token) (fuel : Nat) : Placing tokens fuel := by
  induction fuel with
  | zero => exact placing_zero
  | succ fuel ih =>
      refine {
        stmt := ?_
        form := form_places ih
        function := function_reaches ih
        classDef := classDef_reaches ih
        decorated := decorated_places ih
        forLoop := forLoop_reaches ih
        withBlock := withBlock_reaches ih
        conditional := conditional_places ih
        tryBlock := tryBlock_places ih
        handlers := handlers_places ih
        orelse := orelse_places ih
        block := block_places ih
        indented := indented_places ih
        inline := inline_places ih }
      intro lo cursor stmt after inside here stands ran
      have known : cursor.statement? = cursor.kind.statement? := by
        rw [Cursor.statement?, inside.full]
        rfl
      rw [readStmt, get_bind, known] at ran
      cases starts : cursor.kind.statement? with
      | some form =>
          rw [starts] at ran
          exact ih.form form lo cursor stmt after inside starts stands ran
      | none =>
          rw [starts] at ran
          exact readSimple_places fuel lo cursor stmt after inside here stands ran

/-- The statements of a program stand one behind the other. -/
theorem readProgram_places (fuel : Nat) : Places tokens Anywhere id (readProgram fuel) := by
  induction fuel with
  | zero => exact fun _ => .giveUp
  | succ fuel ih =>
      intro lo
      rw [readProgram]
      refine .kind fun next _ => ?_
      split
      · exact .pure (.nil (Nat.le_refl _))
      · exact .skip advance_takes fun _ => ih lo
      · refine .bind ((placing tokens fuel).stmt lo).anywhere fun stmt hi first => ?_
        exact .place ih fun others _ settled => .pure (first.append settled)

/-- The statements of a program stand in its span. -/
theorem program_settled {file : String} {stop : Token} {program : Program} {after : Cursor}
    (ends : stop.kind = .eof) (spread : Spread 0 tokens stop.span.start)
    (ran : Parse.program (Cursor.ofTokens file false (tokens ++ [stop])) = .ok program after) :
    Settled program.span.start program.body program.span.stop := by
  rw [Cursor.ofTokens_concat file false ends] at ran
  have inside : (Cursor.before file false tokens stop).Within tokens :=
    Cursor.within_before file ends
  have stands : (Cursor.before file false tokens stop).Stands none 0 :=
    ⟨spread, fun _ member => by cases member⟩
  have reaches : Reaches tokens Anywhere none 0 Parse.program fun program _ =>
      Settled program.span.start program.body program.span.stop := by
    refine .get fun cursor => .place (readProgram_places _) fun body hi settled => ?_
    exact .offset fun stop le => .pure (settled.upper le)
  obtain ⟨_, _, _, _, settled⟩ := reaches _ program after inside trivial stands ran
  exact settled

end Grammar

/-- **The statements of an accepted text stand one after another**, each with those inside it
between its own start and stop. -/
theorem Source.statements_settled {text file : String} {source : Source}
    (accepted : read text file = .ok source) :
    Stmt.Settled source.program.span.start source.program.body source.program.span.stop := by
  obtain ⟨tokens, program, scanned, parsed, rfl⟩ := eq_ofProgram_of_read accepted
  obtain ⟨body, stop, rfl, ends, -⟩ := Token.scan_nested scanned
  unfold Program.ofTokens at parsed
  split at parsed
  case h_2 => cases parsed
  case h_1 own after ran =>
    cases parsed
    exact Grammar.program_settled ends (Token.scan_spread scanned) ran

end DocSketch
