import DocSketch.Proofs.Grammar.MirroredStatements

/-!
# Statements are read alike

Two readers of programs run side by side, at cursors that are related in one way where a statement
can start, in another one inside of it, and so on.  What these relations must keep is little: how
single tokens are gone past, and where a simple statement ends.

* `Grammar.Phases`: what is asked of the relations.
* `Grammar.MirroredStatements`: what follows for each reader of statements.
* `Grammar.mirroredStatements`: for all bounds on how deeply the readers call each other.
-/

namespace DocSketch

/-- Keywords that continue a compound statement behind one of its bodies. -/
def TokenKind.continues : TokenKind → Bool
  | .elifKw | .elseKw | .exceptKw | .finallyKw => true
  | _ => false

namespace Cursor

variable {cursor : Cursor}

/-- Whether more statements follow on the line. -/
def RunsOn (cursor : Cursor) : Prop :=
  cursor.previous.kind = .semicolon ∧
    ¬(cursor.kind = .newline ∨ cursor.kind = .dedent ∨ cursor.kind = .eof)

/-- What statement starts at a cursor is told by the kind ahead. -/
theorem Sound.statement?_eq (sound : cursor.Sound) :
    cursor.statement? = cursor.kind.statement? := by
  rw [statement?, sound.full]
  rfl

/-- Statements start with real tokens. -/
theorem Sound.real_of_statement {form : StatementForm} (sound : cursor.Sound)
    (starts : cursor.statement? = some form) : cursor.kind.isIdle = false := by
  rw [sound.statement?_eq] at starts
  generalize cursor.kind = kind at starts ⊢
  cases kind <;> first | rfl | cases starts

end Cursor

namespace Grammar

open Parse

open DocSketch.Expr (unspannedAll unspannedOption)

/-- Where the readers of statements can be. -/
inductive Phase where
  /-- A statement can start here, or its block ends. -/
  | begins
  /-- Behind the colon before a body, or behind the end of a line. -/
  | fresh
  /-- Somewhere in a statement. -/
  | within
  | decorated
  /-- Behind a statement, and behind the end of its line if it is a simple one. -/
  | left
  | ended

/-- Relations between cursors that the readers of statements keep; `Enough` relates the bounds on
how deeply they call each other. -/
structure Phases (R : Phase → Cursor → Cursor → Prop) (Enough : Nat → Nat → Prop) : Prop where
  within : Mirroring (R .within)
  decorated : Mirroring (R .decorated)
  begins_of_fresh : ∀ {cursor other : Cursor}, R .fresh cursor other → R .begins cursor other
  within_of_begins : ∀ {cursor other : Cursor}, R .begins cursor other → R .within cursor other
  left_of_begins : ∀ {cursor other : Cursor}, R .begins cursor other → R .left cursor other
  kind_eq : ∀ {cursor other : Cursor}, R .begins cursor other → cursor.kind = other.kind
  colon : Crosses (R .within) .colon (R .fresh)
  layout : ∀ {kind : TokenKind}, kind = .newline ∨ kind = .indent ∨ kind = .dedent →
    Crosses (R .begins) kind (R .fresh)
  atSign : Crosses (R .begins) .atSign (R .decorated)
  line : Crosses (R .decorated) .newline (R .fresh)
  /-- Where a simple statement ends. -/
  endSimple : Mirrors (R .within) (R .left) id endSimple endSimple
  continuation : ∀ {kind : TokenKind}, kind.continues = true → Crosses (R .left) kind (R .within)
  continuing : ∀ {cursor other : Cursor}, R .left cursor other → cursor.kind.continues = true →
    R .within cursor other
  runsOn_iff : ∀ {cursor other : Cursor}, R .left cursor other → (cursor.RunsOn ↔ other.RunsOn)
  runsOn : ∀ {cursor other : Cursor}, R .left cursor other → cursor.RunsOn →
    R .begins cursor other
  ended : ∀ {cursor other : Cursor}, R .begins cursor other → cursor.kind = .eof →
    R .ended cursor other
  larger : ∀ {fuel more : Nat}, Enough fuel more → fuel ≤ more
  lower : ∀ {fuel more : Nat}, Enough (fuel + 1) more →
    ∃ less, more = less + 1 ∧ Enough fuel less
  /-- A loop over statements can go on from where a statement cannot start. -/
  indented : ∀ {fuel more : Nat}, Enough fuel more →
    Mirrors (R .begins) (R .begins) Stmt.unspannedBody (readIndented (fuel + 1))
      (readIndented (more + 1)) →
    Mirrors (R .left) (R .begins) Stmt.unspannedBody (readIndented (fuel + 1))
      (readIndented (more + 1))
  program : ∀ {fuel more : Nat}, Enough fuel more →
    Mirrors (R .begins) (R .ended) Stmt.unspannedBody (readProgram (fuel + 1))
      (readProgram (more + 1)) →
    Mirrors (R .left) (R .ended) Stmt.unspannedBody (readProgram (fuel + 1))
      (readProgram (more + 1))

variable {R : Phase → Cursor → Cursor → Prop} {Enough : Nat → Nat → Prop}

namespace Phases

variable (phases : Phases R Enough) {cursor other : Cursor}

include phases

/-- Cursors at the start of a statement stand on tokens. -/
theorem sound (begins : R .begins cursor other) : cursor.Sound ∧ other.Sound :=
  phases.within.sound (phases.within_of_begins begins)

/-- Behind a whole line, a statement has been left. -/
theorem left_of_fresh (fresh : R .fresh cursor other) : R .left cursor other :=
  phases.left_of_begins (phases.begins_of_fresh fresh)

end Phases

/-- The readers of statements with the bound `fuel` beside themselves with the bound `more`. -/
structure MirroredStatements (R : Phase → Cursor → Cursor → Prop) (fuel more : Nat) : Prop where
  decorators : Mirrors (R .begins) (R .begins) unspannedAll
    (readDecorators fuel) (readDecorators more)
  stmt : Mirrors (R .begins) (R .left) Stmt.unspanned (readStmt fuel)
    (readStmt more)
  form : ∀ form, Mirrors (Midway (R .begins)) (R .left) Stmt.unspanned
    (readForm fuel form) (readForm more form)
  function : ∀ start start' decorators decorators' isAsync,
    unspannedAll decorators = unspannedAll decorators' →
      Mirrors (R .within) (R .left) Stmt.unspanned
        (readFunction fuel start decorators isAsync) (readFunction more start' decorators' isAsync)
  classDef : ∀ start start' decorators decorators',
    unspannedAll decorators = unspannedAll decorators' →
      Mirrors (R .within) (R .left) Stmt.unspanned
        (readClass fuel start decorators) (readClass more start' decorators')
  decorated : Mirrors (R .begins) (R .left) Stmt.unspanned (readDecorated fuel)
    (readDecorated more)
  forLoop : ∀ start start' isAsync, Mirrors (R .within) (R .left)
    Stmt.unspanned (readFor fuel start isAsync) (readFor more start' isAsync)
  withBlock : ∀ start start' isAsync, Mirrors (R .within) (R .left)
    Stmt.unspanned (readWith fuel start isAsync) (readWith more start' isAsync)
  conditional : Mirrors (Midway (R .within)) (R .left) Stmt.unspanned
    (readConditional fuel) (readConditional more)
  tryBlock : Mirrors (Midway (R .within)) (R .left) Stmt.unspanned
    (readTry fuel) (readTry more)
  handlers : Mirrors (R .left) (R .left) Stmt.unspannedHandlers (readHandlers fuel)
    (readHandlers more)
  orelse : Mirrors (R .left) (R .left) Stmt.unspannedBody (readElse fuel) (readElse more)
  block : Mirrors (R .within) (R .left) Stmt.unspannedBody (readBlock fuel)
    (readBlock more)
  indented : Mirrors (R .left) (R .begins) Stmt.unspannedBody
    (readIndented fuel) (readIndented more)
  inline : Mirrors (R .begins) (R .left) Stmt.unspannedBody (readInline fuel)
    (readInline more)
  program : Mirrors (R .left) (R .ended) Stmt.unspannedBody (readProgram fuel)
    (readProgram more)

/-- The spans of compound statements are only compared up to places. -/
theorem compoundSpan_mirrors {α γ : Type} {Before After : Cursor → Cursor → Prop} {view : α → γ}
    {start start' : Nat} {bodies bodies' : List (List Stmt)} {use use' : Span → Parse α}
    (second : ∀ span span', Mirrors Before After view (use span) (use' span')) :
    Mirrors Before After view (compoundSpan start bodies >>= use)
      (compoundSpan start' bodies' >>= use') := by
  have looks : ∀ start bodies (cursor : Cursor), compoundSpan start bodies cursor =
      .ok (((lastStop? bodies).map (Span.mk start)).getD (cursor.spanFrom start)) cursor := by
    intro start bodies cursor
    unfold compoundSpan
    cases lastStop? bodies <;> rfl
  exact .look (looks _ _) (looks _ _) fun _ _ _ => (second _ _).facing

section Bodies

variable {fuel more : Nat} (phases : Phases R Enough) (ih : MirroredStatements R fuel more)

include phases ih

/-- An `else` clause is read in both programs or in neither. -/
theorem orelse_mirrors : Mirrors (R .left) (R .left) Stmt.unspannedBody
    (readElse (fuel + 1)) (readElse (more + 1)) := by
  rw [readElse, readElse]
  exact .ifEaten (phases.continuation rfl) ih.block (Mirrors.pure rfl).facing

/-- Blocks are read alike. -/
theorem block_mirrors : Mirrors (R .within) (R .left) Stmt.unspannedBody
    (readBlock (fuel + 1)) (readBlock (more + 1)) := by
  rw [readBlock, readBlock]
  refine .bind (.expect phases.colon) fun _ _ _ => ?_
  have line := (phases.layout (.inl rfl)).narrow phases.begins_of_fresh
  have block := (phases.layout (.inr (.inl rfl))).narrow phases.begins_of_fresh
  refine .ifEaten line ?_ (ih.inline.narrow phases.begins_of_fresh).facing
  refine .bind (.expectOr block _) fun _ _ _ => ?_
  have statements := ih.indented.narrow fun fresh => phases.left_of_fresh fresh
  refine .bind statements fun body body' alike => ?_
  refine .bind (.eat (phases.layout (.inr (.inr rfl)))) fun _ _ _ => (Mirrors.pure alike).widen ?_
  exact Or.rec phases.left_of_begins phases.left_of_fresh

/-- Statements on the line of their header are read alike. -/
theorem inline_mirrors : Mirrors (R .begins) (R .left) Stmt.unspannedBody
    (readInline (fuel + 1)) (readInline (more + 1)) := by
  rw [readInline, readInline]
  refine .bind ih.stmt fun stmt stmt' alike => .get fun cursor cursor' left => ?_
  refine .ite (phases.runsOn_iff left) (fun goes => ?_) fun _ => Mirrors.facing (.pure ?_)
  · have reads := ih.inline.narrow fun facing : Facing (· = cursor) (R .left) _ _ =>
      phases.runsOn facing.1 (facing.2 ▸ goes)
    refine .bind reads fun others others' alikes => .pure ?_
    simp only [Stmt.unspannedBody, alike, alikes]
  · simp only [Stmt.unspannedBody, alike]

/-- Statements of a block, from where one can start. -/
theorem indented_begins : Mirrors (R .begins) (R .begins)
    Stmt.unspannedBody (readIndented (fuel + 1)) (readIndented (more + 1)) := by
  rw [readIndented, readIndented]
  refine .kind fun cursor cursor' begins => ?_
  rw [← phases.kind_eq begins]
  obtain ⟨kind, here⟩ : ∃ kind, cursor.kind = kind := ⟨_, rfl⟩
  rw [here]
  split
  case h_1 => exact (Mirrors.pure rfl).facing
  case h_2 => exact (Mirrors.pure rfl).facing
  case h_3 =>
      have first := (Mirrors.step (phases.layout (.inl rfl))).narrow
        fun facing : Facing (· = cursor) (R .begins) _ _ =>
          ⟨facing.1, facing.2 ▸ here⟩
      refine .bind first fun _ _ _ => ih.indented.narrow fun fresh => ?_
      exact phases.left_of_fresh fresh
  case h_4 =>
      refine Mirrors.facing (.bind ih.stmt fun stmt stmt' alike => ?_)
      refine .bind ih.indented fun others others' alikes => .pure ?_
      simp only [Stmt.unspannedBody, alike, alikes]

/-- Statements up to the end of the file, from where one can start. -/
theorem program_begins : Mirrors (R .begins) (R .ended)
    Stmt.unspannedBody (readProgram (fuel + 1)) (readProgram (more + 1)) := by
  rw [readProgram, readProgram]
  refine .kind fun cursor cursor' begins => ?_
  rw [← phases.kind_eq begins]
  obtain ⟨kind, here⟩ : ∃ kind, cursor.kind = kind := ⟨_, rfl⟩
  rw [here]
  split
  case h_1 =>
      exact (Mirrors.pure rfl).widen fun facing => phases.ended facing.1 (facing.2 ▸ here)
  case h_2 =>
      have first := (Mirrors.step (phases.layout (.inl rfl))).narrow
        fun facing : Facing (· = cursor) (R .begins) _ _ =>
          ⟨facing.1, facing.2 ▸ here⟩
      refine .bind first fun _ _ _ => ih.program.narrow fun fresh => ?_
      exact phases.left_of_fresh fresh
  case h_3 =>
      refine Mirrors.facing (.bind ih.stmt fun stmt stmt' alike => ?_)
      refine .bind ih.program fun others others' alikes => .pure ?_
      simp only [Stmt.unspannedBody, alike, alikes]

end Bodies

/-- Bodies that are alike are empty together. -/
theorem isEmpty_body {body body' : List Stmt}
    (alike : Stmt.unspannedBody body = Stmt.unspannedBody body') :
    body.isEmpty = body'.isEmpty := by
  cases body <;> cases body' <;> first | rfl | cases alike

/-- Handlers that are alike are missing together. -/
theorem isEmpty_handlers {handlers handlers' : List (Handler Stmt)}
    (alike : Stmt.unspannedHandlers handlers = Stmt.unspannedHandlers handlers') :
    handlers.isEmpty = handlers'.isEmpty := by
  cases handlers <;> cases handlers' <;> first | rfl | cases alike

section Statements

variable {fuel more : Nat} {start start' : Nat} (phases : Phases R Enough) (larger : fuel ≤ more)
  (ih : MirroredStatements R fuel more)

include phases larger ih

/-- Decorators are read alike. -/
theorem decorators_mirrors : Mirrors (R .begins) (R .begins)
    unspannedAll (readDecorators (fuel + 1)) (readDecorators (more + 1)) := by
  rw [readDecorators, readDecorators]
  refine .ifEaten phases.atSign ?_ (Mirrors.pure rfl).facing
  refine .bind ((mirrored phases.decorated fuel more larger).expr _) fun e e' alike => ?_
  refine .bind (.expect phases.line) fun _ _ _ => ?_
  have lines : Crosses (R .fresh) .newline (R .fresh) :=
    (phases.layout (.inl rfl)).narrow phases.begins_of_fresh
  have sound : ∀ {cursor other : Cursor}, R .fresh cursor other → cursor.Sound ∧ other.Sound :=
    fun fresh => phases.sound (phases.begins_of_fresh fresh)
  refine .bind (.takeAll lines (by decide) sound) ?_
  refine fun _ _ _ => .bind (ih.decorators.narrow phases.begins_of_fresh) ?_
  refine fun others others' alikes => .pure ?_
  simp only [unspannedAll, alike, alikes]

/-- Statements are read alike, whatever they start with. -/
theorem stmt_mirrors : Mirrors (R .begins) (R .left) Stmt.unspanned
    (readStmt (fuel + 1)) (readStmt (more + 1)) := by
  rw [readStmt, readStmt]
  refine .get fun cursor cursor' begins => ?_
  obtain ⟨sound, sound'⟩ := phases.sound begins
  have same : cursor.statement? = cursor'.statement? := by
    rw [sound.statement?_eq, sound'.statement?_eq, phases.kind_eq begins]
  cases starts : cursor.statement? with
  | some form =>
      rw [starts] at same
      rw [← same]
      exact (ih.form form).here (sound.real_of_statement starts)
  | none =>
      rw [starts] at same
      rw [← same]
      have reads : Mirrors (R .within) (R .left) Stmt.unspanned
          (readSimple fuel) (readSimple more) :=
        readSimple_mirrors phases.within larger phases.endSimple
      exact (reads.narrow phases.within_of_begins).facing

/-- Functions are read alike. -/
theorem function_mirrors (decorators decorators' : List Expr) (isAsync : Bool)
    (decorated : unspannedAll decorators = unspannedAll decorators') :
    Mirrors (R .within) (R .left) Stmt.unspanned
      (readFunction (fuel + 1) start decorators isAsync)
      (readFunction (more + 1) start' decorators' isAsync) := by
  rw [readFunction, readFunction]
  refine .bind (readSignature_mirrors phases.within larger) fun found found' same => ?_
  obtain ⟨named, declared⟩ := Prod.mk.inj same
  refine .bind ih.block fun body body' alike => compoundSpan_mirrors fun _ _ => .pure ?_
  simp only [Stmt.unspanned, named, declared, alike, decorated]

/-- Classes are read alike. -/
theorem class_mirrors (decorators decorators' : List Expr)
    (decorated : unspannedAll decorators = unspannedAll decorators') :
    Mirrors (R .within) (R .left) Stmt.unspanned
      (readClass (fuel + 1) start decorators) (readClass (more + 1) start' decorators') := by
  rw [readClass, readClass]
  refine .bind (.expect (phases.within.crosses rfl)) fun _ _ _ => ?_
  refine .bind (.expect (phases.within.crosses rfl)) fun name name' same => ?_
  refine .bind (readBases_mirrors phases.within larger) fun found found' given => ?_
  obtain ⟨bases, keywords⟩ := Prod.mk.inj given
  refine .bind ih.block fun body body' alike => compoundSpan_mirrors fun _ _ => .pure ?_
  simp only [Stmt.unspanned, (Prod.mk.inj same).2, bases, keywords, alike, decorated]

/-- `for` loops are read alike. -/
theorem forLoop_mirrors (isAsync : Bool) :
    Mirrors (R .within) (R .left) Stmt.unspanned
      (readFor (fuel + 1) start isAsync) (readFor (more + 1) start' isAsync) := by
  have exprs : Mirrored (R .within) fuel more :=
    mirrored phases.within fuel more larger
  rw [readFor, readFor]
  refine .bind (.expect (phases.within.crosses rfl)) fun _ _ _ => ?_
  refine .bind (exprs.tuple _) fun target target' aimed => ?_
  refine .bind (.expect (phases.within.crosses rfl)) fun _ _ _ => ?_
  refine .bind (exprs.tuple _) fun iter iter' drawn => ?_
  refine .bind ih.block fun body body' alike => .bind ih.orelse fun orelse orelse' other => ?_
  refine compoundSpan_mirrors fun _ _ => .pure ?_
  simp only [Stmt.unspanned, aimed, drawn, alike, other]

/-- `with` blocks are read alike. -/
theorem withBlock_mirrors (isAsync : Bool) :
    Mirrors (R .within) (R .left) Stmt.unspanned
      (readWith (fuel + 1) start isAsync) (readWith (more + 1) start' isAsync) := by
  have parts : MirroredParts (R .within) fuel more :=
    mirroredParts phases.within fuel more larger
  rw [readWith, readWith]
  refine .bind (.expect (phases.within.crosses rfl)) fun _ _ _ => ?_
  refine .bind parts.withItems fun items items' held => ?_
  refine .bind ih.block fun body body' alike => compoundSpan_mirrors fun _ _ => .pure ?_
  simp only [Stmt.unspanned, held, alike]

/-- `while` loops are read alike. -/
theorem whileLoop_mirrors : Mirrors (Midway (R .within)) (R .left)
    Stmt.unspanned (readForm (fuel + 1) .whileLoop) (readForm (more + 1) .whileLoop) := by
  have exprs : Mirrored (R .within) fuel more :=
    mirrored phases.within fuel more larger
  rw [readForm, readForm]
  refine .bind (.advance phases.within) fun _ _ _ => ?_
  refine .bind (exprs.expr _) fun test test' asked => .bind ih.block fun body body' alike => ?_
  refine .bind ih.orelse fun orelse orelse' other => compoundSpan_mirrors fun _ _ => .pure ?_
  simp only [Stmt.unspanned, asked, alike, other]

/-- Conditionals and their chained branches are read alike. -/
theorem conditional_mirrors : Mirrors (Midway (R .within)) (R .left)
    Stmt.unspanned (readConditional (fuel + 1)) (readConditional (more + 1)) := by
  have exprs : Mirrored (R .within) fuel more :=
    mirrored phases.within fuel more larger
  rw [readConditional, readConditional]
  refine .bind (.advance phases.within) fun _ _ _ => ?_
  refine .bind (exprs.expr _) fun test test' asked => .bind ih.block fun body body' alike => ?_
  have chained := ih.conditional.narrow
    fun facing : Facing (·.kind = .elifKw) (R .left) _ _ =>
      ⟨phases.continuing facing.1 (congrArg _ facing.2), congrArg _ facing.2⟩
  refine .ifKind (phases.continuation rfl) ?_ (Mirrors.facing ?_)
  · refine .bind chained fun other other' same => .supply (compoundSpan_mirrors fun _ _ => .pure ?_)
    simp only [Stmt.unspanned, Stmt.unspannedBody, asked, alike, same]
  · refine .bind ih.orelse fun orelse orelse' other => compoundSpan_mirrors fun _ _ => .pure ?_
    simp only [Stmt.unspanned, asked, alike, other]

/-- Handlers are read alike. -/
theorem handlers_mirrors : Mirrors (R .left) (R .left) Stmt.unspannedHandlers
    (readHandlers (fuel + 1)) (readHandlers (more + 1)) := by
  have exprs : Mirrored (R .within) fuel more :=
    mirrored phases.within fuel more larger
  have rest : ∀ {start start' : Nat} exception exception',
      unspannedOption exception = unspannedOption exception' →
      Mirrors (R .within) (R .left) Stmt.unspannedHandlers
        (do
          let name ← readAlias
          let body ← readBlock fuel
          let span ← compoundSpan start [body]
          let others ← readHandlers fuel
          return ⟨span, exception, name, body⟩ :: others)
        (do
          let name ← readAlias
          let body ← readBlock more
          let span ← compoundSpan start' [body]
          let others ← readHandlers more
          return ⟨span, exception', name, body⟩ :: others) := by
    intro start start' exception exception' same
    refine .bind (readAlias_mirrors phases.within) ?_
    rintro name - rfl
    refine .bind ih.block fun body body' alike => compoundSpan_mirrors fun _ _ => ?_
    refine .bind ih.handlers fun others others' alikes => .pure ?_
    simp only [Stmt.unspannedHandlers, same, alike, alikes, id]
  rw [readHandlers, readHandlers]
  refine .ifKind (phases.continuation rfl) ?_ (Mirrors.facing (.pure rfl))
  refine .bind (.step (phases.continuation rfl)) fun _ _ _ => ?_
  refine .bind (.eats phases.within rfl) fun _ _ _ => ?_
  refine .ifKind (phases.within.crosses rfl) ?_ (Mirrors.facing ?_)
  · exact Mirrors.facing (.supply (rest none none rfl))
  · refine .bind (exprs.expr _) fun exception exception' same => .supply (rest _ _ ?_)
    exact congrArg some same

omit larger in
/-- `try` blocks are read alike. -/
theorem try_mirrors : Mirrors (Midway (R .within)) (R .left)
    Stmt.unspanned (readTry (fuel + 1)) (readTry (more + 1)) := by
  rw [readTry, readTry]
  refine .bind (.advance phases.within) fun _ _ _ => ?_
  refine .bind ih.block fun body body' alike => ?_
  refine .bind ih.handlers fun handlers handlers' caught => ?_
  refine .bind ih.orelse fun orelse orelse' other => ?_
  have rest : ∀ {start start' : Nat} finalbody finalbody',
      Stmt.unspannedBody finalbody = Stmt.unspannedBody finalbody' →
      Mirrors (R .left) (R .left) Stmt.unspanned
        (if handlers.isEmpty ∧ finalbody.isEmpty then
          failHere "expected `except` or `finally` after `try` block"
        else do
          let span ← compoundSpan start (body :: handlers.map Handler.body ++ [orelse, finalbody])
          return .tryBlock span body handlers orelse finalbody)
        (if handlers'.isEmpty ∧ finalbody'.isEmpty then
          failHere "expected `except` or `finally` after `try` block"
        else do
          let span ← compoundSpan start'
            (body' :: handlers'.map Handler.body ++ [orelse', finalbody'])
          return .tryBlock span body' handlers' orelse' finalbody') := by
    intro start start' finalbody finalbody' same
    rw [isEmpty_handlers caught, isEmpty_body same]
    refine .ite Iff.rfl (fun _ => .failHere _) fun _ => compoundSpan_mirrors fun _ _ => .pure ?_
    simp only [Stmt.unspanned, alike, caught, other, same]
  refine .ifEaten (phases.continuation rfl) (.bind ih.block rest) ?_
  exact Mirrors.facing (.supply (rest [] [] rfl))

omit larger in
/-- Decorated definitions are read alike. -/
theorem decorated_mirrors : Mirrors (R .begins) (R .left) Stmt.unspanned
    (readDecorated (fuel + 1)) (readDecorated (more + 1)) := by
  rw [readDecorated, readDecorated]
  refine .offset fun _ _ => .bind ih.decorators fun decorators decorators' alikes => ?_
  refine .kind fun cursor cursor' begins => ?_
  rw [← phases.kind_eq begins]
  obtain ⟨kind, here⟩ : ∃ kind, cursor.kind = kind := ⟨_, rfl⟩
  rw [here]
  split
  case h_1 => exact ((ih.function _ _ _ _ _ alikes).narrow phases.within_of_begins).facing
  case h_2 =>
      have real : cursor.kind.isIdle = false := by rw [here]; rfl
      have moves : Mirrors (Midway (R .within)) (R .within)
          Token.spelling advance advance := .advance phases.within
      have first := (moves.here real).narrow fun facing : Facing (· = cursor) (R .begins) _ _ =>
        ⟨phases.within_of_begins facing.1, facing.2⟩
      refine .bind first fun _ _ _ => ?_
      exact ih.function _ _ _ _ _ alikes
  case h_3 => exact ((ih.classDef _ _ _ _ alikes).narrow phases.within_of_begins).facing
  case h_4 => exact .failHere _

omit larger in
/-- Asynchronous statements are read alike. -/
theorem async_mirrors : Mirrors (Midway (R .within)) (R .left)
    Stmt.unspanned (readForm (fuel + 1) .async) (readForm (more + 1) .async) := by
  rw [readForm, readForm]
  refine .bind (.advance phases.within) fun _ _ _ => ?_
  refine .kind fun cursor cursor' begins => ?_
  have same : ∀ {kind : TokenKind}, kind.isIdle = false → cursor.kind = kind →
      cursor'.kind = kind := fun real here => (phases.within.kind_iff begins real).mp here
  split
  case h_1 here =>
      rw [same rfl here]
      exact (ih.function _ _ _ _ _ rfl).facing
  case h_2 here =>
      rw [same rfl here]
      exact (ih.forLoop _ _ _).facing
  case h_3 here =>
      rw [same rfl here]
      exact (ih.withBlock _ _ _).facing
  case h_4 => exact .failHere _

/-- Every form of statement is read alike. -/
theorem form_mirrors (form : StatementForm) : Mirrors (Midway (R .begins))
    (R .left) Stmt.unspanned (readForm (fuel + 1) form) (readForm (more + 1) form) := by
  have ends : Mirrors (R .within) (R .left) id endSimple endSimple :=
    phases.endSimple
  have midway : ∀ {cursor other : Cursor}, Midway (R .begins) cursor other →
      Midway (R .within) cursor other :=
    fun facing => ⟨phases.within_of_begins facing.1, facing.2⟩
  cases form with
  | function =>
      rw [readForm, readForm]
      exact .offset fun _ _ => ((ih.function _ _ _ _ _ rfl).narrow phases.within_of_begins).facing
  | classDef =>
      rw [readForm, readForm]
      exact .offset fun _ _ => ((ih.classDef _ _ _ _ rfl).narrow phases.within_of_begins).facing
  | forLoop =>
      rw [readForm, readForm]
      exact .offset fun _ _ => ((ih.forLoop _ _ _).narrow phases.within_of_begins).facing
  | withBlock =>
      rw [readForm, readForm]
      exact .offset fun _ _ => ((ih.withBlock _ _ _).narrow phases.within_of_begins).facing
  | decorated =>
      rw [readForm, readForm]
      exact ih.decorated.facing
  | async => exact (async_mirrors phases ih).narrow midway
  | conditional =>
      rw [readForm, readForm]
      exact ih.conditional.narrow midway
  | whileLoop => exact (whileLoop_mirrors phases larger ih).narrow midway
  | tryBlock =>
      rw [readForm, readForm]
      exact ih.tryBlock.narrow midway
  | ret =>
      rw [readForm, readForm]
      exact (readReturn_mirrors phases.within larger ends).narrow midway
  | raise =>
      rw [readForm, readForm]
      exact (readRaise_mirrors phases.within larger ends).narrow midway
  | importNames =>
      rw [readForm, readForm]
      exact (readImport_mirrors phases.within larger ends).narrow midway
  | importFrom =>
      rw [readForm, readForm]
      exact (readFromImport_mirrors phases.within larger ends).narrow midway
  | keyword =>
      rw [readForm, readForm]
      exact (readKeyword_mirrors phases.within larger ends).narrow midway

end Statements

theorem mirroredStatements_zero (more : Nat) : MirroredStatements R 0 more where
  decorators := .exhausted rfl
  stmt := .exhausted (by rw [readStmt])
  form _ := .exhausted (by rw [readForm])
  function _ _ _ _ _ _ := .exhausted (by rw [readFunction])
  classDef _ _ _ _ _ := .exhausted (by rw [readClass])
  decorated := .exhausted (by rw [readDecorated])
  forLoop _ _ _ := .exhausted (by rw [readFor])
  withBlock _ _ _ := .exhausted (by rw [readWith])
  conditional := .exhausted (by rw [readConditional])
  tryBlock := .exhausted (by rw [readTry])
  handlers := .exhausted (by rw [readHandlers])
  orelse := .exhausted (by rw [readElse])
  block := .exhausted (by rw [readBlock])
  indented := .exhausted (by rw [readIndented])
  inline := .exhausted (by rw [readInline])
  program := .exhausted rfl

/-- Every reader of statements gives the same, up to places, with any larger bound that is
enough. -/
theorem mirroredStatements (phases : Phases R Enough) (fuel : Nat) : ∀ more, Enough fuel more →
    MirroredStatements R fuel more := by
  induction fuel with
  | zero => exact fun more _ => mirroredStatements_zero more
  | succ fuel ih =>
      intro more enough
      obtain ⟨more, rfl, below⟩ := phases.lower enough
      have larger := phases.larger below
      have inner := ih more below
      exact {
        decorators := decorators_mirrors phases larger inner
        stmt := stmt_mirrors phases larger inner
        form := form_mirrors phases larger inner
        function := fun _ _ => function_mirrors phases larger inner
        classDef := fun _ _ => class_mirrors phases larger inner
        decorated := decorated_mirrors phases inner
        forLoop := fun _ _ => forLoop_mirrors phases larger inner
        withBlock := fun _ _ => withBlock_mirrors phases larger inner
        conditional := conditional_mirrors phases larger inner
        tryBlock := try_mirrors phases inner
        handlers := handlers_mirrors phases larger inner
        orelse := orelse_mirrors phases inner
        block := block_mirrors phases inner
        indented := phases.indented below (indented_begins phases inner)
        inline := inline_mirrors phases inner
        program := phases.program below (program_begins phases inner) }

end Grammar

/-- A list of tokens that is read as a program, beside one that is related to it. -/
theorem Parse.program_mirrors {R : Grammar.Phase → Cursor → Cursor → Prop}
    {Enough : Nat → Nat → Prop} (phases : Grammar.Phases R Enough) {cursor other next : Cursor}
    {program : Program} (begins : R .begins cursor other)
    (enough : Enough cursor.budget other.budget)
    (ran : Parse.program cursor = .ok program next) :
    ∃ program' next', Parse.program other = .ok program' next' ∧ R .ended next next' ∧
      Stmt.unspannedBody program.body = Stmt.unspannedBody program'.body := by
  have statements := Grammar.mirroredStatements phases cursor.budget other.budget enough
  have reads : Mirrors (R .begins) (R .ended) (fun program => Stmt.unspannedBody program.body)
      (do
        let body ← Grammar.readProgram cursor.budget
        return (⟨body, ⟨0, ← Parse.offset⟩⟩ : Program))
      (do
        let body ← Grammar.readProgram other.budget
        return (⟨body, ⟨0, ← Parse.offset⟩⟩ : Program)) := by
    refine .bind (statements.program.narrow phases.left_of_begins) fun body body' alike => ?_
    exact .offset fun _ _ => .pure alike
  exact reads cursor other program next begins ran

end DocSketch
