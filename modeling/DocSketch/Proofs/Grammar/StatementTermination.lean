import DocSketch.Proofs.Grammar.Termination

/-!
# Reading ends

What has been said of the readers of expressions holds of those of statements, with ranks of
their own, and then of a whole list of tokens.

* `Grammar.EndingStatements`: how each reader of statements ends, with its rank.
* `Grammar.Loops`: every loop of the grammar does turns that go on only further ahead.
* `Grammar.reading_ends`: both, and what follows for whole lists of tokens.
-/

namespace DocSketch

namespace Grammar

open Parse

variable {fuel more size : Nat} {At : TokenKind → Prop}

section Simple

/-- The end of a simple statement needs no steps. -/
theorem endSimple_ends : Ends size At (fun _ => 0) endSimple endSimple := by
  refine .kind fun kind _ => ?_
  split
  · exact .andThen .advances fun _ => .pure rfl
  · exact .andThen .advances fun _ => .pure rfl
  · exact .pure rfl
  · exact .pure rfl
  · exact .failHere _

/-- A simple statement ends where its end is gone past. -/
theorem finished_ends {α : Type} (build : Span → α) (start : Nat) :
    Ends size At (fun _ => 0)
      (spanFrom start >>= fun span => endSimple >>= fun _ => pure (build span))
      (spanFrom start >>= fun span => endSimple >>= fun _ => pure (build span)) :=
  .spanFrom fun _ => .andThen endSimple_ends fun _ => .pure rfl

/-- Whether a target can be assigned to is no matter of steps. -/
theorem ensureAssignable_ends (target : Expr) :
    Ends size At (fun _ => 0) (ensureAssignable target) (ensureAssignable target) :=
  .ite (fun _ => .pure rfl) fun _ => .failAt (fun _ => Cause.noConfusion) _

/-- The same for a chain of targets. -/
theorem ensureAllAssignable_ends (targets : List Expr) :
    Ends size At (fun _ => 0) (ensureAllAssignable targets) (ensureAllAssignable targets) := by
  induction targets generalizing At with
  | nil => exact .pure rfl
  | cons target targets ih => exact .andThen (ensureAssignable_ends target) fun _ => ih

/-- The span of a compound statement is no matter of steps. -/
theorem compoundSpan_ends (start : Nat) (bodies : List (List Stmt)) :
    Ends size At (fun _ => 0) (compoundSpan start bodies) (compoundSpan start bodies) := by
  unfold compoundSpan
  split
  · exact .pure rfl
  · exact .stays fun cursor _ _ => ⟨rfl, .inl ⟨_, rfl, rfl⟩⟩

/-- The end of a compound statement: its span ends with its last body. -/
theorem compound_ends {start : Nat} {bodies : List (List Stmt)} (build : Span → Stmt) :
    Ends size At (fun _ => 0) (compoundSpan start bodies >>= fun span => pure (build span))
      (compoundSpan start bodies >>= fun span => pure (build span)) :=
  .andThen (compoundSpan_ends _ _) fun _ => .pure rfl

/-- An alias needs no steps. -/
theorem readAlias_ends : Ends size At (fun _ => 0) readAlias readAlias :=
  .ifEaten (by decide) (.step (.expect (by decide)) fun _ => .pure rfl) (.pure rfl)

end Simple

/-- How the readers of statements end, with the bound `fuel` as with the larger one `more`. -/
structure EndingStatements (fuel more : Nat) : Prop where
  dots : EndsFrom 1 Anything (fun _ => 0) readDots fuel more
  leadingDots : EndsFrom 1 Anything (fun _ => 0) readLeadingDots fuel more
  imports : EndsFrom 1 Anything (fun _ => 0) readImports fuel more
  importedNames : ∀ inParens,
    EndsFrom 1 Anything (fun _ => 0) (readImportedNames · inParens) fuel more
  operands : EndsFrom 4 Anything (fun _ => 0) readOperands fuel more
  links : EndsFrom 1 Anything (fun _ => 0) readLinks fuel more
  withItems : EndsFrom 4 Anything (fun _ => 0) readWithItems fuel more
  decorators : EndsFrom 1 Anything (fun _ => 0) readDecorators fuel more
  stmt : EndsFrom 5 Anything (fun _ => 1) readStmt fuel more
  form : ∀ form, EndsFrom 3 Real (fun _ => 1) (readForm · form) fuel more
  function : ∀ start decorators isAsync,
    EndsFrom 1 Anything (fun _ => 1) (readFunction · start decorators isAsync) fuel more
  classDef : ∀ start decorators,
    EndsFrom 1 Anything (fun _ => 1) (readClass · start decorators) fuel more
  decorated : EndsFrom 2 Anything (fun _ => 1) readDecorated fuel more
  forLoop : ∀ start isAsync,
    EndsFrom 1 Anything (fun _ => 1) (readFor · start isAsync) fuel more
  withBlock : ∀ start isAsync,
    EndsFrom 1 Anything (fun _ => 1) (readWith · start isAsync) fuel more
  conditional : EndsFrom 1 Real (fun _ => 1) readConditional fuel more
  tryBlock : EndsFrom 1 Real (fun _ => 1) readTry fuel more
  handlers : EndsFrom 1 Anything (fun _ => 0) readHandlers fuel more
  orelse : EndsFrom 1 Anything (fun _ => 0) readElse fuel more
  block : EndsFrom 1 Anything (fun _ => 1) readBlock fuel more
  indented : EndsFrom 6 Anything (fun _ => 0) readIndented fuel more
  inline : EndsFrom 6 Anything (fun _ => 0) readInline fuel more
  program : EndsFrom 6 Anything (fun _ => 0) readProgram fuel more

section Turns

/-- A turn over a further part of a dotted name takes its dot. -/
theorem dotsTurn_ends : Ends size At Turn.least dotsTurn dotsTurn :=
  .ifEaten (by decide) (.step (.expect (by decide)) fun _ => .pure rfl) (.pure rfl)

/-- A turn over the dots of a relative import takes them. -/
theorem leadingDotsTurn_ends : Ends size At Turn.least leadingDotsTurn leadingDotsTurn := by
  refine .kind fun kind _ => ?_
  split
  · exact .step (.advance fun _ same => by rw [same]; decide) fun _ => .pure rfl
  · exact .step (.advance fun _ same => by rw [same]; decide) fun _ => .pure rfl
  · exact .pure rfl

/-- A dotted name ends. -/
theorem readDottedName_ends (ih : EndingStatements fuel more)
    (enough : 16 * size + 1 ≤ fuel + 17) :
    Ends size At (fun _ => 0) (readDottedName fuel) (readDottedName more) :=
  .step (.expect (by decide)) fun _ => .andThen (ih.dots.use (by omega)) fun _ => .pure rfl

/-- A turn over an imported module takes the comma behind it. -/
theorem importsTurn_ends (ih : EndingStatements fuel more) (enough : 16 * size + 1 ≤ fuel + 17) :
    Ends size At Turn.least (chainedTurn (readImportName fuel))
      (chainedTurn (readImportName more)) :=
  chainedTurn_ends (.andThen (readDottedName_ends ih enough) fun _ =>
    .andThen readAlias_ends fun _ => .pure rfl)

/-- A turn over an imported name takes it. -/
theorem importedNamesTurn_ends (inParens : Bool) :
    Ends size At Turn.least (importedNamesTurn inParens) (importedNamesTurn inParens) := by
  refine .step (.expect (by decide)) fun _ => .andThen readAlias_ends fun _ => ?_
  refine .ifEaten (by decide) (.kind fun _ _ => ?_) (.pure rfl)
  exact .ite (fun _ => .pure rfl) fun _ => .pure rfl

/-- A turn over an operand takes the comma behind it. -/
theorem operandsTurn_ends (exprs : Ending fuel more) (enough : 16 * size + 4 ≤ fuel + 17) :
    Ends size At Turn.least (operandsTurn fuel) (operandsTurn more) := by
  refine .atExpression fun _ => .ite (fun _ => ?_) fun _ => .pure rfl
  refine .step ((exprs.expr _).use (by omega)) fun _ => ?_
  exact .ifEaten (by decide) (.pure rfl) (.pure rfl)

/-- A turn over a link takes its equals sign. -/
theorem linksTurn_ends (exprs : Ending fuel more) (enough : 16 * size + 1 ≤ fuel + 17) :
    Ends size At Turn.least (markedTurn .assignment (readTuple fuel .default))
      (markedTurn .assignment (readTuple more .default)) :=
  markedTurn_ends (by decide) ((exprs.tuple _).last (by omega) fun _ => Nat.zero_le _)

/-- A turn over an item takes the comma behind it. -/
theorem withItemsTurn_ends (exprs : Ending fuel more) (enough : 16 * size + 4 ≤ fuel + 17) :
    Ends size At Turn.least (chainedTurn (readWithItem fuel))
      (chainedTurn (readWithItem more)) := by
  refine chainedTurn_ends (.step ((exprs.expr _).use (by omega)) fun _ => ?_)
  refine .ifEaten (by decide) ?_ (.andThen (.pure rfl) fun _ => .pure rfl)
  refine .step ((exprs.expr _).use (by omega)) fun _ => ?_
  exact .andThen (.pure rfl) fun _ => .pure rfl

/-- A turn over a decorator takes its sign. -/
theorem decoratorsTurn_ends (exprs : Ending fuel more) (enough : 16 * size + 1 ≤ fuel + 17) :
    Ends size At Turn.least (markedTurn .atSign (readDecorator fuel))
      (markedTurn .atSign (readDecorator more)) := by
  refine markedTurn_ends (by decide) (.step ((exprs.expr _).use (by omega)) fun _ => ?_)
  exact .step (.expect (by decide)) fun _ => .andThen .takeAll fun _ => .pure rfl

/-- A turn over a handler takes its word. -/
theorem handlersTurn_ends (exprs : Ending fuel more) (ih : EndingStatements fuel more)
    (enough : 16 * size + 1 ≤ fuel + 17) :
    Ends size At Turn.least (handlersTurn fuel) (handlersTurn more) := by
  refine .kind fun _ _ => .ite (fun announced => ?_) fun _ => .pure rfl
  refine .step (.advance fun _ same => by rw [same, announced]; decide) fun _ => ?_
  refine .andThen (.eats (by decide)) fun _ => .kind fun _ _ => .ite (fun _ => ?_) fun _ => ?_
  · refine .andThen (.pure rfl) fun _ => .andThen readAlias_ends fun _ => ?_
    refine .bind (ih.block.use (by omega)) fun _ => .andThen (compoundSpan_ends _ _) fun _ => ?_
    exact .pure rfl
  · refine .bind ((exprs.expr _).use (by omega)) fun _ => .andThen (.pure rfl) fun _ => ?_
    refine .andThen readAlias_ends fun _ => .bind (ih.block.use (by omega)) fun _ => ?_
    exact .andThen (compoundSpan_ends _ _) fun _ => .pure rfl

/-- A turn in an indented block takes a line break or a statement. -/
theorem indentedTurn_ends (ih : EndingStatements fuel more) (enough : 16 * size + 6 ≤ fuel + 17) :
    Ends size At Turn.least (indentedTurn fuel) (indentedTurn more) := by
  refine .kind fun kind _ => ?_
  split
  · exact .pure rfl
  · exact .pure rfl
  · exact .step (.advance fun _ same => by rw [same]; decide) fun _ => .pure rfl
  · exact .step (ih.stmt.use (by omega)) fun _ => .pure rfl

/-- A turn on the line of a header takes a statement. -/
theorem inlineTurn_ends (ih : EndingStatements fuel more) (enough : 16 * size + 6 ≤ fuel + 17) :
    Ends size At Turn.least (inlineTurn fuel) (inlineTurn more) := by
  refine .step (ih.stmt.use (by omega)) fun _ => .get fun _ _ => ?_
  exact .ite (fun _ => .pure rfl) fun _ => .pure rfl

/-- A turn of a program takes a line break or a statement. -/
theorem programTurn_ends (ih : EndingStatements fuel more) (enough : 16 * size + 6 ≤ fuel + 17) :
    Ends size At Turn.least (programTurn fuel) (programTurn more) := by
  refine .kind fun kind _ => ?_
  split
  · exact .pure rfl
  · exact .step (.advance fun _ same => by rw [same]; decide) fun _ => .pure rfl
  · exact .step (ih.stmt.use (by omega)) fun _ => .pure rfl

end Turns

section Forms

variable (exprs : Ending fuel more) (ih : EndingStatements fuel more)

include exprs

/-- A `return` statement ends. -/
theorem readReturn_ends (enough : 16 * size + 1 ≤ fuel + 17) :
    Ends size Real (fun _ => 1) (readReturn fuel) (readReturn more) := by
  refine .step (.advance fun _ real => real) fun _ => ?_
  refine .atExpression fun _ => .ite (fun _ => ?_) fun _ => ?_
  · refine .bind ((exprs.tuple _).use (by omega)) fun _ => .andThen (.pure rfl) fun _ => ?_
    exact finished_ends _ _
  · exact .andThen (.pure rfl) fun _ => finished_ends _ _

/-- A `raise` statement ends. -/
theorem readRaise_ends (enough : 16 * size + 1 ≤ fuel + 17) :
    Ends size Real (fun _ => 1) (readRaise fuel) (readRaise more) := by
  refine .step (.advance fun _ real => real) fun _ => ?_
  refine .atExpression fun _ => .ite (fun _ => ?_) fun _ => finished_ends _ _
  refine .bind ((exprs.expr _).use (by omega)) fun _ => ?_
  exact .andThen ((exprs.optional _ (by decide)).use (by omega)) fun _ => finished_ends _ _

/-- A signature ends. -/
theorem readSignature_ends (enough : 16 * size + 1 ≤ fuel + 17) :
    Ends size At (fun _ => 1) (readSignature fuel) (readSignature more) := by
  refine .step (.expect (by decide)) fun _ => .step (.expectOr (by decide) _) fun _ => ?_
  refine .step (.expect (by decide)) fun _ => ?_
  refine .andThen ((exprs.parameters _ _).use (by omega)) fun _ => ?_
  refine .step (.expect (by decide)) fun _ => ?_
  exact .andThen ((exprs.optional _ (by decide)).use (by omega)) fun _ => .pure rfl

/-- The bases of a class end. -/
theorem readBases_ends (enough : 16 * size + 1 ≤ fuel + 17) :
    Ends size At (fun _ => 0) (readBases fuel) (readBases more) :=
  .ifEaten (by decide) (exprs.arguments.use (by omega)) (.pure rfl)

include ih

/-- Assignments and expressions end. -/
theorem readSimpleHead_ends (enough : 16 * size + 4 ≤ fuel + 16) :
    Ends size At (fun _ => 1) (readSimpleHead fuel) (readSimpleHead more) := by
  refine .offset fun _ => .step ((exprs.tuple _).use (by omega)) fun _ => .kind fun _ _ => ?_
  split
  · refine .andThen (ih.links.use (by omega)) fun _ => ?_
    exact .andThen (ensureAllAssignable_ends _) fun _ => .spanFrom fun _ => .pure rfl
  · refine .andThen .advances fun _ => .andThen (ensureAssignable_ends _) fun _ => ?_
    refine .bind ((exprs.expr _).use (by omega)) fun _ => .ifEaten (by decide) ?_ ?_
    · refine .bind ((exprs.tuple _).use (by omega)) fun _ => .andThen (.pure rfl) fun _ => ?_
      exact .spanFrom fun _ => .pure rfl
    · exact .andThen (.pure rfl) fun _ => .spanFrom fun _ => .pure rfl
  · refine .ite (fun _ => .andThen (ensureAssignable_ends _) fun _ => ?_) fun _ => .pure rfl
    refine .andThen .advances fun _ => .bind ((exprs.tuple _).use (by omega)) fun _ => ?_
    exact .spanFrom fun _ => .pure rfl

/-- A simple statement ends. -/
theorem readSimple_ends (enough : 16 * size + 4 ≤ fuel + 16) :
    Ends size At (fun _ => 1) (readSimple fuel) (readSimple more) :=
  .step (readSimpleHead_ends exprs ih enough) fun _ => .andThen endSimple_ends fun _ => .pure rfl

omit exprs

/-- An import of modules ends. -/
theorem readImport_ends (enough : 16 * size + 1 ≤ fuel + 17) :
    Ends size Real (fun _ => 1) (readImport fuel) (readImport more) :=
  .step (.advance fun _ real => real) fun _ =>
    .andThen (ih.imports.use (by omega)) fun _ => finished_ends _ _

/-- A list of imported names ends. -/
theorem readImportList_ends (enough : 16 * size + 1 ≤ fuel + 16) :
    Ends size At (fun _ => 0) (readImportList fuel) (readImportList more) := by
  refine .andThen (.eats (by decide)) fun _ => ?_
  refine .andThen ((ih.importedNames _).use enough) fun _ => ?_
  exact .ite (fun _ => .step (.expect (by decide)) fun _ => .pure rfl) fun _ => .pure rfl

/-- An import of names ends. -/
theorem readFromImport_ends (enough : 16 * size + 1 ≤ fuel + 17) :
    Ends size Real (fun _ => 1) (readFromImport fuel) (readFromImport more) := by
  refine .step (.advance fun _ real => real) fun _ => ?_
  refine .andThen (ih.leadingDots.use (by omega)) fun _ => .kind fun _ _ => ?_
  refine .ite (fun _ => .andThen (readDottedName_ends ih (by omega)) fun _ => ?_)
    fun _ => .andThen (.pure rfl) fun _ => ?_
  all_goals
    refine .step (.expect (by decide)) fun _ => .andThen (.eats (by decide)) fun _ => ?_
    refine .ite (fun _ => .andThen (.pure rfl) fun _ => finished_ends _ _) fun _ => ?_
    exact .andThen (readImportList_ends ih (by omega)) fun _ => finished_ends _ _

/-- A keyword statement ends. -/
theorem readKeyword_ends (enough : 16 * size + 1 ≤ fuel + 17) :
    Ends size Real (fun _ => 1) (readKeyword fuel) (readKeyword more) := by
  refine .step (.advance fun _ real => real) fun token => ?_
  split
  case h_4 => exact .andThen (ih.operands.use (by omega)) fun _ => finished_ends _ _
  all_goals exact .andThen (.pure rfl) fun _ => finished_ends _ _

/-- A decorated definition ends. -/
theorem decorated_ends :
    EndsFrom 2 Anything (fun _ => 1) readDecorated (fuel + 1) (more + 1) := by
  intro size enough
  rw [readDecorated, readDecorated]
  refine .offset fun _ => .andThen (ih.decorators.use (by omega)) fun _ => .kind fun _ _ => ?_
  split
  · exact (ih.function _ _ _).use (by omega)
  · refine .step (.advance fun _ same => by rw [same]; decide) fun _ => ?_
    exact (ih.function _ _ _).last (by omega) fun _ => Nat.zero_le _
  · exact (ih.classDef _ _).use (by omega)
  · exact .failHere _

/-- An `else` clause ends. -/
theorem orelse_ends : EndsFrom 1 Anything (fun _ => 0) readElse (fuel + 1) (more + 1) := by
  intro size enough
  rw [readElse, readElse]
  exact .ifEaten (by decide) (ih.block.last (by omega) fun _ => Nat.zero_le _) (.pure rfl)

/-- A block ends. -/
theorem block_ends : EndsFrom 1 Anything (fun _ => 1) readBlock (fuel + 1) (more + 1) := by
  intro size enough
  rw [readBlock, readBlock]
  refine .step (.expect (by decide)) fun _ => .ifEaten (by decide) ?_ (ih.inline.use (by omega))
  refine .step (.expectOr (by decide) _) fun _ => ?_
  exact .andThen (ih.indented.use (by omega)) fun _ => .andThen (.eats (by decide)) fun _ =>
    .pure rfl

/-- A `with` block ends. -/
theorem withBlock_ends (start : Nat) (isAsync : Bool) :
    EndsFrom 1 Anything (fun _ => 1) (readWith · start isAsync) (fuel + 1) (more + 1) := by
  intro size enough
  dsimp only
  rw [readWith, readWith]
  refine .step (.expect (by decide)) fun _ => .andThen (ih.withItems.use (by omega)) fun _ => ?_
  exact .step (ih.block.use (by omega)) fun _ => compound_ends _

/-- A `try` block ends. -/
theorem tryBlock_ends : EndsFrom 1 Real (fun _ => 1) readTry (fuel + 1) (more + 1) := by
  intro size enough
  rw [readTry, readTry]
  refine .step (.advance fun _ real => real) fun _ => .step (ih.block.use (by omega)) fun _ => ?_
  refine .andThen (ih.handlers.use (by omega)) fun _ => ?_
  refine .andThen (ih.orelse.use (by omega)) fun _ => .ifEaten (by decide) ?_ ?_
  · refine .step (ih.block.use (by omega)) fun _ => .ite (fun _ => .failHere _) fun _ => ?_
    exact compound_ends _
  · refine .andThen (.pure rfl) fun _ => .ite (fun _ => .failHere _) fun _ => ?_
    exact compound_ends _

include exprs

/-- A function ends. -/
theorem function_ends (start : Nat) (decorators : List Expr) (isAsync : Bool) :
    EndsFrom 1 Anything (fun _ => 1) (readFunction · start decorators isAsync) (fuel + 1)
      (more + 1) := by
  intro size enough
  dsimp only
  rw [readFunction, readFunction]
  refine .step (readSignature_ends exprs (by omega)) fun _ => ?_
  exact .step (ih.block.use (by omega)) fun _ => compound_ends _

/-- A class ends. -/
theorem classDef_ends (start : Nat) (decorators : List Expr) :
    EndsFrom 1 Anything (fun _ => 1) (readClass · start decorators) (fuel + 1) (more + 1) := by
  intro size enough
  dsimp only
  rw [readClass, readClass]
  refine .step (.expect (by decide)) fun _ => .step (.expect (by decide)) fun _ => ?_
  refine .andThen (readBases_ends exprs (by omega)) fun _ => ?_
  exact .step (ih.block.use (by omega)) fun _ => compound_ends _

/-- A `for` loop ends. -/
theorem forLoop_ends (start : Nat) (isAsync : Bool) :
    EndsFrom 1 Anything (fun _ => 1) (readFor · start isAsync) (fuel + 1) (more + 1) := by
  intro size enough
  dsimp only
  rw [readFor, readFor]
  refine .step (.expect (by decide)) fun _ => .step ((exprs.tuple _).use (by omega)) fun _ => ?_
  refine .step (.expect (by decide)) fun _ => .step ((exprs.tuple _).use (by omega)) fun _ => ?_
  refine .step (ih.block.use (by omega)) fun _ => .andThen (ih.orelse.use (by omega)) fun _ => ?_
  exact compound_ends _

/-- A conditional ends. -/
theorem conditional_ends :
    EndsFrom 1 Real (fun _ => 1) readConditional (fuel + 1) (more + 1) := by
  intro size enough
  rw [readConditional, readConditional]
  refine .step (.advance fun _ real => real) fun _ => ?_
  refine .step ((exprs.expr _).use (by omega)) fun _ => .step (ih.block.use (by omega)) fun _ => ?_
  refine .kind fun _ _ => .ite (fun chained => ?_) fun _ => ?_
  · refine .step (ih.conditional.at (by omega) fun _ same => by rw [same, chained]; decide)
      fun _ => ?_
    exact .andThen (.pure rfl) fun _ => compound_ends _
  · exact .andThen (ih.orelse.use (by omega)) fun _ => compound_ends _

/-- Statements of every form end. -/
theorem form_ends (form : StatementForm) :
    EndsFrom 3 Real (fun _ => 1) (readForm · form) (fuel + 1) (more + 1) := by
  intro size enough
  cases form <;> dsimp only <;> rw [readForm, readForm]
  case function => exact .offset fun _ => (ih.function _ _ _).use (by omega)
  case classDef => exact .offset fun _ => (ih.classDef _ _).use (by omega)
  case forLoop => exact .offset fun _ => (ih.forLoop _ _).use (by omega)
  case withBlock => exact .offset fun _ => (ih.withBlock _ _).use (by omega)
  case decorated => exact ih.decorated.use (by omega)
  case async =>
    refine .step (.advance fun _ real => real) fun _ => .kind fun _ _ => ?_
    split
    · exact (ih.function _ _ _).last (by omega) fun _ => Nat.zero_le _
    · exact (ih.forLoop _ _).last (by omega) fun _ => Nat.zero_le _
    · exact (ih.withBlock _ _).last (by omega) fun _ => Nat.zero_le _
    · exact .failHere _
  case conditional => exact ih.conditional.at (by omega) fun _ real => real
  case whileLoop =>
    refine .step (.advance fun _ real => real) fun _ => ?_
    refine .step ((exprs.expr _).use (by omega)) fun _ => ?_
    refine .step (ih.block.use (by omega)) fun _ => ?_
    exact .andThen (ih.orelse.use (by omega)) fun _ => compound_ends _
  case tryBlock => exact ih.tryBlock.at (by omega) fun _ real => real
  case ret => exact readReturn_ends exprs (by omega)
  case raise => exact readRaise_ends exprs (by omega)
  case importNames => exact readImport_ends ih (by omega)
  case importFrom => exact readFromImport_ends ih (by omega)
  case keyword => exact readKeyword_ends ih (by omega)

/-- A statement ends, whatever it starts with. -/
theorem stmt_ends : EndsFrom 5 Anything (fun _ => 1) readStmt (fuel + 1) (more + 1) := by
  intro size enough
  rw [readStmt, readStmt]
  refine .get fun cursor _ => ?_
  cases starts : cursor.statement? with
  | none => exact readSimple_ends exprs ih (by omega)
  | some form =>
      have real : cursor.kind ≠ .eof := by
        intro ended
        unfold Cursor.statement? at starts
        rw [ended] at starts
        split at starts <;> cases starts
      exact (ih.form form).at (by omega) fun _ same => same ▸ real

end Forms

/-- Without a step, there is nothing that could have ended. -/
theorem endingStatements_zero (more : Nat) : EndingStatements 0 more where
  dots := endsFrom_zero (by decide) rfl
  leadingDots := endsFrom_zero (by decide) rfl
  imports := endsFrom_zero (by decide) rfl
  importedNames _ := endsFrom_zero (by decide) rfl
  operands := endsFrom_zero (by decide) rfl
  links := endsFrom_zero (by decide) rfl
  withItems := endsFrom_zero (by decide) rfl
  decorators := endsFrom_zero (by decide) rfl
  stmt := endsFrom_zero (by decide) (by rw [readStmt])
  form _ := endsFrom_zero (by decide) (by rw [readForm])
  function _ _ _ := endsFrom_zero (by decide) (by rw [readFunction])
  classDef _ _ := endsFrom_zero (by decide) (by rw [readClass])
  decorated := endsFrom_zero (by decide) (by rw [readDecorated])
  forLoop _ _ := endsFrom_zero (by decide) (by rw [readFor])
  withBlock _ _ := endsFrom_zero (by decide) (by rw [readWith])
  conditional := endsFrom_zero (by decide) (by rw [readConditional])
  tryBlock := endsFrom_zero (by decide) (by rw [readTry])
  handlers := endsFrom_zero (by decide) (by rw [readHandlers])
  orelse := endsFrom_zero (by decide) (by rw [readElse])
  block := endsFrom_zero (by decide) (by rw [readBlock])
  indented := endsFrom_zero (by decide) (by rw [readIndented])
  inline := endsFrom_zero (by decide) (by rw [readInline])
  program := endsFrom_zero (by decide) rfl

/-- One more level for all readers of statements. -/
theorem endingStatements_step (exprs : Ending fuel more) (ih : EndingStatements fuel more)
    (below : ∀ deep : Bool, EndingStatements (fuel - deep.toNat) (more - deep.toNat)) :
    EndingStatements (fuel + 1) (more + 1) where
  dots := .loop isLoop_dots (by decide) () (fun _ _ => dotsTurn_ends)
    fun deep _ => (below deep).dots
  leadingDots := .loop isLoop_leadingDots (by decide) () (fun _ _ => leadingDotsTurn_ends)
    fun deep _ => (below deep).leadingDots
  imports := .loop isLoop_imports (by decide) () (fun _ => importsTurn_ends ih)
    fun deep _ => (below deep).imports
  importedNames inParens := .loop (isLoop_importedNames inParens) (by decide) ()
    (fun _ _ => importedNamesTurn_ends inParens) fun deep _ => (below deep).importedNames inParens
  operands := .loop isLoop_operands (by decide) () (fun _ => operandsTurn_ends exprs)
    fun deep _ => (below deep).operands
  links := .loop isLoop_links (by decide) () (fun _ => linksTurn_ends exprs)
    fun deep _ => (below deep).links
  withItems := .loop isLoop_withItems (by decide) () (fun _ => withItemsTurn_ends exprs)
    fun deep _ => (below deep).withItems
  decorators := .loop isLoop_decorators (by decide) () (fun _ => decoratorsTurn_ends exprs)
    fun deep _ => (below deep).decorators
  stmt := stmt_ends exprs ih
  form := form_ends exprs ih
  function := function_ends exprs ih
  classDef := classDef_ends exprs ih
  decorated := decorated_ends ih
  forLoop := forLoop_ends exprs ih
  withBlock := withBlock_ends ih
  conditional := conditional_ends exprs ih
  tryBlock := tryBlock_ends ih
  handlers := .loop isLoop_handlers (by decide) () (fun _ => handlersTurn_ends exprs ih)
    fun deep _ => (below deep).handlers
  orelse := orelse_ends ih
  block := block_ends ih
  indented := .loop isLoop_indented (by decide) () (fun _ => indentedTurn_ends ih)
    fun deep _ => (below deep).indented
  inline := .loop isLoop_inline (by decide) () (fun _ => inlineTurn_ends ih)
    fun deep _ => (below deep).inline
  program := .loop isLoop_program (by decide) () (fun _ => programTurn_ends ih)
    fun deep _ => (below deep).program

/-- Readers of statements end, and more steps change nothing. -/
theorem endingStatements (fuel : Nat) : ∀ more, fuel ≤ more → EndingStatements fuel more := by
  induction fuel using Nat.strongRecOn with
  | ind fuel ih =>
      intro more larger
      cases fuel with
      | zero => exact endingStatements_zero more
      | succ fuel =>
          obtain ⟨more, rfl⟩ : ∃ less, more = less + 1 := ⟨more - 1, by omega⟩
          refine endingStatements_step (ending fuel more (by omega))
            (ih fuel (by omega) more (by omega)) fun deep => ?_
          exact ih _ (by omega) _ (by omega)

/-- The reader does one turn after another, and a turn that goes on has gone past a token. -/
structure Moving {σ β : Type} (loop : Nat → σ → Parse β) (turn : Nat → σ → Parse (Turn σ β)) :
    Prop where
  turns : IsLoop loop turn
  moves : ∀ (fuel : Nat) (state : σ) (cursor : Cursor) (deep : Bool) (next : σ) (finish : β → β)
    (after : Cursor), cursor.Sound →
      turn fuel state cursor = .ok (.again deep next finish) after →
        after.rest.length < cursor.rest.length

/-- A loop whose turns take tokens moves on. -/
theorem Moving.of_ends {σ β : Type} {loop : Nat → σ → Parse β} {turn : Nat → σ → Parse (Turn σ β)}
    (turns : IsLoop loop turn)
    (ends : ∀ fuel state, Ends 0 Anything Turn.least (turn fuel state) (turn fuel state)) :
    Moving loop turn := by
  refine ⟨turns, fun fuel state cursor deep next finish after sound ran => ?_⟩
  obtain ⟨goes, -⟩ := ends fuel state cursor sound trivial
  rw [ran] at goes
  obtain ⟨passed, passes, enough⟩ := goes
  have lengths := passes.length
  change 1 ≤ passed.length at enough
  omega

/-- The loops of the grammar. -/
structure Loops : Prop where
  joins : ∀ level, Moving (fun fuel left => readJoins fuel level left) (joinsTurn level)
  tupleRest : ∀ level,
    Moving (fun fuel (_ : Unit) => readTupleRest fuel level) fun fuel _ => tupleTurn level fuel
  clauses : Moving (fun fuel (_ : Unit) => readClauses fuel) fun fuel _ => clausesTurn fuel
  conditions : Moving (fun fuel (_ : Unit) => readConditions fuel) fun fuel _ =>
    markedTurn .ifKw (readExpr fuel .ternary)
  elements : ∀ closing, Moving (fun fuel (_ : Unit) => readElements fuel closing) fun fuel _ =>
    listedTurn closing (readExpr fuel .default)
  entries : Moving (fun fuel (_ : Unit) => readEntries fuel) fun fuel _ =>
    listedTurn .closeCurly (readEntry fuel)
  arguments : Moving (fun fuel (_ : Unit) => readArguments fuel) fun fuel _ => argumentsTurn fuel
  sliceItems : Moving (fun fuel (_ : Unit) => readSliceItems fuel) fun fuel _ =>
    listedTurn .closeBracket (readSliceItem fuel)
  parameters : ∀ closing,
    Moving (fun fuel => readParameters fuel closing) (parametersTurn closing)
  dots : Moving (fun fuel (_ : Unit) => readDots fuel) fun _ _ => dotsTurn
  leadingDots : Moving (fun fuel (_ : Unit) => readLeadingDots fuel) fun _ _ => leadingDotsTurn
  imports : Moving (fun fuel (_ : Unit) => readImports fuel) fun fuel _ =>
    chainedTurn (readImportName fuel)
  importedNames : ∀ inParens, Moving (fun fuel (_ : Unit) => readImportedNames fuel inParens)
    fun _ _ => importedNamesTurn inParens
  operands : Moving (fun fuel (_ : Unit) => readOperands fuel) fun fuel _ => operandsTurn fuel
  links : Moving (fun fuel (_ : Unit) => readLinks fuel) fun fuel _ =>
    markedTurn .assignment (readTuple fuel .default)
  withItems : Moving (fun fuel (_ : Unit) => readWithItems fuel) fun fuel _ =>
    chainedTurn (readWithItem fuel)
  decorators : Moving (fun fuel (_ : Unit) => readDecorators fuel) fun fuel _ =>
    markedTurn .atSign (readDecorator fuel)
  handlers : Moving (fun fuel (_ : Unit) => readHandlers fuel) fun fuel _ => handlersTurn fuel
  indented : Moving (fun fuel (_ : Unit) => readIndented fuel) fun fuel _ => indentedTurn fuel
  inline : Moving (fun fuel (_ : Unit) => readInline fuel) fun fuel _ => inlineTurn fuel
  program : Moving (fun fuel (_ : Unit) => readProgram fuel) fun fuel _ => programTurn fuel

/-- All loops of the readers move on. -/
theorem loops : Loops := by
  have exprs : ∀ fuel, Ending fuel fuel := fun fuel => ending fuel fuel (Nat.le_refl _)
  have stmts : ∀ fuel, EndingStatements fuel fuel := fun fuel =>
    endingStatements fuel fuel (Nat.le_refl _)
  exact {
    joins := fun level => .of_ends (isLoop_joins level) fun fuel left =>
      joinsTurn_ends (exprs fuel) level left (by omega)
    tupleRest := fun level => .of_ends (isLoop_tuple level) fun fuel _ =>
      tupleTurn_ends (exprs fuel) level (by omega)
    clauses := .of_ends isLoop_clauses fun fuel _ => clausesTurn_ends (exprs fuel) (by omega)
    conditions := .of_ends isLoop_conditions fun fuel _ =>
      conditionsTurn_ends (exprs fuel) (by omega)
    elements := fun closing => .of_ends (isLoop_elements closing) fun fuel _ =>
      elementsTurn_ends (exprs fuel) closing (by omega)
    entries := .of_ends isLoop_entries fun fuel _ => entriesTurn_ends (exprs fuel) (by omega)
    arguments := .of_ends isLoop_arguments fun fuel _ =>
      argumentsTurn_ends (exprs fuel) (Nat.le_refl _) (by omega)
    sliceItems := .of_ends isLoop_sliceItems fun fuel _ =>
      sliceItemsTurn_ends (exprs fuel) (by omega)
    parameters := fun closing => .of_ends (isLoop_parameters closing) fun fuel usual =>
      parametersTurn_ends (fun _ => exprs _) (Nat.le_refl _) closing usual (by omega)
    dots := .of_ends isLoop_dots fun _ _ => dotsTurn_ends
    leadingDots := .of_ends isLoop_leadingDots fun _ _ => leadingDotsTurn_ends
    imports := .of_ends isLoop_imports fun fuel _ => importsTurn_ends (stmts fuel) (by omega)
    importedNames := fun inParens => .of_ends (isLoop_importedNames inParens) fun _ _ =>
      importedNamesTurn_ends inParens
    operands := .of_ends isLoop_operands fun fuel _ => operandsTurn_ends (exprs fuel) (by omega)
    links := .of_ends isLoop_links fun fuel _ => linksTurn_ends (exprs fuel) (by omega)
    withItems := .of_ends isLoop_withItems fun fuel _ =>
      withItemsTurn_ends (exprs fuel) (by omega)
    decorators := .of_ends isLoop_decorators fun fuel _ =>
      decoratorsTurn_ends (exprs fuel) (by omega)
    handlers := .of_ends isLoop_handlers fun fuel _ =>
      handlersTurn_ends (exprs fuel) (stmts fuel) (by omega)
    indented := .of_ends isLoop_indented fun fuel _ => indentedTurn_ends (stmts fuel) (by omega)
    inline := .of_ends isLoop_inline fun fuel _ => inlineTurn_ends (stmts fuel) (by omega)
    program := .of_ends isLoop_program fun fuel _ => programTurn_ends (stmts fuel) (by omega) }

/-- A reader at a cursor: it goes on by at least `least` tokens if it succeeds, it does not give
up, and with any larger bound it does the same. -/
structure Concludes {α : Type} (whole : Parse α) (reader : Nat → Parse α) (least : Nat)
    (cursor : Cursor) : Prop where
  goes : GoesOn cursor (fun _ => least) (whole cursor)
  decided : ¬GaveUp (whole cursor)
  settled : ∀ more, cursor.budget ≤ more → reader more cursor = whole cursor

/-- A reader that ends concludes with the steps that a cursor has to spend. -/
theorem Concludes.of_endsFrom {α : Type} {reader : Nat → Parse α} {rank least : Nat}
    (low : rank ≤ 16)
    (ends : ∀ fuel more, fuel ≤ more →
      EndsFrom rank Anything (fun _ => least) reader fuel more) {whole : Parse α} {cursor : Cursor}
    (sound : cursor.Sound) (same : whole cursor = reader cursor.budget cursor) :
    Concludes whole reader least cursor := by
  have enough : 16 * (cursor.rest.length + 1) + rank ≤ cursor.budget + 16 := by
    rw [Cursor.budget]
    omega
  have reads := fun more larger =>
    ends cursor.budget more larger (cursor.rest.length + 1) enough cursor sound trivial
  rw [← same] at reads
  obtain ⟨goes, decided⟩ := reads cursor.budget (Nat.le_refl _)
  exact ⟨goes, (decided (Nat.lt_succ_self _)).2, fun more larger =>
    ((reads more larger).2 (Nat.lt_succ_self _)).1⟩

/-- The statements of a list of tokens, with a bound of its own. -/
def readWhole (fuel : Nat) : Parse Program := do
  let body ← readProgram fuel
  return ⟨body, ⟨0, ← Parse.offset⟩⟩

/-- A program ends. -/
theorem readWhole_ends {fuel more : Nat} (larger : fuel ≤ more) :
    EndsFrom 6 Anything (fun _ => 0) readWhole fuel more := fun _ enough =>
  .andThen ((endingStatements fuel more larger).program.use enough) fun _ =>
    .offset fun _ => .pure rfl

/-- **Reading ends.** From any list of tokens, and at any place in it, an expression, a target, a
statement, parameters, arguments and the whole list are read without giving up, and no larger
bound would change the outcome.  A reader moves only onward and never beyond the last token, also
when it fails; expressions, targets and statements go past a token; so does every turn of a loop
that goes on; and sixteen levels for each token ahead, with a rank for each reader, are enough. -/
theorem reading_ends (file : String) (tokens : List Token) :
    (Cursor.ofTokens file false tokens).Sound ∧
    (∀ cursor : Cursor, cursor.Sound →
      (∀ level, Concludes (Parse.expr level) (readExpr · level) 1 cursor) ∧
      Concludes Parse.exprList (readTuple · .default) 1 cursor ∧
      Concludes Parse.targetList (readTuple · .relational) 1 cursor ∧
      Concludes Parse.stmt readStmt 1 cursor ∧
      (∀ closing, Concludes (Parse.parameters closing) (readParameters · closing .positional) 0
        cursor) ∧
      Concludes Parse.callArguments readArguments 0 cursor ∧
      Concludes Parse.program readWhole 0 cursor) ∧
    (∀ fuel more, fuel ≤ more → Ending fuel more ∧ EndingStatements fuel more) ∧
    Loops := by
  refine ⟨Cursor.sound_ofTokens file tokens, fun cursor sound => ?_, fun fuel more larger =>
    ⟨ending fuel more larger, endingStatements fuel more larger⟩, loops⟩
  refine ⟨fun level => ?_, ?_, ?_, ?_, fun closing => ?_, ?_, ?_⟩
  · exact .of_endsFrom (by decide) (fun fuel more larger => (ending fuel more larger).expr level)
      sound (expr_eq level cursor)
  · exact .of_endsFrom (by decide) (fun fuel more larger => (ending fuel more larger).tuple _)
      sound (by rw [Parse.exprList, get_bind])
  · exact .of_endsFrom (by decide) (fun fuel more larger => (ending fuel more larger).tuple _)
      sound (by rw [Parse.targetList, get_bind])
  · exact .of_endsFrom (by decide) (fun fuel more larger =>
      (endingStatements fuel more larger).stmt) sound (by rw [Parse.stmt, get_bind])
  · exact .of_endsFrom (by decide) (fun fuel more larger =>
      (ending fuel more larger).parameters closing _) sound (by rw [Parse.parameters, get_bind])
  · exact .of_endsFrom (by decide) (fun fuel more larger => (ending fuel more larger).arguments)
      sound (by rw [Parse.callArguments, get_bind])
  · exact .of_endsFrom (by decide) (fun _ _ larger => readWhole_ends larger) sound
      (by rw [Parse.program, get_bind, readWhole])

/-- The tokens of `def f(a, *` and nothing more. -/
def truncatedTokens : List Token :=
  [⟨.defKw, "def", ⟨0, 3⟩⟩, ⟨.identifier, "f", ⟨4, 5⟩⟩, ⟨.openParen, "(", ⟨5, 6⟩⟩,
    ⟨.identifier, "a", ⟨6, 7⟩⟩, ⟨.comma, ",", ⟨7, 8⟩⟩, ⟨.star, "*", ⟨9, 10⟩⟩]

/-- A text that stops in the middle of a signature is read to its end. -/
theorem reading_ends_truncated :
    (Cursor.ofTokens "m.py" false truncatedTokens).Sound ∧ 3 ≤ 4 ∧ Ending 3 4 ∧
      GoesOn (.ofTokens "m.py" false truncatedTokens) (fun _ => 0)
        (Parse.program (.ofTokens "m.py" false truncatedTokens)) ∧
      ¬GaveUp (Parse.program (.ofTokens "m.py" false truncatedTokens)) := by
  obtain ⟨sound, reads, ends, -⟩ := reading_ends "m.py" truncatedTokens
  obtain ⟨-, -, -, -, -, -, goes, decided, -⟩ := reads _ sound
  exact ⟨sound, by decide, (ends 3 4 (by decide)).1, goes, decided⟩

end Grammar

end DocSketch
