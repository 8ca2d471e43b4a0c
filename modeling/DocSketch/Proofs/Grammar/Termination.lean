import DocSketch.Proofs.Grammar.Turns

/-!
# Readers of expressions end

The readers call each other, and every call is at fewer tokens or of a reader of lower rank.  So
sixteen levels for each token ahead, and as many more as the rank says, are all that is needed.

* `Grammar.Ending`: this for each reader, with its rank.
* `Grammar.ending_step`: one more level.
-/

namespace DocSketch

namespace Grammar

open Parse

/-- The token ahead is not the end of the file. -/
abbrev Real (kind : TokenKind) : Prop := kind ≠ .eof

/-- How the readers of expressions end, with the bound `fuel` as with the larger one `more`. -/
structure Ending (fuel more : Nat) : Prop where
  expr : ∀ level, EndsFrom 3 Anything (fun _ => 1) (readExpr · level) fuel more
  joins : ∀ level left, EndsFrom 2 Anything (fun _ => 0) (readJoins · level left) fuel more
  opening : ∀ form, EndsFrom 2 Real (fun _ => 1) (readOpening · form) fuel more
  joining : ∀ form own left,
    EndsFrom 1 Real (fun _ => 1) (readJoining · form own left) fuel more
  tuple : ∀ level, EndsFrom 4 Anything (fun _ => 1) (readTuple · level) fuel more
  tupleRest : ∀ level, EndsFrom 1 Anything (fun _ => 0) (readTupleRest · level) fuel more
  clauses : EndsFrom 1 Anything (fun _ => 0) readClauses fuel more
  conditions : EndsFrom 1 Anything (fun _ => 0) readConditions fuel more
  elements : ∀ closing, EndsFrom 1 Anything (fun _ => 0) (readElements · closing) fuel more
  group : EndsFrom 1 Real (fun _ => 1) readGroup fuel more
  list : EndsFrom 1 Real (fun _ => 1) readListDisplay fuel more
  curly : EndsFrom 1 Real (fun _ => 1) readCurly fuel more
  dict : ∀ start first, EndsFrom 2 Anything (fun _ => 0) (readDict · start first) fuel more
  entry : EndsFrom 4 Anything (fun _ => 1) readEntry fuel more
  entries : EndsFrom 1 Anything (fun _ => 0) readEntries fuel more
  arguments : EndsFrom 5 Anything (fun _ => 0) readArguments fuel more
  argument : EndsFrom 4 Anything (fun _ => 1) readArgument fuel more
  moreArguments : EndsFrom 1 Anything (fun _ => 0) readMoreArguments fuel more
  sliceItem : EndsFrom 4 Anything (fun _ => 1) readSliceItem fuel more
  slice : ∀ start lower, EndsFrom 1 Real (fun _ => 1) (readSlice · start lower) fuel more
  slicePart : EndsFrom 4 Anything (fun _ => 0) readSlicePart fuel more
  sliceItems : EndsFrom 1 Anything (fun _ => 0) readSliceItems fuel more
  parameters : ∀ closing usual,
    EndsFrom 2 Anything (fun _ => 0) (readParameters · closing usual) fuel more
  parameter : ∀ closing start own usual,
    EndsFrom 1 Anything (fun _ => 0) (readParameter · closing start own usual) fuel more
  optional : ∀ mark, mark ≠ .eof →
    EndsFrom 1 Anything (fun _ => 0) (readOptional · mark) fuel more

variable {fuel more size : Nat} {At : TokenKind → Prop}

/-- No expression starts at the end of the file. -/
theorem real_of_opening {cursor : Cursor} {form : Opening} (opens : cursor.opening? = some form) :
    cursor.kind ≠ .eof := by
  intro ended
  unfold Cursor.opening? at opens
  rw [ended] at opens
  split at opens <;> cases opens

/-- Nothing joins an expression at the end of the file. -/
theorem real_of_joining {cursor : Cursor} {entry : Power × Joining}
    (joins : cursor.joining? = some entry) : cursor.kind ≠ .eof := by
  intro ended
  unfold Cursor.joining? at joins
  rw [ended] at joins
  split at joins <;> cases joins

/-- An expression ends: its opening goes past a token, and then come its joins. -/
theorem expr_ends (ih : Ending fuel more) (level : Power) :
    EndsFrom 3 Anything (fun _ => 1) (readExpr · level) (fuel + 1) (more + 1) := by
  intro size enough
  dsimp only
  rw [readExpr, readExpr]
  refine .get fun cursor _ => ?_
  cases opens : cursor.opening? with
  | none => exact .failHere _
  | some form =>
      have real := real_of_opening opens
      refine .step ((ih.opening form).at (by omega) fun _ same => same ▸ real) fun left => ?_
      exact (ih.joins level left).use (by omega)

/-- A turn of the joins goes past the operator or the bracket that it has found. -/
theorem joinsTurn_ends (ih : Ending fuel more) (level : Power) (left : Expr)
    (enough : 16 * size + 2 ≤ fuel + 17) :
    Ends size Anything Turn.least (joinsTurn level fuel left) (joinsTurn level more left) := by
  refine .get fun cursor _ => ?_
  cases joins : cursor.joining? with
  | none => exact .pure rfl
  | some entry =>
      have real := real_of_joining joins
      refine .ite (fun _ => .pure rfl) fun _ => ?_
      refine .step ((ih.joining _ _ left).at (by omega) fun _ same => same ▸ real) fun joined => ?_
      exact .pure rfl

/-- A number takes one token. -/
theorem readNumber_ends : Ends size Real (fun _ => 1) readNumber readNumber := by
  refine .step (.advance fun _ real => real) fun token => .ite (fun _ => ?_) fun _ => .pure rfl
  exact .failAt (fun _ => Cause.noConfusion) _

/-- A string takes its first token, and then those that it is joined with. -/
theorem readString_ends : Ends size Real (fun _ => 1) readString readString :=
  .step (.advance fun _ real => real) fun _ => .andThen .takeAll fun _ => .spanFrom fun _ =>
    .pure rfl

/-- Whatever an expression opens with ends, and its first token is gone past. -/
theorem opening_ends (ih : Ending fuel more) (form : Opening) :
    EndsFrom 2 Real (fun _ => 1) (readOpening · form) (fuel + 1) (more + 1) := by
  intro size enough
  have first : Ends size Real (fun _ => 1) advance advance := .advance fun _ real => real
  cases form with
  | number => exact readNumber_ends
  | string => exact readString_ends
  | identifier | constant =>
      dsimp only
      rw [readOpening, readOpening]
      exact .step first fun _ => .pure rfl
  | unary | star =>
      dsimp only
      rw [readOpening, readOpening]
      refine .step first fun _ => .bind ((ih.expr _).use (by omega)) fun _ => ?_
      exact .pure rfl
  | group => exact ih.group.at (by omega) fun _ real => real
  | list => exact ih.list.at (by omega) fun _ real => real
  | curly => exact ih.curly.at (by omega) fun _ real => real
  | lambda =>
      dsimp only
      rw [readOpening, readOpening]
      refine .step first fun _ => ?_
      refine .andThen ((ih.parameters _ _).use (by omega)) fun _ => ?_
      refine .step (.expect (by decide)) fun _ => ?_
      exact .bind ((ih.expr _).use (by omega)) fun _ => .pure rfl
  | yield =>
      dsimp only
      rw [readOpening, readOpening]
      refine .step first fun _ => .ifEaten (by decide) ?_ (.atExpression fun _ => .ite ?_ ?_)
      · refine .bind ((ih.expr _).use (by omega)) fun _ => ?_
        exact .spanFrom fun _ => .pure rfl
      · intro _
        refine .bind ((ih.tuple _).use (by omega)) fun _ => ?_
        exact .spanFrom fun _ => .pure rfl
      · exact fun _ => .spanFrom fun _ => .pure rfl

/-- Whatever joins an expression ends, and its first token is gone past. -/
theorem joining_ends (ih : Ending fuel more) (form : Joining) (own : Power) (left : Expr) :
    EndsFrom 1 Real (fun _ => 1) (readJoining · form own left) (fuel + 1) (more + 1) := by
  intro size enough
  have first : Ends size Real (fun _ => 1) advance advance := .advance fun _ real => real
  cases form <;> dsimp only <;> rw [readJoining, readJoining]
  case binary right =>
    refine .step first fun _ => .bind ((ih.expr _).use (by omega)) fun _ => .pure rfl
  case identity =>
    refine .step first fun _ => .andThen (.eats (by decide)) fun _ => ?_
    exact .bind ((ih.expr _).use (by omega)) fun _ => .pure rfl
  case exclusion =>
    refine .step first fun _ => .step (.expectOr (by decide) _) fun _ => ?_
    exact .bind ((ih.expr _).use (by omega)) fun _ => .pure rfl
  case ternary =>
    refine .step first fun _ => .step ((ih.expr _).use (by omega)) fun _ => ?_
    refine .step (.expect (by decide)) fun _ => ?_
    exact .bind ((ih.expr _).use (by omega)) fun _ => .pure rfl
  case call =>
    refine .step first fun _ => .andThen (ih.arguments.use (by omega)) fun _ => ?_
    exact .spanFrom fun _ => .pure rfl
  case subscript =>
    have closes : ∀ index, Ends (size - 1 - 1) Anything (fun _ => 0) (do
        let _ ← expect .closeBracket
        return Expr.subscript (← spanFrom left.span.start) left index) _ := fun index =>
      .step (.expect (by decide)) fun _ => .spanFrom fun _ => .pure rfl
    refine .step first fun _ => .offset fun _ => .step (ih.sliceItem.use (by omega)) fun _ => ?_
    refine .kind fun _ _ => .ite (fun _ => ?_) fun _ => ?_
    · refine .andThen (ih.sliceItems.use (by omega)) fun _ => .spanFrom fun _ => ?_
      exact .andThen (.pure rfl) closes
    · exact .andThen (.pure rfl) closes
  case member =>
    exact .step first fun _ => .step (.expectOr (by decide) _) fun _ => .pure rfl

/-- A tuple ends: its first element goes past a token. -/
theorem tuple_ends (ih : Ending fuel more) (level : Power) :
    EndsFrom 4 Anything (fun _ => 1) (readTuple · level) (fuel + 1) (more + 1) := by
  intro size enough
  dsimp only
  rw [readTuple, readTuple]
  refine .step ((ih.expr _).use (by omega)) fun _ => ?_
  refine .kind fun _ _ => .ite (fun _ => ?_) fun _ => .pure rfl
  exact .andThen ((ih.tupleRest _).use (by omega)) fun _ => .spanFrom fun _ => .pure rfl

/-- A turn of the other elements of a tuple goes past a comma. -/
theorem tupleTurn_ends (ih : Ending fuel more) (level : Power)
    (enough : 16 * size + 1 ≤ fuel + 17) :
    Ends size At Turn.least (tupleTurn level fuel) (tupleTurn level more) := by
  refine .ifEaten (by decide) (.atExpression fun _ => .ite (fun _ => ?_) fun _ => .pure rfl)
    (.pure rfl)
  exact .bind ((ih.expr _).use (by omega)) fun _ => .pure rfl

/-- A turn of the clauses of a comprehension goes past a `for`. -/
theorem clausesTurn_ends (ih : Ending fuel more) (enough : 16 * size + 1 ≤ fuel + 17) :
    Ends size At Turn.least (clausesTurn fuel) (clausesTurn more) := by
  refine .atClause fun _ => .ite (fun _ => ?_) fun _ => .pure rfl
  refine .andThen (.eats (by decide)) fun _ => .step (.expect (by decide)) fun _ => ?_
  refine .bind ((ih.tuple _).use (by omega)) fun _ => .step (.expect (by decide)) fun _ => ?_
  refine .bind ((ih.expr _).use (by omega)) fun _ => ?_
  exact .bind (ih.conditions.use (by omega)) fun _ => .pure rfl

section Families

variable {α : Type} {mark closing : TokenKind} {item other : Parse α}

/-- A turn that starts with a mark goes past the mark. -/
theorem markedTurn_ends (real : mark ≠ .eof)
    (ends : Ends (size - 1) Anything (fun _ => 0) item other) :
    Ends size At Turn.least (markedTurn mark item) (markedTurn mark other) :=
  .ifEaten real (.andThen ends fun _ => .pure rfl) (.pure rfl)

/-- A turn of a list goes past the comma. -/
theorem listedTurn_ends (ends : Ends (size - 1) Anything (fun _ => 0) item other) :
    Ends size At Turn.least (listedTurn closing item) (listedTurn closing other) := by
  refine .ifEaten (by decide) (.kind fun _ _ => .ite (fun _ => .pure rfl) fun _ => ?_) (.pure rfl)
  exact .andThen ends.anywhere fun _ => .pure rfl

/-- A turn of a chain goes on only behind a comma. -/
theorem chainedTurn_ends (ends : Ends size At (fun _ => 0) item other) :
    Ends size At Turn.least (chainedTurn item) (chainedTurn other) :=
  .andThen ends fun _ => .ifEaten (by decide) (.pure rfl) (.pure rfl)

end Families

/-- The clauses of a comprehension end, and the bracket that closes them. -/
theorem clauses_closed_ends (ih : Ending fuel more) {closing : TokenKind} (real : closing ≠ .eof)
    (enough : 16 * size + 1 ≤ fuel + 16) {start : Nat}
    (build : Span → List (Clause Expr) → Expr) :
    Ends size At (fun _ => 0)
      (do
        let clauses ← readClauses fuel
        let _ ← expect closing
        return build (← spanFrom start) clauses)
      (do
        let clauses ← readClauses more
        let _ ← expect closing
        return build (← spanFrom start) clauses) :=
  .andThen (ih.clauses.use enough) fun _ =>
    .step (.expect real) fun _ => .spanFrom fun _ => .pure rfl

/-- The other elements of a display end, and the bracket that closes them. -/
theorem elements_closed_ends (ih : Ending fuel more) {closing : TokenKind} (real : closing ≠ .eof)
    (enough : 16 * size + 1 ≤ fuel + 16) {start : Nat} (build : Span → List Expr → Expr) :
    Ends size At (fun _ => 0)
      (do
        let others ← readElements fuel closing
        let _ ← expect closing
        return build (← spanFrom start) others)
      (do
        let others ← readElements more closing
        let _ ← expect closing
        return build (← spanFrom start) others) :=
  .andThen ((ih.elements _).use enough) fun _ =>
    .step (.expect real) fun _ => .spanFrom fun _ => .pure rfl

/-- What stands in parentheses ends. -/
theorem group_ends (ih : Ending fuel more) :
    EndsFrom 1 Real (fun _ => 1) readGroup (fuel + 1) (more + 1) := by
  intro size enough
  rw [readGroup, readGroup]
  refine .step (.advance fun _ real => real) fun _ => ?_
  refine .ifEaten (by decide) (.spanFrom fun _ => .pure rfl) ?_
  refine .step ((ih.expr _).use (by omega)) fun _ => ?_
  refine .atClause fun _ => .ite (fun _ => ?_) fun _ => ?_
  · exact clauses_closed_ends ih (by decide) (by omega) _
  refine .kind fun _ _ => .ite (fun _ => ?_) fun _ => ?_
  · exact elements_closed_ends ih (by decide) (by omega) _
  · exact .step (.expect (by decide)) fun _ => .pure rfl

/-- What stands in brackets ends. -/
theorem list_ends (ih : Ending fuel more) :
    EndsFrom 1 Real (fun _ => 1) readListDisplay (fuel + 1) (more + 1) := by
  intro size enough
  rw [readListDisplay, readListDisplay]
  refine .step (.advance fun _ real => real) fun _ => ?_
  refine .ifEaten (by decide) (.spanFrom fun _ => .pure rfl) ?_
  refine .step ((ih.expr _).use (by omega)) fun _ => ?_
  refine .atClause fun _ => .ite (fun _ => ?_) fun _ => ?_
  · exact clauses_closed_ends ih (by decide) (by omega) _
  · exact elements_closed_ends ih (by decide) (by omega) _

/-- What stands in braces ends. -/
theorem curly_ends (ih : Ending fuel more) :
    EndsFrom 1 Real (fun _ => 1) readCurly (fuel + 1) (more + 1) := by
  intro size enough
  rw [readCurly, readCurly]
  refine .step (.advance fun _ real => real) fun _ => ?_
  refine .ifEaten (by decide) (.spanFrom fun _ => .pure rfl) ?_
  refine .kind fun _ _ => .ite (fun _ => ?_) fun _ => ?_
  · refine .step (ih.entry.use (by omega)) fun _ => ?_
    exact (ih.dict _ _).use (by omega)
  refine .step ((ih.expr _).use (by omega)) fun _ => .ifEaten (by decide) ?_ ?_
  · refine .step ((ih.expr _).use (by omega)) fun _ => ?_
    refine .atClause fun _ => .ite (fun _ => ?_) fun _ => ?_
    · exact clauses_closed_ends ih (by decide) (by omega) _
    · exact (ih.dict _ _).use (by omega)
  · refine .atClause fun _ => .ite (fun _ => ?_) fun _ => ?_
    · exact clauses_closed_ends ih (by decide) (by omega) _
    · exact elements_closed_ends ih (by decide) (by omega) _

/-- A mapping ends behind its first entry. -/
theorem dict_ends (ih : Ending fuel more) (start : Nat) (first : Entry Expr) :
    EndsFrom 2 Anything (fun _ => 0) (readDict · start first) (fuel + 1) (more + 1) := by
  intro size enough
  dsimp only
  rw [readDict, readDict]
  refine .andThen (ih.entries.use (by omega)) fun _ => ?_
  exact .step (.expect (by decide)) fun _ => .spanFrom fun _ => .pure rfl

/-- An entry of a mapping ends: its key or its value goes past a token. -/
theorem entry_ends (ih : Ending fuel more) :
    EndsFrom 4 Anything (fun _ => 1) readEntry (fuel + 1) (more + 1) := by
  intro size enough
  rw [readEntry, readEntry]
  refine .ifEaten (by decide) ?_ ?_
  · exact .step ((ih.expr _).use (by omega)) fun _ => .pure rfl
  · refine .step ((ih.expr _).use (by omega)) fun _ => .step (.expect (by decide)) fun _ => ?_
    exact .step ((ih.expr _).use (by omega)) fun _ => .pure rfl

/-- The other arguments end behind a first one, whatever is made of them. -/
theorem argumentsEnd_ends (finish : Arguments → Arguments) (larger : fuel ≤ more)
    (enough : 16 * size ≤ fuel + 15) {count : Turn Unit Arguments → Nat}
    (weaker : ∀ turn, count turn ≤ turn.least) :
    Ends size At count (argumentsEnd finish fuel) (argumentsEnd finish more) := by
  cases fuel with
  | zero =>
      obtain rfl : size = 0 := by omega
      exact .giveUp
  | succ fuel =>
      obtain ⟨more, rfl⟩ : ∃ less, more = less + 1 := ⟨more - 1, by omega⟩
      have ends : Ends size At Turn.least (argumentsEnd finish (fuel + 1))
          (argumentsEnd finish (more + 1)) :=
        .ifEaten (by decide) (.pure rfl) (.step (.expect (by decide)) fun _ => .pure rfl)
      exact ends.mono (Nat.le_refl _) (fun _ here => here) weaker

/-- A turn of the arguments goes past an argument. -/
theorem argumentsTurn_ends (ih : Ending fuel more) (larger : fuel ≤ more)
    (enough : 16 * size + 5 ≤ fuel + 17) :
    Ends size At Turn.least (argumentsTurn fuel) (argumentsTurn more) := by
  refine .get fun cursor _ => .ite (fun closes => ?_) fun _ => ?_
  · exact .step (.advance fun _ same => by rw [same, closes]; decide) fun _ => .pure rfl
  refine .ite (fun doubled => ?_) fun _ => .ite (fun named => ?_) fun _ => ?_
  · refine .step (.advance fun _ same => by rw [same, doubled]; decide) fun _ => ?_
    refine .bind ((ih.expr _).use (by omega)) fun _ => ?_
    exact argumentsEnd_ends _ larger (by omega) fun _ => by omega
  · refine .step (.advance fun _ same => by rw [same, named.1]; decide) fun _ => ?_
    refine .andThen .advances fun _ => .bind ((ih.expr _).use (by omega)) fun _ => ?_
    exact argumentsEnd_ends _ larger (by omega) fun _ => by omega
  · refine .bind (ih.argument.use (by omega)) fun _ => ?_
    exact argumentsEnd_ends _ larger (by omega) fun _ => by omega

/-- An argument ends, with the clauses of a comprehension behind it. -/
theorem argument_ends (ih : Ending fuel more) :
    EndsFrom 4 Anything (fun _ => 1) readArgument (fuel + 1) (more + 1) := by
  intro size enough
  rw [readArgument, readArgument]
  refine .step ((ih.expr _).use (by omega)) fun _ => ?_
  refine .atClause fun _ => .ite (fun _ => ?_) fun _ => .pure rfl
  exact .andThen (ih.clauses.use (by omega)) fun _ => .spanFrom fun _ => .pure rfl

/-- The arguments behind a comma end. -/
theorem moreArguments_ends (ih : Ending fuel more) :
    EndsFrom 1 Anything (fun _ => 0) readMoreArguments (fuel + 1) (more + 1) := by
  intro size enough
  rw [readMoreArguments, readMoreArguments]
  refine .ifEaten (by decide) (ih.arguments.use (by omega)) ?_
  exact .step (.expect (by decide)) fun _ => .pure rfl

/-- An item between the brackets of a subscript ends. -/
theorem sliceItem_ends (ih : Ending fuel more) :
    EndsFrom 4 Anything (fun _ => 1) readSliceItem (fuel + 1) (more + 1) := by
  intro size enough
  rw [readSliceItem, readSliceItem]
  refine .offset fun _ => .kind fun kind _ => .ite (fun colon => ?_) fun _ => ?_
  · exact (ih.slice _ _).at (by omega) fun _ same => by rw [same, colon]; decide
  refine .step ((ih.expr _).use (by omega)) fun _ => ?_
  refine .kind fun _ _ => .ite (fun colon => ?_) fun _ => .pure rfl
  refine ((ih.slice _ _).at (by omega) ?_).mono (Nat.le_refl _) (fun _ same => same) fun _ => ?_
  · exact fun _ same => by rw [same, colon]; decide
  · exact Nat.zero_le _

/-- A slice ends behind its lower bound, and its colon is gone past. -/
theorem slice_ends (ih : Ending fuel more) (start : Nat) (lower : Option Expr) :
    EndsFrom 1 Real (fun _ => 1) (readSlice · start lower) (fuel + 1) (more + 1) := by
  intro size enough
  dsimp only
  rw [readSlice, readSlice]
  refine .step (.advance fun _ real => real) fun _ => ?_
  refine .andThen (ih.slicePart.use (by omega)) fun _ => .ifEaten (by decide) ?_ ?_
  · refine .andThen (ih.slicePart.use (by omega)) fun _ => .spanFrom fun _ => .pure rfl
  · refine .andThen (.pure rfl) fun _ => .spanFrom fun _ => .pure rfl

/-- A part of a slice ends, also one that is left out. -/
theorem slicePart_ends (ih : Ending fuel more) :
    EndsFrom 4 Anything (fun _ => 0) readSlicePart (fuel + 1) (more + 1) := by
  intro size enough
  rw [readSlicePart, readSlicePart]
  refine .kind fun _ _ => .ite (fun _ => .pure rfl) fun _ => ?_
  exact .bind ((ih.expr _).use (by omega)) fun _ => .pure rfl

/-- What may stand behind a mark ends. -/
theorem optional_ends (ih : Ending fuel more) {mark : TokenKind} (real : mark ≠ .eof) :
    EndsFrom 1 Anything (fun _ => 0) (readOptional · mark) (fuel + 1) (more + 1) := by
  intro size enough
  dsimp only
  rw [readOptional, readOptional]
  refine .ifEaten real (.bind ((ih.expr _).use (by omega)) fun _ => .pure rfl) (.pure rfl)

/-- A parameter and the comma behind it end. -/
theorem parameterTurn_ends (ih : Ending fuel more) (closing : TokenKind) (start : Nat)
    (own usual : ParameterKind) (enough : 16 * size + 1 ≤ fuel + 17) :
    Ends size At Turn.least (parameterTurn closing start own usual (fuel + 1))
      (parameterTurn closing start own usual (more + 1)) := by
  have optional : ∀ mark : TokenKind, mark ≠ .eof →
      Ends (size - 1) Anything (fun _ => 0) (readOptional fuel mark) (readOptional more mark) :=
    fun mark real => (ih.optional mark real).use (by omega)
  rw [parameterTurn, parameterTurn]
  refine .step (.expectOr (by decide) _) fun _ => ?_
  refine .ite (fun _ => .andThen (optional .colon (by decide)) fun _ => ?_)
    fun _ => .andThen (.pure rfl) fun _ => ?_
  all_goals
    refine .andThen (optional .assignment (by decide)) fun _ => .spanFrom fun _ => ?_
    exact .ifEaten (by decide) (.pure rfl) (.pure rfl)

/-- A turn over parameters goes down a level of its own for a name. -/
theorem parameterTurn_less (ih : ∀ deep : Bool, Ending (fuel - deep.toNat) (more - deep.toNat))
    (larger : fuel ≤ more) (closing : TokenKind) (start : Nat) (own usual : ParameterKind)
    (enough : 16 * size ≤ fuel + 15) {count : Turn ParameterKind (List (Parameter Expr)) → Nat}
    (weaker : ∀ turn, count turn ≤ turn.least) :
    Ends size At count (parameterTurn closing start own usual fuel)
      (parameterTurn closing start own usual more) := by
  cases fuel with
  | zero =>
      obtain rfl : size = 0 := by omega
      exact .giveUp
  | succ fuel =>
      obtain ⟨more, rfl⟩ : ∃ less, more = less + 1 := ⟨more - 1, by omega⟩
      have below : Ending fuel more := ih true
      exact (parameterTurn_ends below closing start own usual (by omega)).mono (Nat.le_refl _)
        (fun _ here => here) weaker

/-- A turn of the parameters goes on only behind a comma. -/
theorem parametersTurn_ends (ih : ∀ deep : Bool, Ending (fuel - deep.toNat) (more - deep.toNat))
    (larger : fuel ≤ more) (closing : TokenKind) (usual : ParameterKind)
    (enough : 16 * size + 2 ≤ fuel + 17) :
    Ends size At Turn.least (parametersTurn closing fuel usual)
      (parametersTurn closing more usual) := by
  refine .kind fun _ _ => .ite (fun _ => .pure rfl) fun _ => .offset fun _ => ?_
  refine .ifEaten (by decide) (.ifEaten (by decide) (.pure rfl) (.pure rfl)) ?_
  refine .ifEaten (by decide) (.kind fun _ _ => .ite (fun _ => ?_) fun _ => ?_) ?_
  · exact parameterTurn_less ih larger _ _ _ _ (by omega) fun _ => by omega
  · exact .ifEaten (by decide) (.pure rfl) (.pure rfl)
  refine .ifEaten (by decide) ?_ ?_
  · exact parameterTurn_less ih larger _ _ _ _ (by omega) fun _ => by omega
  · exact parameterTurn_less ih larger _ _ _ _ (by omega) fun _ => by omega

/-- A parameter ends, with the parameters behind it. -/
theorem parameter_ends (ih : Ending fuel more) (closing : TokenKind) (start : Nat)
    (own usual : ParameterKind) :
    EndsFrom 1 Anything (fun _ => 0) (readParameter · closing start own usual) (fuel + 1)
      (more + 1) := by
  intro size enough
  dsimp only
  have optional : ∀ mark : TokenKind, mark ≠ .eof →
      Ends (size - 1) Anything (fun _ => 0) (readOptional fuel mark) (readOptional more mark) :=
    fun mark real => (ih.optional mark real).use (by omega)
  rw [readParameter, readParameter]
  refine .step (.expectOr (by decide) _) fun _ => ?_
  refine .ite (fun _ => .andThen (optional .colon (by decide)) fun _ => ?_)
    fun _ => .andThen (.pure rfl) fun _ => ?_
  all_goals
    refine .andThen (optional .assignment (by decide)) fun _ => .spanFrom fun _ => ?_
    refine .ifEaten (by decide) ?_ (.pure rfl)
    exact .andThen ((ih.parameters _ _).use (by omega)) fun _ => .pure rfl

/-- A turn of the conditions of a comprehension goes past an `if`. -/
theorem conditionsTurn_ends (ih : Ending fuel more) (enough : 16 * size + 1 ≤ fuel + 17) :
    Ends size At Turn.least (markedTurn .ifKw (readExpr fuel .ternary))
      (markedTurn .ifKw (readExpr more .ternary)) :=
  markedTurn_ends (by decide) ((ih.expr _).last (by omega) fun _ => Nat.zero_le _)

/-- A turn of the elements of a display goes past a comma. -/
theorem elementsTurn_ends (ih : Ending fuel more) (closing : TokenKind)
    (enough : 16 * size + 1 ≤ fuel + 17) :
    Ends size At Turn.least (listedTurn closing (readExpr fuel .default))
      (listedTurn closing (readExpr more .default)) :=
  listedTurn_ends ((ih.expr _).last (by omega) fun _ => Nat.zero_le _)

/-- A turn of the entries of a mapping goes past a comma. -/
theorem entriesTurn_ends (ih : Ending fuel more) (enough : 16 * size + 1 ≤ fuel + 17) :
    Ends size At Turn.least (listedTurn .closeCurly (readEntry fuel))
      (listedTurn .closeCurly (readEntry more)) :=
  listedTurn_ends (ih.entry.last (by omega) fun _ => Nat.zero_le _)

/-- A turn of the items of a subscript goes past a comma. -/
theorem sliceItemsTurn_ends (ih : Ending fuel more) (enough : 16 * size + 1 ≤ fuel + 17) :
    Ends size At Turn.least (listedTurn .closeBracket (readSliceItem fuel))
      (listedTurn .closeBracket (readSliceItem more)) :=
  listedTurn_ends (ih.sliceItem.last (by omega) fun _ => Nat.zero_le _)

/-- Without any level nothing is said, for no list has less than no tokens. -/
theorem endsFrom_zero {α : Type} {rank : Nat} {least : α → Nat} {reader : Nat → Parse α}
    (positive : 1 ≤ rank) (gives : reader 0 = giveUp) : EndsFrom rank At least reader 0 more := by
  intro size enough
  obtain rfl : size = 0 := by omega
  rw [gives]
  exact .giveUp

/-- No bound is large enough where there is none, so nothing is claimed of it. -/
theorem ending_zero (more : Nat) : Ending 0 more := by
  constructor
  all_goals intros
  all_goals exact endsFrom_zero (by decide) rfl

/-- One more level for all readers; a turn over arguments or parameters can use up two. -/
theorem ending_step (ih : Ending fuel more)
    (below : ∀ deep : Bool, Ending (fuel - deep.toNat) (more - deep.toNat))
    (larger : fuel ≤ more) : Ending (fuel + 1) (more + 1) where
  expr := expr_ends ih
  joins level left := .loop (isLoop_joins level) (by decide) left
    (fun _ => joinsTurn_ends ih level left) fun deep left => (below deep).joins level left
  opening := opening_ends ih
  joining := joining_ends ih
  tuple := tuple_ends ih
  tupleRest level := .loop (isLoop_tuple level) (by decide) () (fun _ => tupleTurn_ends ih level)
    fun deep _ => (below deep).tupleRest level
  clauses := .loop isLoop_clauses (by decide) () (fun _ => clausesTurn_ends ih)
    fun deep _ => (below deep).clauses
  conditions := .loop isLoop_conditions (by decide) () (fun _ => conditionsTurn_ends ih)
    fun deep _ => (below deep).conditions
  elements closing := .loop (isLoop_elements closing) (by decide) ()
    (fun _ => elementsTurn_ends ih closing) fun deep _ => (below deep).elements closing
  group := group_ends ih
  list := list_ends ih
  curly := curly_ends ih
  dict := dict_ends ih
  entry := entry_ends ih
  entries := .loop isLoop_entries (by decide) () (fun _ => entriesTurn_ends ih)
    fun deep _ => (below deep).entries
  arguments := .loop isLoop_arguments (by decide) () (fun _ => argumentsTurn_ends ih larger)
    fun deep _ => (below deep).arguments
  argument := argument_ends ih
  moreArguments := moreArguments_ends ih
  sliceItem := sliceItem_ends ih
  slice := slice_ends ih
  slicePart := slicePart_ends ih
  sliceItems := .loop isLoop_sliceItems (by decide) () (fun _ => sliceItemsTurn_ends ih)
    fun deep _ => (below deep).sliceItems
  parameters closing usual := .loop (isLoop_parameters closing) (by decide) usual
    (fun _ => parametersTurn_ends below larger closing usual)
    fun deep usual => (below deep).parameters closing usual
  parameter := parameter_ends ih
  optional _ real := optional_ends ih real

/-- All readers of expressions end, by induction on their bound. -/
theorem ending (fuel : Nat) : ∀ more, fuel ≤ more → Ending fuel more := by
  induction fuel using Nat.strongRecOn with
  | ind fuel ih =>
      intro more larger
      cases fuel with
      | zero => exact ending_zero more
      | succ fuel =>
          obtain ⟨more, rfl⟩ : ∃ less, more = less + 1 := ⟨more - 1, by omega⟩
          refine ending_step (ih fuel (by omega) more (by omega)) (fun deep => ?_) (by omega)
          exact ih _ (by omega) _ (by omega)

end Grammar

end DocSketch
