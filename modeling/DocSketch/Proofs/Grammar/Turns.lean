import DocSketch.Grammar.Stmt
import DocSketch.Proofs.Grammar.Progress

/-!
# Loops of the grammar, turn by turn

Many readers are loops: they read one thing, and then themselves again for the others.  A turn
is what such a reader does before that, and it says whether the loop goes on.

* `Grammar.Turn`: the outcome of a turn.
* `Grammar.IsLoop`: a reader that is nothing but its turns.
* `Parse.Ends.loop`: a loop ends if a turn that goes on has gone past a token.
-/

namespace DocSketch

namespace Grammar

open Parse

/-- What a turn of a loop gives: the result of the loop, or the state for the next turn and what
is to be made of the result of the others.  A turn is deep if it has used up two levels of the
bound instead of one. -/
inductive Turn (σ β : Type) where
  | done (value : β)
  | again (deep : Bool) (state : σ) (finish : β → β)

variable {σ α β : Type}

/-- Goes on with the next turn, if there is to be one. -/
def Turn.resume (next : Bool → σ → Parse β) : Turn σ β → Parse β
  | done value => pure value
  | again deep state finish => do return finish (← next deep state)

/-- Number of tokens that a turn has to go past. -/
def Turn.least : Turn σ β → Nat
  | done _ => 0
  | again _ _ _ => 1

/-- The reader does one turn after another, each with a smaller bound. -/
def IsLoop (loop : Nat → σ → Parse β) (turn : Nat → σ → Parse (Turn σ β)) : Prop :=
  ∀ fuel state, loop (fuel + 1) state =
    turn fuel state >>= Turn.resume fun deep => loop (fuel - deep.toNat)

end Grammar

namespace Parse

open Grammar

variable {σ α β : Type} {size fuel more rank : Nat} {At : TokenKind → Prop} {least : α → Nat}

/-- A loop ends if a turn that goes on has gone past a token. -/
theorem Ends.loop {turn other : Parse (Turn σ β)} {next next' : Bool → σ → Parse β}
    (first : Ends size At Turn.least turn other)
    (others : ∀ deep state,
      Ends (size - 1) Anything (fun _ => 0) (next deep state) (next' deep state)) :
    Ends size At (fun _ => 0) (turn >>= Turn.resume next) (other >>= Turn.resume next') := by
  refine first.bind fun outcome => ?_
  cases outcome with
  | done value => exact .pure rfl
  | again deep state finish => exact .andThen (others deep state) fun _ => .pure rfl

/-- The reader ends as soon as its bound is sixteen for each token ahead and `rank` more. -/
def EndsFrom (rank : Nat) (At : TokenKind → Prop) (least : α → Nat) (reader : Nat → Parse α)
    (fuel more : Nat) : Prop :=
  ∀ size, 16 * size + rank ≤ fuel + 16 → Ends size At least (reader fuel) (reader more)

/-- A bound that is large enough ends a reader at the tokens that it may start with. -/
theorem EndsFrom.at {Here : TokenKind → Prop} {reader : Nat → Parse α}
    (ends : EndsFrom rank Here least reader fuel more) (enough : 16 * size + rank ≤ fuel + 16)
    (narrower : ∀ kind, At kind → Here kind) : Ends size At least (reader fuel) (reader more) :=
  (ends size enough).mono (Nat.le_refl _) narrower fun _ => Nat.le_refl _

/-- A bound that is large enough ends a reader that may start with any token. -/
theorem EndsFrom.use {reader : Nat → Parse α}
    (ends : EndsFrom rank Anything least reader fuel more) (enough : 16 * size + rank ≤ fuel + 16) :
    Ends size At least (reader fuel) (reader more) :=
  ends.at enough fun _ _ => trivial

/-- A last reader, of which only less is asked. -/
theorem EndsFrom.last {fewer : α → Nat} {reader : Nat → Parse α}
    (ends : EndsFrom rank Anything fewer reader fuel more) (enough : 16 * size + rank ≤ fuel + 16)
    (weaker : ∀ value, least value ≤ fewer value) :
    Ends size At least (reader fuel) (reader more) :=
  (ends size enough).mono (Nat.le_refl _) (fun _ _ => trivial) weaker

/-- A loop ends if its turns do, the first one at the given tokens and the others at any. -/
theorem EndsFrom.loop {loop : Nat → σ → Parse β} {turn : Nat → σ → Parse (Turn σ β)}
    (isLoop : IsLoop loop turn) (low : rank ≤ 16) (state : σ)
    (first : ∀ size, 16 * size + rank ≤ fuel + 17 →
      Ends size Anything Turn.least (turn fuel state) (turn more state))
    (again : ∀ (deep : Bool) state,
      EndsFrom rank Anything (fun _ => 0) (fun fuel => loop fuel state)
      (fuel - deep.toNat) (more - deep.toNat)) :
    EndsFrom rank Anything (fun _ => 0) (fun fuel => loop fuel state) (fuel + 1) (more + 1) := by
  intro size enough
  dsimp only
  rw [isLoop, isLoop]
  refine .loop (first size (by omega)) fun deep state => again deep state (size - 1) ?_
  have shallow := deep.toNat_le
  omega

end Parse

namespace Grammar

open Parse

variable {σ α β : Type}

/-- What comes behind both branches can be taken into them. -/
theorem ite_bind {condition : Prop} [Decidable condition] (yes no : Parse α) (use : α → Parse β) :
    (if condition then yes else no) >>= use =
      if condition then yes >>= use else no >>= use := by
  split <;> rfl

section Families

/-- A turn of a loop over items that each come behind a mark. -/
def markedTurn (mark : TokenKind) (item : Parse α) : Parse (Turn Unit (List α)) := do
  if ← eat mark then return .again false () ((← item) :: ·) else return .done []

/-- A turn of a loop over items that each come behind a comma; a comma may be the last. -/
def listedTurn (closing : TokenKind) (item : Parse α) : Parse (Turn Unit (List α)) := do
  if ← eat .comma then
    if (← kind) = closing then return .done [] else return .again false () ((← item) :: ·)
  else
    return .done []

/-- A turn of a loop over items with commas between them. -/
def chainedTurn (item : Parse α) : Parse (Turn Unit (List α)) := do
  let first ← item
  if ← eat .comma then return .again false () (first :: ·) else return .done [first]

variable {loop : Nat → Parse (List α)} {item : Nat → Parse α}

theorem isLoop_marked {mark : TokenKind}
    (unfolds : ∀ fuel, loop (fuel + 1) = do
      if ← eat mark then
        let first ← item fuel
        let others ← loop fuel
        return first :: others
      else
        return []) :
    IsLoop (fun fuel (_ : Unit) => loop fuel) fun fuel _ => markedTurn mark (item fuel) := by
  intro fuel _
  dsimp only
  simp only [unfolds, markedTurn, bind_assoc, ite_bind, pure_bind]
  rfl

theorem isLoop_listed {closing : TokenKind}
    (unfolds : ∀ fuel, loop (fuel + 1) = do
      if ← eat .comma then
        if (← kind) = closing then
          return []
        else
          let first ← item fuel
          let others ← loop fuel
          return first :: others
      else
        return []) :
    IsLoop (fun fuel (_ : Unit) => loop fuel) fun fuel _ => listedTurn closing (item fuel) := by
  intro fuel _
  dsimp only
  simp only [unfolds, listedTurn, bind_assoc, ite_bind, pure_bind]
  rfl

theorem isLoop_chained
    (unfolds : ∀ fuel, loop (fuel + 1) = do
      let first ← item fuel
      if ← eat .comma then
        let others ← loop fuel
        return first :: others
      else
        return [first]) :
    IsLoop (fun fuel (_ : Unit) => loop fuel) fun fuel _ => chainedTurn (item fuel) := by
  intro fuel _
  dsimp only
  simp only [unfolds, chainedTurn, bind_assoc, ite_bind, pure_bind]
  rfl

end Families

section Expressions

/-- A turn of the loop over operators: one operator takes what has been read. -/
def joinsTurn (level : Power) (fuel : Nat) (left : Expr) : Parse (Turn Expr Expr) := do
  match (← get).joining? with
  | none => return .done left
  | some (next, form) =>
    if next ≤ level then return .done left
    else return .again false (← readJoining fuel form next left) id

/-- The joins of an expression are a loop whose state is the expression so far. -/
theorem isLoop_joins (level : Power) :
    IsLoop (fun fuel left => readJoins fuel level left) (joinsTurn level) := by
  intro fuel left
  dsimp only
  rw [readJoins, joinsTurn, bind_assoc]
  refine bind_congr fun cursor => ?_
  cases cursor.joining? with
  | none => rfl
  | some entry =>
      dsimp only
      simp only [ite_bind, bind_assoc, pure_bind, Turn.resume, id_eq, bind_pure]
      rfl

/-- A turn of the loop over the further elements of a tuple without parentheses. -/
def tupleTurn (level : Power) (fuel : Nat) : Parse (Turn Unit (List Expr)) := do
  if ← eat .comma then
    if ← atExpression then return .again false () ((← readExpr fuel level) :: ·)
    else return .done []
  else
    return .done []

theorem isLoop_tuple (level : Power) :
    IsLoop (fun fuel (_ : Unit) => readTupleRest fuel level)
      fun fuel _ => tupleTurn level fuel := by
  intro fuel _
  dsimp only
  simp only [readTupleRest, tupleTurn, bind_assoc, ite_bind, pure_bind]
  rfl

/-- A turn of the loop over the clauses of a comprehension. -/
def clausesTurn (fuel : Nat) : Parse (Turn Unit (List (Clause Expr))) := do
  if ← atClause then
    let isAsync ← eat .asyncKw
    let _ ← expect .forKw
    let target ← readTuple fuel .relational
    let _ ← expect .inKw
    let iter ← readExpr fuel .ternary
    let conditions ← readConditions fuel
    return .again false () (⟨target, iter, conditions, isAsync⟩ :: ·)
  else
    return .done []

theorem isLoop_clauses :
    IsLoop (fun fuel (_ : Unit) => readClauses fuel) fun fuel _ => clausesTurn fuel := by
  intro fuel _
  dsimp only
  simp only [readClauses, clausesTurn, bind_assoc, ite_bind, pure_bind]
  rfl

theorem isLoop_conditions :
    IsLoop (fun fuel (_ : Unit) => readConditions fuel) fun fuel _ =>
      markedTurn .ifKw (readExpr fuel .ternary) :=
  isLoop_marked fun fuel => by rw [readConditions]

theorem isLoop_elements (closing : TokenKind) :
    IsLoop (fun fuel (_ : Unit) => readElements fuel closing) fun fuel _ =>
      listedTurn closing (readExpr fuel .default) :=
  isLoop_listed fun fuel => by rw [readElements]

theorem isLoop_entries :
    IsLoop (fun fuel (_ : Unit) => readEntries fuel) fun fuel _ =>
      listedTurn .closeCurly (readEntry fuel) :=
  isLoop_listed fun fuel => by rw [readEntries]

theorem isLoop_sliceItems :
    IsLoop (fun fuel (_ : Unit) => readSliceItems fuel) fun fuel _ =>
      listedTurn .closeBracket (readSliceItem fuel) :=
  isLoop_listed fun fuel => by rw [readSliceItems]

/-- The arguments of a call: positional ones and keywords. -/
abbrev Arguments := List Expr × List (Keyword Expr)

/-- The end of a turn over the arguments of a call: a comma, or the closing parenthesis. -/
def argumentsEnd (finish : Arguments → Arguments) : Nat → Parse (Turn Unit Arguments)
  | 0 => giveUp
  | _ + 1 => do
    if ← eat .comma then
      return .again true () finish
    else
      let _ ← expect .closeParen
      return .done (finish ([], []))

/-- A turn of the loop over the arguments of a call. -/
def argumentsTurn (fuel : Nat) : Parse (Turn Unit Arguments) := do
  let cursor ← get
  if cursor.kind = .closeParen then
    let _ ← advance
    return .done ([], [])
  else if cursor.kind = .power then
    let _ ← advance
    let value ← readExpr fuel .default
    argumentsEnd (fun others => (others.1, ⟨none, value⟩ :: others.2)) fuel
  else if cursor.kind = .identifier ∧ cursor.peek 1 = .assignment then
    let name ← advance
    let _ ← advance
    let value ← readExpr fuel .default
    argumentsEnd (fun others => (others.1, ⟨some name.value, value⟩ :: others.2)) fuel
  else
    let argument ← readArgument fuel
    argumentsEnd (fun others => (argument :: others.1, others.2)) fuel

/-- Resuming the end of an argument is reading the others. -/
theorem argumentsEnd_resume (finish : Arguments → Arguments) (fuel : Nat) :
    argumentsEnd finish fuel >>= Turn.resume (fun deep _ => readArguments (fuel - deep.toNat)) =
      readMoreArguments fuel >>= fun others => pure (finish others) := by
  cases fuel with
  | zero => rfl
  | succ fuel =>
      rw [readMoreArguments, argumentsEnd]
      simp only [bind_assoc, ite_bind, pure_bind]
      rfl

/-- The arguments of a call are a loop, although two readers call each other for them. -/
theorem isLoop_arguments :
    IsLoop (fun fuel (_ : Unit) => readArguments fuel) fun fuel _ => argumentsTurn fuel := by
  intro fuel _
  dsimp only
  rw [readArguments, argumentsTurn]
  simp only [bind_assoc, ite_bind, pure_bind, argumentsEnd_resume]
  rfl

/-- A turn over parameters from the name of one on. -/
def parameterTurn (closing : TokenKind) (start : Nat) (own usual : ParameterKind) :
    Nat → Parse (Turn ParameterKind (List (Parameter Expr)))
  | 0 => giveUp
  | fuel + 1 => do
    let name ← expectOr .identifier "expected parameter name"
    let annotation ←
      if closing ≠ .colon then readOptional fuel .colon else pure none
    let default ← readOptional fuel .assignment
    let parameter := ⟨name.value, annotation, default, own, ← spanFrom start⟩
    if ← eat .comma then return .again true usual (parameter :: ·) else return .done [parameter]

/-- A turn of the loop over parameters; its state is the kind of a parameter without a star. -/
def parametersTurn (closing : TokenKind) (fuel : Nat) (usual : ParameterKind) :
    Parse (Turn ParameterKind (List (Parameter Expr))) := do
  if (← kind) = closing then
    return .done []
  else
    let start ← offset
    if ← eat .slash then
      if ← eat .comma then return .again false usual id else return .done []
    else if ← eat .star then
      if (← kind) = .identifier then
        parameterTurn closing start .varPositional .keywordOnly fuel
      else if ← eat .comma then
        return .again false .keywordOnly id
      else
        return .done []
    else if ← eat .power then
      parameterTurn closing start .varKeyword usual fuel
    else
      parameterTurn closing start usual usual fuel

/-- Resuming a turn of a parameter is reading the parameter. -/
theorem parameterTurn_resume (closing : TokenKind) (start : Nat) (own usual : ParameterKind)
    (fuel : Nat) :
    parameterTurn closing start own usual fuel >>=
        Turn.resume (fun deep => readParameters (fuel - deep.toNat) closing) =
      readParameter fuel closing start own usual := by
  cases fuel with
  | zero => rfl
  | succ fuel =>
      rw [readParameter, parameterTurn]
      simp only [bind_assoc, ite_bind, pure_bind]
      rfl

/-- The parameters are a loop, although two readers call each other for them. -/
theorem isLoop_parameters (closing : TokenKind) :
    IsLoop (fun fuel => readParameters fuel closing) (parametersTurn closing) := by
  intro fuel usual
  dsimp only
  rw [readParameters, parametersTurn]
  simp only [bind_assoc, ite_bind, pure_bind, parameterTurn_resume, Turn.resume, id_eq, bind_pure]
  rfl

end Expressions

section Statements

/-- A turn of the loop over the further parts of a dotted name. -/
def dotsTurn : Parse (Turn Unit String) := do
  if ← eat .dot then
    let name ← expect .identifier
    return .again false () ("." ++ name.value ++ ·)
  else
    return .done ""

theorem isLoop_dots : IsLoop (fun fuel (_ : Unit) => readDots fuel) fun _ _ => dotsTurn := by
  intro fuel _
  dsimp only
  simp only [readDots, dotsTurn, bind_assoc, ite_bind, pure_bind]
  rfl

/-- A turn of the loop over the dots before the name of a relative module. -/
def leadingDotsTurn : Parse (Turn Unit String) := do
  match ← kind with
  | .dot =>
    let _ ← advance
    return .again false () ("." ++ ·)
  | .ellipsis =>
    let _ ← advance
    return .again false () ("..." ++ ·)
  | _ => return .done ""

theorem isLoop_leadingDots :
    IsLoop (fun fuel (_ : Unit) => readLeadingDots fuel) fun _ _ => leadingDotsTurn := by
  intro fuel _
  dsimp only
  rw [readLeadingDots, leadingDotsTurn, bind_assoc]
  refine bind_congr fun kind => ?_
  split
  · rfl
  · rfl
  · simp only [pure_bind]
    rfl

/-- A module of an `import` statement, with its local name. -/
def readImportName (fuel : Nat) : Parse ImportName := do
  let path ← readDottedName fuel
  let localName ← readAlias
  return ⟨path, localName⟩

theorem isLoop_imports :
    IsLoop (fun fuel (_ : Unit) => readImports fuel) fun fuel _ =>
      chainedTurn (readImportName fuel) := by
  refine isLoop_chained fun fuel => ?_
  rw [readImports, readImportName]
  simp only [bind_assoc, pure_bind]

/-- A turn of the loop over the names of a `from` statement. -/
def importedNamesTurn (inParens : Bool) : Parse (Turn Unit (List ImportName)) := do
  let path ← expect .identifier
  let localName ← readAlias
  let name : ImportName := ⟨path.value, localName⟩
  if ← eat .comma then
    if inParens ∧ (← kind) = .closeParen then return .done [name]
    else return .again false () (name :: ·)
  else
    return .done [name]

theorem isLoop_importedNames (inParens : Bool) :
    IsLoop (fun fuel (_ : Unit) => readImportedNames fuel inParens) fun _ _ =>
      importedNamesTurn inParens := by
  intro fuel _
  dsimp only
  rw [readImportedNames, importedNamesTurn]
  simp only [bind_assoc, ite_bind, pure_bind]
  rfl

/-- A turn of the loop over the operands of a keyword. -/
def operandsTurn (fuel : Nat) : Parse (Turn Unit (List Expr)) := do
  if ← atExpression then
    let operand ← readExpr fuel .default
    if ← eat .comma then return .again false () (operand :: ·) else return .done [operand]
  else
    return .done []

theorem isLoop_operands :
    IsLoop (fun fuel (_ : Unit) => readOperands fuel) fun fuel _ => operandsTurn fuel := by
  intro fuel _
  dsimp only
  simp only [readOperands, operandsTurn, bind_assoc, ite_bind, pure_bind]
  rfl

theorem isLoop_links :
    IsLoop (fun fuel (_ : Unit) => readLinks fuel) fun fuel _ =>
      markedTurn .assignment (readTuple fuel .default) :=
  isLoop_marked fun fuel => by rw [readLinks]

/-- An item of a `with` statement. -/
def readWithItem (fuel : Nat) : Parse WithItem := do
  let context ← readExpr fuel .default
  let target ←
    if ← eat .asKw then do pure (some (← readExpr fuel .relational)) else pure none
  return ⟨context, target⟩

theorem isLoop_withItems :
    IsLoop (fun fuel (_ : Unit) => readWithItems fuel) fun fuel _ =>
      chainedTurn (readWithItem fuel) := by
  refine isLoop_chained fun fuel => ?_
  rw [readWithItems, readWithItem]
  simp only [bind_assoc, ite_bind, pure_bind]

/-- A decorator after its sign, with the newlines behind it. -/
def readDecorator (fuel : Nat) : Parse Expr := do
  let decorator ← readExpr fuel .default
  let _ ← expect .newline
  let _ ← takeAll .newline
  return decorator

theorem isLoop_decorators :
    IsLoop (fun fuel (_ : Unit) => readDecorators fuel) fun fuel _ =>
      markedTurn .atSign (readDecorator fuel) := by
  refine isLoop_marked fun fuel => ?_
  rw [readDecorators, readDecorator]
  simp only [bind_assoc, pure_bind]

/-- A turn of the loop over the handlers of a `try` statement. -/
def handlersTurn (fuel : Nat) : Parse (Turn Unit (List (Handler Stmt))) := do
  if (← kind) = .exceptKw then
    let start := (← advance).span.start
    let _ ← eat .star
    let exception ←
      if (← kind) = .colon then pure none else do pure (some (← readExpr fuel .default))
    let name ← readAlias
    let body ← readBlock fuel
    let span ← compoundSpan start [body]
    return .again false () (⟨span, exception, name, body⟩ :: ·)
  else
    return .done []

theorem isLoop_handlers :
    IsLoop (fun fuel (_ : Unit) => readHandlers fuel) fun fuel _ => handlersTurn fuel := by
  intro fuel _
  dsimp only
  rw [readHandlers, handlersTurn]
  simp only [bind_assoc, ite_bind, pure_bind]
  rfl

/-- A turn of the loop over the statements of an indented block. -/
def indentedTurn (fuel : Nat) : Parse (Turn Unit (List Stmt)) := do
  match ← kind with
  | .dedent | .eof => return .done []
  | .newline =>
    let _ ← advance
    return .again false () id
  | _ => return .again false () ((← readStmt fuel) :: ·)

theorem isLoop_indented :
    IsLoop (fun fuel (_ : Unit) => readIndented fuel) fun fuel _ => indentedTurn fuel := by
  intro fuel _
  dsimp only
  rw [readIndented, indentedTurn, bind_assoc]
  refine bind_congr fun kind => ?_
  split
  · rfl
  · rfl
  · simp only [bind_assoc, pure_bind, Turn.resume, id_eq, bind_pure]
    rfl
  · simp only [bind_assoc, pure_bind]
    rfl

/-- A turn of the loop over statements on one line. -/
def inlineTurn (fuel : Nat) : Parse (Turn Unit (List Stmt)) := do
  let stmt ← readStmt fuel
  let cursor ← get
  if cursor.previous.kind = .semicolon ∧
      ¬(cursor.kind = .newline ∨ cursor.kind = .dedent ∨ cursor.kind = .eof) then
    return .again false () (stmt :: ·)
  else
    return .done [stmt]

theorem isLoop_inline :
    IsLoop (fun fuel (_ : Unit) => readInline fuel) fun fuel _ => inlineTurn fuel := by
  intro fuel _
  dsimp only
  rw [readInline, inlineTurn]
  simp only [bind_assoc, ite_bind, pure_bind]
  rfl

/-- A turn of the loop over the statements of a file. -/
def programTurn (fuel : Nat) : Parse (Turn Unit (List Stmt)) := do
  match ← kind with
  | .eof => return .done []
  | .newline =>
    let _ ← advance
    return .again false () id
  | _ => return .again false () ((← readStmt fuel) :: ·)

theorem isLoop_program :
    IsLoop (fun fuel (_ : Unit) => readProgram fuel) fun fuel _ => programTurn fuel := by
  intro fuel _
  dsimp only
  rw [readProgram, programTurn, bind_assoc]
  refine bind_congr fun kind => ?_
  split
  · rfl
  · simp only [bind_assoc, pure_bind, Turn.resume, id_eq, bind_pure]
    rfl
  · simp only [bind_assoc, pure_bind]
    rfl

end Statements

end Grammar

end DocSketch
