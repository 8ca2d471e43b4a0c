import DocSketch.Proofs.Grammar.Framing
import DocSketch.Proofs.Grammar.Termination

/-!
# Expressions lie between the tokens they are read from

Every reader of expressions gives nodes whose spans start and stop with tokens that it has gone
past, and each of them encloses its parts.

* `Grammar.Framing`: this for each reader, with a bound on how deeply they call each other.
* `Grammar.framing`: for all bounds.
-/

namespace DocSketch

/-- The expressions in an entry of a mapping. -/
def Entry.expressions (entry : Entry Expr) : List Expr := entry.key.toList ++ [entry.value]

/-- The expressions in a clause of a comprehension. -/
def Clause.expressions (clause : Clause Expr) : List Expr :=
  clause.target :: clause.iter :: clause.conditions

namespace Grammar

open Parse DocSketch.Expr

variable {α : Type} {all : List Token} {fuel : Nat} {At : TokenKind → Prop} {begun : Bool}
  {lo bound start : Nat}

/-- The reader goes past a token and gives an expression that lies among those it goes past. -/
abbrev FitsExpr (all : List Token) (At : TokenKind → Prop) (reader : Parse Expr) : Prop :=
  ∀ lo, Fits all At false lo reader true fun e hi => e.Lies all lo hi

/-- The expressions in what the reader gives lie among the tokens that it goes past. -/
abbrev FitsExprs (all : List Token) (begun : Bool) (exprs : α → List Expr) (reader : Parse α) :
    Prop :=
  ∀ lo, Fits all Anything begun lo reader begun fun value hi => AllLie all lo hi (exprs value)

/-- What lies among later tokens lies among all of them. -/
theorem FitsExprs.goesOn {exprs : α → List Expr} {reader : Parse α}
    (fits : FitsExprs all true exprs reader) {middle : Nat} (le : lo ≤ middle) :
    Fits all At true middle reader begun fun value hi => AllLie all lo hi (exprs value) :=
  ((fits middle).mono fun _ _ _ lie => lie.sink le).anywhere.loosen

/-- Where the expressions lie that the readers give. -/
structure Framing (all : List Token) (fuel : Nat) : Prop where
  expr : ∀ level, FitsExpr all Anything (readExpr fuel level)
  joins : ∀ level bound lo left, left.Lies all bound lo →
    Fits all Anything true lo (readJoins fuel level left) true fun e hi => e.Lies all bound hi
  opening : ∀ form, FitsExpr all Real (readOpening fuel form)
  joining : ∀ form own bound lo left, left.Lies all bound lo →
    Fits all Real true lo (readJoining fuel form own left) true fun e hi => e.Lies all bound hi
  tuple : ∀ level, FitsExpr all Anything (readTuple fuel level)
  tupleRest : ∀ level, FitsExprs all true id (readTupleRest fuel level)
  clauses : FitsExprs all true (·.flatMap Clause.expressions) (readClauses fuel)
  conditions : FitsExprs all true id (readConditions fuel)
  elements : ∀ closing, FitsExprs all true id (readElements fuel closing)
  group : FitsExpr all Real (readGroup fuel)
  list : FitsExpr all Real (readListDisplay fuel)
  curly : FitsExpr all Real (readCurly fuel)
  dict : ∀ start bound lo first, (∃ token ∈ all, token.span.start = start) → bound ≤ start →
    start ≤ lo → AllLie all start lo first.expressions →
    Fits all Anything true lo (readDict fuel start first) true fun e hi => e.Lies all bound hi
  entry : ∀ lo, Fits all Anything false lo (readEntry fuel) true
    fun entry hi => AllLie all lo hi entry.expressions
  entries : FitsExprs all true (·.flatMap Entry.expressions) (readEntries fuel)
  arguments : ∀ lo, Fits all Anything false lo (readArguments fuel) true
    fun found hi => AllLie all lo hi (found.1 ++ found.2.map Keyword.value)
  argument : FitsExpr all Anything (readArgument fuel)
  moreArguments : FitsExprs all true (fun found => found.1 ++ found.2.map Keyword.value)
    (readMoreArguments fuel)
  sliceItem : FitsExpr all Anything (readSliceItem fuel)
  slice : ∀ start bound lo lower begun, (∃ token ∈ all, token.span.start = start) →
    bound ≤ start → start ≤ lo → AllLie all start lo lower.toList →
    Fits all Real begun lo (readSlice fuel start lower) true fun e hi => e.Lies all bound hi
  slicePart : FitsExprs all true Option.toList (readSlicePart fuel)
  sliceItems : FitsExprs all true id (readSliceItems fuel)
  parameters : ∀ closing usual begun,
    FitsExprs all begun (·.flatMap Parameter.expressions) (readParameters fuel closing usual)
  parameter : ∀ closing start own usual begun,
    FitsExprs all begun (·.flatMap Parameter.expressions)
      (readParameter fuel closing start own usual)
  optional : ∀ mark, mark ≠ .eof → ∀ begun,
    FitsExprs all begun Option.toList (readOptional fuel mark)

/-- An expression lies where its tokens are. -/
theorem expr_fits (ih : Framing all fuel) (level : Power) :
    FitsExpr all Anything (readExpr (fuel + 1) level) := by
  intro lo
  rw [readExpr]
  refine .get fun cursor _ _ => ?_
  cases opens : cursor.opening? with
  | none => exact .failHere _
  | some form =>
      have real := real_of_opening opens
      refine .bind ((ih.opening form lo).narrow fun _ same => same ▸ real) fun left hi _ lies => ?_
      exact ih.joins level lo hi left lies

/-- What an operand is joined to lies behind it. -/
theorem joins_fits (ih : Framing all fuel) (level : Power) (bound lo : Nat) (left : Expr)
    (lies : left.Lies all bound lo) :
    Fits all Anything true lo (readJoins (fuel + 1) level left) true
      fun e hi => e.Lies all bound hi := by
  rw [readJoins]
  refine .get fun cursor _ _ => ?_
  cases joins : cursor.joining? with
  | none => exact .pure lies
  | some entry =>
      have real := real_of_joining joins
      refine .ite (fun _ => .pure lies) fun _ => ?_
      refine .bind ((ih.joining _ _ bound lo left lies).narrow fun _ same => same ▸ real) ?_
      exact fun joined hi _ further => ih.joins level bound hi joined further

/-- A number lies where its token is. -/
theorem readNumber_fits : FitsExpr all Real readNumber := by
  refine fun lo => .advance (fun _ real => real) fun token listed _ after ordered => ?_
  exact .ite (fun _ => .failAt _ _) fun _ => .pure (.leaf listed after ordered rfl rfl)

/-- A string lies where its tokens are. -/
theorem readString_fits : FitsExpr all Real readString := by
  refine fun lo => .advance (fun _ real => real) fun token listed _ after ordered => ?_
  refine .takeAll (by decide) fun others hi le => ?_
  exact .close ⟨token, listed, rfl⟩ after (ordered.trans le) (fun _ => rfl) .nil

/-- What an expression starts with lies where its tokens are. -/
theorem opening_fits (ih : Framing all fuel) (form : Opening) :
    FitsExpr all Real (readOpening (fuel + 1) form) := by
  intro lo
  cases form with
  | number => exact readNumber_fits lo
  | string => exact readString_fits lo
  | identifier | constant =>
      rw [readOpening]
      refine .advance (fun _ real => real) fun token listed _ after ordered => ?_
      exact .pure (.leaf listed after ordered rfl rfl)
  | unary | star =>
      rw [readOpening]
      refine .advance (fun _ real => real) fun token listed _ after ordered => ?_
      refine .read (ih.expr _ _) fun operand hi _ lies => .pure ?_
      exact .prefixed listed after ordered lies (Nat.le_refl _) rfl
        (AllLie.nil.cons (lies.ended.sink ordered))
  | group => exact ih.group lo
  | list => exact ih.list lo
  | curly => exact ih.curly lo
  | lambda =>
      rw [readOpening]
      refine .advance (fun _ real => real) fun token listed _ after ordered => ?_
      refine .bind (ih.parameters _ _ true _) fun parameters middle le declared => ?_
      refine .expect (by decide) fun colon _ after' wide => ?_
      refine .read (ih.expr _ _) fun body hi _ lies => .pure ?_
      have beyond : middle ≤ colon.span.stop := after'.trans wide
      refine .prefixed listed after ordered lies (le.trans beyond) rfl (.append ?_ ?_)
      · exact declared.widen ordered (beyond.trans lies.ended.le)
      · exact AllLie.nil.cons (lies.ended.sink (ordered.trans (le.trans beyond)))
  | yield =>
      rw [readOpening]
      refine .advance (fun _ real => real) fun token listed _ after ordered => ?_
      have starts : ∃ other ∈ all, other.span.start = token.span.start := ⟨token, listed, rfl⟩
      refine .ifEaten (by decide) (fun middle le => ?_) (.atExpression fun _ => .ite ?_ ?_)
      · refine .read (ih.expr _ _) fun value hi further lies => ?_
        exact .close starts after (ordered.trans (le.trans further)) (fun _ => rfl)
          (AllLie.nil.cons (lies.sink (ordered.trans le)))
      · refine fun _ => .read (ih.tuple _ _) fun value hi further lies => ?_
        exact .close starts after (ordered.trans further) (fun _ => rfl)
          (AllLie.nil.cons (lies.sink ordered))
      · exact fun _ => .close starts after ordered (fun _ => rfl) .nil

/-- An expression that goes on from an operand covers it. -/
theorem joining_fits (ih : Framing all fuel) (form : Joining) (own : Power) (bound lo : Nat)
    (left : Expr) (lies : left.Lies all bound lo) :
    Fits all Real true lo (readJoining (fuel + 1) form own left) true
      fun e hi => e.Lies all bound hi := by
  have starts := lies.here.edged.starts
  have first : ∀ {β : Type} {others : Token → Parse β} {Last : β → Nat → Prop},
      (∀ token hi, lo ≤ hi → Fits all Anything true hi (others token) true Last) →
      Fits all Real true lo (advance >>= others) true Last :=
    fun second => .advance (fun _ real => real) fun token _ _ after ordered =>
      second token _ (after.trans ordered)
  -- A binary operation ends where its right operand does, whichever keywords stand before it.
  have operand : ∀ {build : Expr → Expr} {level : Power} {hi : Nat}, lo ≤ hi →
      (∀ right, (build right).span = ⟨left.span.start, right.span.stop⟩) →
      (∀ right, (build right).parts = [left, right]) →
      Fits all Anything true hi (do return build (← readExpr fuel level)) true
        fun e hi => e.Lies all bound hi := by
    intro build level hi le span parts
    refine .read (ih.expr _ _) fun right hi' _ lies' => .pure ?_
    refine .joined lies lies' le (span right) ?_
    rw [parts right]
    refine .cons (lies.started.raise (le.trans lies'.ended.le)) (.cons (lies'.ended.sink ?_) .nil)
    exact lies.started.le.trans le
  cases form <;> rw [readJoining]
  case binary right =>
    exact first fun operator hi le => operand le (fun _ => rfl) fun _ => rfl
  case identity =>
    refine first fun operator hi le => .eat (by decide) fun negated hi' further => ?_
    exact operand (le.trans further) (fun _ => rfl) fun _ => rfl
  case exclusion =>
    refine first fun _ hi le => .expectOr (by decide) fun operator _ after wide => ?_
    exact operand (le.trans (after.trans wide)) (fun _ => rfl) fun _ => rfl
  case ternary =>
    refine first fun _ hi le => .read (ih.expr _ _) fun test middle further between => ?_
    refine .expect (by decide) fun _ _ after wide => ?_
    refine .read (ih.expr _ _) fun orelse hi' _ last => .pure ?_
    have beyond := after.trans wide
    have behind := lies.started.le.trans le
    refine .joined lies last (le.trans (further.trans beyond)) rfl
      (.cons ?_ (.cons ?_ (.cons ?_ .nil)))
    · exact lies.started.raise (le.trans (further.trans (beyond.trans last.ended.le)))
    · exact between.widen behind (beyond.trans last.ended.le)
    · exact last.ended.sink (behind.trans (further.trans beyond))
  case call =>
    refine first fun _ hi le => .read (ih.arguments _) fun found middle further inside => ?_
    have whole := le.trans further
    refine .close starts lies.lower (lies.started.le.trans whole) (fun _ => rfl) (.cons ?_ ?_)
    · exact lies.started.raise whole
    · exact inside.sink (lies.started.le.trans le)
  case subscript =>
    refine first fun _ hi le => .offset fun start begins after => ?_
    have behind : left.span.start ≤ start := lies.started.le.trans (le.trans after)
    -- The bracket is closed behind one item or behind a tuple of them.
    have closes : ∀ (index : Expr) (middle : Nat), start ≤ middle → index.Lies all start middle →
        Fits all Anything true middle (do
          let _ ← expect .closeBracket
          return Expr.subscript (← spanFrom left.span.start) left index) true
        fun e hi => e.Lies all bound hi := by
      intro index middle further inside
      refine .expect (by decide) fun _ _ after' wide => ?_
      have beyond := after'.trans wide
      refine .close starts lies.lower (behind.trans (further.trans beyond)) (fun _ => rfl)
        (.cons ?_ (.cons ?_ .nil))
      · exact lies.started.raise (le.trans (after.trans (further.trans beyond)))
      · exact inside.widen behind beyond
    refine .read (ih.sliceItem _) fun item middle further inside => ?_
    refine .kind fun _ _ => .ite (fun _ => ?_) fun _ =>
      .known (closes item middle further inside).anywhere
    refine .bind (ih.sliceItems _).anywhere fun others hi' beyond rest => .spanFrom fun stops => ?_
    refine .known (closes _ _ (further.trans beyond) ?_)
    refine .spanned begins stops (Nat.le_refl _) (further.trans beyond) rfl (.cons ?_ ?_)
    · exact inside.raise beyond
    · exact rest.sink further
  case member =>
    refine first fun _ hi le => .expectOr (by decide) fun property listed after wide => .pure ?_
    have whole := le.trans (after.trans wide)
    refine .spanned starts ⟨property, listed, rfl⟩ lies.lower (lies.started.le.trans whole) rfl ?_
    exact AllLie.nil.cons (lies.started.raise whole)

/-- A tuple without parentheses covers its elements. -/
theorem tuple_fits (ih : Framing all fuel) (level : Power) :
    FitsExpr all Anything (readTuple (fuel + 1) level) := by
  intro lo
  rw [readTuple]
  refine .read (ih.expr _ _) fun first hi _ lies => .kind fun _ _ => .ite (fun _ => ?_) fun _ => ?_
  · refine .bind (ih.tupleRest _ _).anywhere fun others hi' le rest => ?_
    refine .close lies.here.edged.starts lies.lower (lies.started.le.trans le) (fun _ => rfl) ?_
    exact .cons (lies.started.raise le) (rest.sink lies.started.le)
  · exact .pure lies

/-- An item with more of them behind it. -/
theorem item_fits {item : α} {exprs : α → List Expr} {others : Parse (List α)} {hi : Nat}
    (le : lo ≤ hi) (first : AllLie all lo hi (exprs item))
    (more : FitsExprs all true (·.flatMap exprs) others) :
    Fits all At true hi (do return item :: (← others)) true
      fun items hi => AllLie all lo hi (items.flatMap exprs) :=
  .bind (more hi).anywhere fun _ _ further rest =>
    .pure ((first.raise further).append (rest.sink le))

/-- One more expression lies before those that are read behind it. -/
theorem expr_item_fits {e : Expr} {others : Parse (List Expr)} {hi : Nat} (le : lo ≤ hi)
    (first : e.Lies all lo hi) (more : FitsExprs all true id others) :
    Fits all At true hi (do return e :: (← others)) true fun es hi => AllLie all lo hi es :=
  .bind (more hi).anywhere fun _ _ further rest =>
    .pure (.cons (first.raise further) (rest.sink le))

/-- Further elements of a tuple lie one behind the other. -/
theorem tupleRest_fits (ih : Framing all fuel) (level : Power) :
    FitsExprs all true id (readTupleRest (fuel + 1) level) := by
  intro lo
  rw [readTupleRest]
  refine .ifEaten (by decide) (fun middle le => ?_) (.pure .nil)
  refine .atExpression fun _ => .ite (fun _ => ?_) fun _ => .pure .nil
  refine .read (ih.expr _ _) fun element hi further lies => ?_
  exact expr_item_fits (le.trans further) (lies.sink le) (ih.tupleRest level)

/-- The expressions in clauses lie one behind the other. -/
theorem clauses_fits (ih : Framing all fuel) :
    FitsExprs all true (·.flatMap Clause.expressions) (readClauses (fuel + 1)) := by
  intro lo
  rw [readClauses]
  refine .atClause fun _ => .ite (fun _ => ?_) fun _ => .pure .nil
  refine .eat (by decide) fun isAsync _ le => .expect (by decide) fun _ _ after wide => ?_
  refine .read (ih.tuple _ _) fun target _ further first => ?_
  refine .expect (by decide) fun _ _ after' wide' => ?_
  refine .read (ih.expr _ _) fun iter _ beyond second => ?_
  refine .bind (ih.conditions _) fun conditions hi behind third => ?_
  have early := le.trans (after.trans wide)
  have late := further.trans (after'.trans wide')
  refine item_fits (early.trans (late.trans (beyond.trans behind))) (.cons ?_ (.cons ?_ ?_))
    ih.clauses
  · exact first.widen early ((after'.trans wide').trans (beyond.trans behind))
  · exact second.widen (early.trans late) behind
  · exact third.sink (early.trans (late.trans beyond))

/-- Conditions lie one behind the other. -/
theorem conditions_fits (ih : Framing all fuel) :
    FitsExprs all true id (readConditions (fuel + 1)) := by
  intro lo
  rw [readConditions]
  refine .ifEaten (by decide) (fun middle le => ?_) (.pure .nil)
  refine .read (ih.expr _ _) fun condition hi further lies => ?_
  exact expr_item_fits (le.trans further) (lies.sink le) ih.conditions

/-- Elements of a display lie one behind the other. -/
theorem elements_fits (ih : Framing all fuel) (closing : TokenKind) :
    FitsExprs all true id (readElements (fuel + 1) closing) := by
  intro lo
  rw [readElements]
  refine .ifEaten (by decide) (fun middle le => ?_) (.pure .nil)
  refine .kind fun _ _ => .ite (fun _ => .pure .nil) fun _ => ?_
  refine .read (ih.expr _ _) fun element hi further lies => ?_
  exact expr_item_fits (le.trans further) (lies.sink le) (ih.elements closing)

/-- Clauses and the closing bracket behind the element of a comprehension. -/
theorem clauses_close (ih : Framing all fuel) {closing : TokenKind} (real : closing ≠ .eof)
    {build : Span → List (Clause Expr) → Expr} {early : List Expr} {hi : Nat}
    (starts : ∃ token ∈ all, token.span.start = start) (lower : bound ≤ start)
    (ordered : start ≤ hi) (lie : AllLie all start hi early)
    (span : ∀ span clauses, (build span clauses).span = span)
    (parts : ∀ span clauses,
      (build span clauses).parts = early ++ clauses.flatMap Clause.expressions) :
    Fits all At true hi (do
      let clauses ← readClauses fuel
      let _ ← expect closing
      return build (← spanFrom start) clauses) true fun e hi => e.Lies all bound hi := by
  refine .bind (ih.clauses _).anywhere fun clauses middle le rest => ?_
  refine .expect real fun _ _ after wide => ?_
  have beyond := after.trans wide
  refine .close starts lower (ordered.trans (le.trans beyond)) (fun _ => span _ _) ?_
  rw [parts]
  exact (lie.raise (le.trans beyond)).append (rest.widen ordered beyond)

/-- Further elements and the closing bracket behind the first element of a display. -/
theorem elements_close (ih : Framing all fuel) {closing : TokenKind} (real : closing ≠ .eof)
    {kind : SequenceKind} {first : Expr} {hi : Nat}
    (starts : ∃ token ∈ all, token.span.start = start) (lower : bound ≤ start)
    (lies : first.Lies all start hi) :
    Fits all At true hi (do
      let others ← readElements fuel closing
      let _ ← expect closing
      return Expr.sequence (← spanFrom start) kind (first :: others)) true
    fun e hi => e.Lies all bound hi := by
  refine .bind (ih.elements _ _).anywhere fun others middle le rest => ?_
  refine .expect real fun _ _ after wide => ?_
  have beyond := after.trans wide
  refine .close starts lower (lies.le.trans (le.trans beyond)) (fun _ => rfl) (.cons ?_ ?_)
  · exact lies.raise (le.trans beyond)
  · exact rest.widen lies.le beyond

/-- What stands in parentheses lies between them. -/
theorem group_fits (ih : Framing all fuel) : FitsExpr all Real (readGroup (fuel + 1)) := by
  intro lo
  rw [readGroup]
  refine .advance (fun _ real => real) fun token listed _ after ordered => ?_
  have starts : ∃ other ∈ all, other.span.start = token.span.start := ⟨token, listed, rfl⟩
  refine .ifEaten (by decide) (fun hi le => ?_) ?_
  · exact .close starts after (ordered.trans le) (fun _ => rfl) .nil
  refine .read (ih.expr _ _) fun first hi _ lies => ?_
  refine .atClause fun _ => .ite (fun _ => ?_) fun _ => ?_
  · have inside := lies.sink ordered
    exact clauses_close ih (by decide) starts after inside.le (.cons inside .nil)
      (fun _ _ => rfl) fun _ _ => rfl
  refine .kind fun _ _ => .ite (fun _ => ?_) fun _ => ?_
  · exact elements_close ih (by decide) starts after (lies.sink ordered)
  · refine .expect (by decide) fun _ _ after' wide => .pure ?_
    exact lies.widen (after.trans ordered) (after'.trans wide)

/-- A list covers its elements and brackets. -/
theorem list_fits (ih : Framing all fuel) : FitsExpr all Real (readListDisplay (fuel + 1)) := by
  intro lo
  rw [readListDisplay]
  refine .advance (fun _ real => real) fun token listed _ after ordered => ?_
  have starts : ∃ other ∈ all, other.span.start = token.span.start := ⟨token, listed, rfl⟩
  refine .ifEaten (by decide) (fun hi le => ?_) ?_
  · exact .close starts after (ordered.trans le) (fun _ => rfl) .nil
  refine .read (ih.expr _ _) fun first hi _ lies => ?_
  have inside := lies.sink ordered
  refine .atClause fun _ => .ite (fun _ => ?_) fun _ => ?_
  · exact clauses_close ih (by decide) starts after inside.le (.cons inside .nil)
      (fun _ _ => rfl) fun _ _ => rfl
  · exact elements_close ih (by decide) starts after inside

/-- A set or a mapping covers what it holds. -/
theorem curly_fits (ih : Framing all fuel) : FitsExpr all Real (readCurly (fuel + 1)) := by
  intro lo
  rw [readCurly]
  refine .advance (fun _ real => real) fun token listed _ after ordered => ?_
  have starts : ∃ other ∈ all, other.span.start = token.span.start := ⟨token, listed, rfl⟩
  refine .ifEaten (by decide) (fun hi le => ?_) ?_
  · exact .close starts after (ordered.trans le) (fun _ => rfl) .nil
  refine .kind fun _ _ => .ite (fun _ => ?_) fun _ => ?_
  · refine .read (ih.entry _) fun first hi le lie => ?_
    exact ih.dict _ _ _ first starts after (ordered.trans le) (lie.sink ordered)
  refine .read (ih.expr _ _) fun first middle _ lies => .ifEaten (by decide) (fun _ le => ?_) ?_
  · refine .read (ih.expr _ _) fun value hi further second => ?_
    have key := (lies.sink ordered).raise (le.trans further)
    have mapped := second.sink (ordered.trans (lies.le.trans le))
    refine .atClause fun _ => .ite (fun _ => ?_) fun _ => ?_
    · exact clauses_close ih (by decide) starts after key.le (.cons key (.cons mapped .nil))
        (fun _ _ => rfl) fun _ _ => rfl
    · exact ih.dict _ _ _ _ starts after key.le (.cons key (.cons mapped .nil))
  · have inside := lies.sink ordered
    refine .atClause fun _ => .ite (fun _ => ?_) fun _ => ?_
    · exact clauses_close ih (by decide) starts after inside.le (.cons inside .nil)
        (fun _ _ => rfl) fun _ _ => rfl
    · exact elements_close ih (by decide) starts after inside

/-- A mapping goes on behind its first entry. -/
theorem dict_fits (ih : Framing all fuel) (start bound lo : Nat) (first : Entry Expr)
    (starts : ∃ token ∈ all, token.span.start = start) (lower : bound ≤ start)
    (ordered : start ≤ lo) (lie : AllLie all start lo first.expressions) :
    Fits all Anything true lo (readDict (fuel + 1) start first) true
      fun e hi => e.Lies all bound hi := by
  rw [readDict]
  refine .bind (ih.entries _) fun others middle le rest => ?_
  refine .expect (by decide) fun _ _ after wide => ?_
  have beyond := after.trans wide
  refine .close starts lower (ordered.trans (le.trans beyond)) (fun _ => rfl) ?_
  exact (lie.raise (le.trans beyond)).append (rest.widen ordered beyond)

/-- The key of an entry lies before its value. -/
theorem entry_fits (ih : Framing all fuel) (lo : Nat) :
    Fits all Anything false lo (readEntry (fuel + 1)) true
      fun entry hi => AllLie all lo hi entry.expressions := by
  rw [readEntry]
  refine .ifEaten (by decide) (fun middle le => ?_) ?_
  · refine .read (ih.expr _ _) fun value hi _ lies => .pure ?_
    exact .cons (lies.sink le) .nil
  · refine .read (ih.expr _ _) fun key middle le first => ?_
    refine .expect (by decide) fun _ _ after wide => ?_
    refine .read (ih.expr _ _) fun value hi further second => .pure (.cons ?_ (.cons ?_ .nil))
    · exact first.raise ((after.trans wide).trans further)
    · exact second.sink (le.trans (after.trans wide))

/-- Entries lie one behind the other. -/
theorem entries_fits (ih : Framing all fuel) :
    FitsExprs all true (·.flatMap Entry.expressions) (readEntries (fuel + 1)) := by
  intro lo
  rw [readEntries]
  refine .ifEaten (by decide) (fun middle le => ?_) (.pure .nil)
  refine .kind fun _ _ => .ite (fun _ => .pure .nil) fun _ => ?_
  refine .read (ih.entry _) fun entry hi further lie => ?_
  exact item_fits (le.trans further) (lie.sink le) ih.entries

/-- An argument lies where its tokens are, clauses included. -/
theorem argument_fits (ih : Framing all fuel) :
    FitsExpr all Anything (readArgument (fuel + 1)) := by
  intro lo
  rw [readArgument]
  refine .read (ih.expr _ _) fun argument hi _ lies => ?_
  refine .atClause fun _ => .ite (fun _ => ?_) fun _ => .pure lies
  refine .bind (ih.clauses _) fun clauses _ le rest => ?_
  refine .close lies.here.edged.starts lies.lower (lies.started.le.trans le) (fun _ => rfl) ?_
  exact .cons (lies.started.raise le) (rest.sink lies.started.le)

/-- Positional arguments lie before those behind them, keywords or not. -/
theorem arguments_fits (ih : Framing all fuel) (lo : Nat) :
    Fits all Anything false lo (readArguments (fuel + 1)) true
      fun found hi => AllLie all lo hi (found.1 ++ found.2.map Keyword.value) := by
  have named : ∀ {middle : Nat} {name : Option String}, lo ≤ middle →
      Fits all Anything true middle (do
        let value ← readExpr fuel .default
        let others ← readMoreArguments fuel
        return (others.1, (⟨name, value⟩ : Keyword Expr) :: others.2)) true
      fun found hi => AllLie all lo hi (found.1 ++ found.2.map Keyword.value) := by
    intro middle name le
    refine .read (ih.expr _ _) fun value _ further lies => ?_
    refine .bind (ih.moreArguments _) fun found hi beyond rest => .pure ?_
    obtain ⟨early, late⟩ := List.forall_mem_append.mp (rest.sink (le.trans further))
    exact AllLie.append early (.cons (lies.widen le beyond) late)
  rw [readArguments]
  refine .get fun cursor _ _ => .ite (fun closes => ?_) fun _ => .ite (fun doubled => ?_) fun _ =>
    .ite (fun given => ?_) fun _ => ?_
  · exact .advance (fun _ same => by rw [same, closes]; decide) fun _ _ _ _ _ => .pure .nil
  · refine .advance (fun _ same => by rw [same, doubled]; decide) fun _ _ _ after ordered => ?_
    exact named (after.trans ordered)
  · refine .advance (fun _ same => by rw [same, given.1]; decide) fun _ _ _ after ordered => ?_
    refine .advances fun _ _ le => ?_
    exact named ((after.trans ordered).trans le)
  · refine .read (ih.argument _) fun argument middle le lies => ?_
    refine .bind (ih.moreArguments _) fun found hi beyond rest => .pure ?_
    exact .cons (lies.raise beyond) (rest.sink le)

/-- Further arguments lie up to the closing parenthesis. -/
theorem moreArguments_fits (ih : Framing all fuel) :
    FitsExprs all true (fun found => found.1 ++ found.2.map Keyword.value)
      (readMoreArguments (fuel + 1)) := by
  intro lo
  rw [readMoreArguments]
  refine .ifEaten (by decide) (fun middle le => ?_) ?_
  · exact (ih.arguments _).weaken.mono fun _ _ _ lie => lie.sink le
  · exact .expect (by decide) fun _ _ _ _ => .pure .nil

/-- An item of a subscript lies where its tokens are. -/
theorem sliceItem_fits (ih : Framing all fuel) :
    FitsExpr all Anything (readSliceItem (fuel + 1)) := by
  intro lo
  rw [readSliceItem]
  refine .offset fun start starts lower => .kind fun kind _ => .ite (fun colon => ?_) fun _ => ?_
  · refine (ih.slice start lo start none false starts lower (Nat.le_refl _) .nil).narrow ?_
    exact fun _ same => by rw [same, colon]; decide
  refine .read (ih.expr _ _) fun first hi le lies => ?_
  refine .kind fun kind _ => .ite (fun colon => ?_) fun _ => .pure (lies.sink lower)
  refine (ih.slice start lo hi (some first) true starts lower le (.cons lies .nil)).narrow ?_
  exact fun _ same => by rw [same, colon]; decide

/-- A slice covers its bounds and its step. -/
theorem slice_fits (ih : Framing all fuel) (start bound lo : Nat) (lower : Option Expr)
    (begun : Bool) (starts : ∃ token ∈ all, token.span.start = start) (le : bound ≤ start)
    (ordered : start ≤ lo) (lie : AllLie all start lo lower.toList) :
    Fits all Real begun lo (readSlice (fuel + 1) start lower) true
      fun e hi => e.Lies all bound hi := by
  rw [readSlice]
  refine .advance (fun _ real => real) fun colon _ _ after wide => ?_
  have beyond := after.trans wide
  refine .bind (ih.slicePart _) fun upper middle further second => ?_
  have ends : ∀ {At : TokenKind → Prop} (step : Option Expr) (hi : Nat), middle ≤ hi →
      AllLie all middle hi step.toList →
      Fits all At true hi (do return Expr.slice (← spanFrom start) lower upper step) true
        fun e hi => e.Lies all bound hi := by
    intro At step hi behind third
    have early := beyond.trans further
    refine .close starts le (ordered.trans (early.trans behind)) (fun _ => rfl) ?_
    refine .append (.append ?_ ?_) ?_
    · exact lie.raise (early.trans behind)
    · exact second.widen (ordered.trans beyond) behind
    · exact third.sink (ordered.trans early)
  refine .ifEaten (by decide) (fun hi behind => ?_) ?_
  · refine .bind (ih.slicePart _) fun step hi' behind' third => ?_
    exact ends step hi' (behind.trans behind') (third.sink behind)
  · exact .known (ends none middle (Nat.le_refl _) .nil)

/-- A part of a slice lies where its tokens are, if it is there. -/
theorem slicePart_fits (ih : Framing all fuel) :
    FitsExprs all true Option.toList (readSlicePart (fuel + 1)) := by
  intro lo
  rw [readSlicePart]
  refine .kind fun _ _ => .ite (fun _ => .pure .nil) fun _ => ?_
  exact .read (ih.expr _ _) fun part hi _ lies => .pure (.cons lies .nil)

/-- Further items of a subscript lie one behind the other. -/
theorem sliceItems_fits (ih : Framing all fuel) :
    FitsExprs all true id (readSliceItems (fuel + 1)) := by
  intro lo
  rw [readSliceItems]
  refine .ifEaten (by decide) (fun middle le => ?_) (.pure .nil)
  refine .kind fun _ _ => .ite (fun _ => .pure .nil) fun _ => ?_
  refine .read (ih.sliceItem _) fun item hi further lies => ?_
  exact expr_item_fits (le.trans further) (lies.sink le) ih.sliceItems

/-- What parameters hold lies one behind the other. -/
theorem parameters_fits (ih : Framing all fuel) (closing : TokenKind) (usual : ParameterKind)
    (begun : Bool) :
    FitsExprs all begun (·.flatMap Parameter.expressions)
      (readParameters (fuel + 1) closing usual) := by
  intro lo
  have named : ∀ {start : Nat} {own usual : ParameterKind} {At : TokenKind → Prop} {middle : Nat},
      lo ≤ middle → Fits all At true middle (readParameter fuel closing start own usual) begun
        fun found hi => AllLie all lo hi (found.flatMap Parameter.expressions) :=
    fun le => (ih.parameter _ _ _ _ true).goesOn le
  -- A mark behind which there may be a comma and further parameters.
  have marked : ∀ {usual : ParameterKind} {At : TokenKind → Prop} {middle : Nat}, lo ≤ middle →
      Fits all At true middle (do
        if ← eat .comma then readParameters fuel closing usual else return []) begun
      fun found hi => AllLie all lo hi (found.flatMap Parameter.expressions) := by
    refine fun le => .ifEaten (by decide) (fun _ further => ?_) (.loosen (.pure .nil))
    exact (ih.parameters _ _ true).goesOn (le.trans further)
  rw [readParameters]
  refine .kind fun _ _ => .ite (fun _ => .pure .nil) fun _ => .someOffset fun start => ?_
  refine .ifEaten (by decide) (fun _ le => marked le) (.ifEaten (by decide) (fun _ le => ?_)
    (.ifEaten (by decide) (fun _ le => named le) (ih.parameter _ _ _ _ begun lo)))
  exact .kind fun _ _ => .ite (fun _ => named le) fun _ => marked le

/-- The annotation of a parameter lies before its default. -/
theorem parameter_fits (ih : Framing all fuel) (closing : TokenKind) (start : Nat)
    (own usual : ParameterKind) (begun : Bool) :
    FitsExprs all begun (·.flatMap Parameter.expressions)
      (readParameter (fuel + 1) closing start own usual) := by
  intro lo
  rw [readParameter]
  refine .expectOr (by decide) fun name _ after wide => ?_
  have ends : ∀ {At : TokenKind → Prop} {hi : Nat} ( annotation : Option Expr), lo ≤ hi →
      AllLie all lo hi annotation.toList → Fits all At true hi (do
        let default ← readOptional fuel .assignment
        let parameter := ⟨name.value, annotation, default, own, ← spanFrom start⟩
        if ← eat .comma then
          let others ← readParameters fuel closing usual
          return parameter :: others
        else
          return [parameter]) begun
      fun found hi => AllLie all lo hi (found.flatMap Parameter.expressions) := by
    intro At hi annotation le typed
    refine .bind (ih.optional _ (by decide) true _).anywhere fun default hi' further given => ?_
    refine .someSpan fun span => ?_
    have inside : AllLie all lo hi'
        (Parameter.expressions ⟨name.value, annotation, default, own, span⟩) :=
      (typed.raise further).append (given.sink le)
    refine .ifEaten (by decide) (fun _ beyond => ?_) (.loosen (.pure (inside.append .nil)))
    exact (item_fits (le.trans (further.trans beyond)) (inside.raise beyond)
      (ih.parameters _ _ true)).loosen
  have le := after.trans wide
  refine .ite (fun _ => ?_) fun _ => .known (ends none le .nil)
  refine .bind (ih.optional _ (by decide) true _) fun annotation hi further typed => ?_
  exact ends annotation (le.trans further) (typed.sink le)

/-- What follows a mark lies behind it. -/
theorem optional_fits (ih : Framing all fuel) {mark : TokenKind} (real : mark ≠ .eof)
    (begun : Bool) : FitsExprs all begun Option.toList (readOptional (fuel + 1) mark) := by
  intro lo
  rw [readOptional]
  refine .ifEaten real (fun middle le => ?_) (.pure .nil)
  exact .read (ih.expr _ _) fun value hi further lies => .loosen (.pure (.cons (lies.sink le) .nil))

theorem framing_zero : Framing all 0 where
  expr _ _ := .exhausted rfl
  joins _ _ _ _ _ := .exhausted rfl
  opening _ _ := .exhausted rfl
  joining _ _ _ _ _ _ := .exhausted rfl
  tuple _ _ := .exhausted rfl
  tupleRest _ _ := .exhausted rfl
  clauses _ := .exhausted rfl
  conditions _ := .exhausted rfl
  elements _ _ := .exhausted rfl
  group _ := .exhausted rfl
  list _ := .exhausted rfl
  curly _ := .exhausted rfl
  dict _ _ _ _ _ _ _ _ := .exhausted rfl
  entry _ := .exhausted rfl
  entries _ := .exhausted rfl
  arguments _ := .exhausted rfl
  argument _ := .exhausted rfl
  moreArguments _ := .exhausted rfl
  sliceItem _ := .exhausted rfl
  slice _ _ _ _ _ _ _ _ _ := .exhausted rfl
  slicePart _ := .exhausted rfl
  sliceItems _ := .exhausted rfl
  parameters _ _ _ _ := .exhausted rfl
  parameter _ _ _ _ _ _ := .exhausted rfl
  optional _ _ _ _ := .exhausted rfl

/-- **The nodes that readers give are framed by the tokens that they go past.** -/
theorem framing (all : List Token) (fuel : Nat) : Framing all fuel := by
  induction fuel with
  | zero => exact framing_zero
  | succ fuel ih =>
      exact {
        expr := expr_fits ih
        joins := joins_fits ih
        opening := opening_fits ih
        joining := joining_fits ih
        tuple := tuple_fits ih
        tupleRest := tupleRest_fits ih
        clauses := clauses_fits ih
        conditions := conditions_fits ih
        elements := elements_fits ih
        group := group_fits ih
        list := list_fits ih
        curly := curly_fits ih
        dict := dict_fits ih
        entry := entry_fits ih
        entries := entries_fits ih
        arguments := arguments_fits ih
        argument := argument_fits ih
        moreArguments := moreArguments_fits ih
        sliceItem := sliceItem_fits ih
        slice := slice_fits ih
        slicePart := slicePart_fits ih
        sliceItems := sliceItems_fits ih
        parameters := parameters_fits ih
        parameter := parameter_fits ih
        optional := fun _ real => optional_fits ih real }

end Grammar

end DocSketch
