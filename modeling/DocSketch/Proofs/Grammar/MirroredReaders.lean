import DocSketch.Proofs.Grammar.Mirroring

/-!
# Expressions are read alike

At cursors before tokens that are spelled alike every reader of expressions gives the same
expression, up to places, also with a larger bound on how deeply the readers call each other.

* `Grammar.Mirrored`: this for each reader.
* `Grammar.mirrored`: for all bounds.
-/

namespace DocSketch

open DocSketch.Expr

/-- An entry of a mapping without its places. -/
def Entry.unspanned (entry : Entry Expr) : Entry Expr :=
  ⟨unspannedOption entry.key, entry.value.unspanned⟩

/-- Arguments of a call without their places. -/
def unspannedArguments (found : List Expr × List (Keyword Expr)) :
    List Expr × List (Keyword Expr) :=
  (unspannedAll found.1, unspannedKeywords found.2)

namespace Grammar

open Parse

theorem unspannedEntries_cons (entry : Entry Expr) (others : List (Entry Expr)) :
    unspannedEntries (entry :: others) = entry.unspanned :: unspannedEntries others := rfl

/-- No part of a slice ends before layout. -/
theorem endsSlicePart_of_isIdle (kind : TokenKind) (idle : kind.isIdle = true) :
    endsSlicePart kind = false := by
  cases kind <;> first | rfl | cases idle

/-- Operations are alike if their operands and operators are. -/
theorem binary_unspanned {span span' : Span} {left left' right right' : Expr}
    {operator operator' : Token} (begins : left.unspanned = left'.unspanned)
    (same : operator.spelling = operator'.spelling) (ends : right.unspanned = right'.unspanned) :
    (binary span left operator right).unspanned =
      (binary span' left' operator' right').unspanned := by
  simp only [unspanned, begins, Token.unspanned_eq same, ends]

/-- Tokens of one spelling are the same up to their places. -/
theorem respelled {token token' : Token} (same : token.spelling = token'.spelling)
    {value : String} :
    { token with value := value }.spelling = { token' with value := value }.spelling :=
  congrArg (·.1, value) same

/-- Each reader of expressions with the bound `fuel` beside itself with the bound `more`. -/
structure Mirrored (R : Cursor → Cursor → Prop) (fuel more : Nat) : Prop where
  expr : ∀ level, Mirrors R R unspanned (readExpr fuel level) (readExpr more level)
  joins : ∀ level (left left' : Expr), left.unspanned = left'.unspanned →
    Mirrors R R unspanned (readJoins fuel level left) (readJoins more level left')
  opening : ∀ form, Mirrors (Midway R) R unspanned (readOpening fuel form) (readOpening more form)
  joining : ∀ form own (left left' : Expr), left.unspanned = left'.unspanned →
    Mirrors (Midway R) R unspanned (readJoining fuel form own left)
      (readJoining more form own left')
  tuple : ∀ level, Mirrors R R unspanned (readTuple fuel level) (readTuple more level)
  tupleRest : ∀ level,
    Mirrors R R unspannedAll (readTupleRest fuel level) (readTupleRest more level)
  clauses : Mirrors R R unspannedClauses (readClauses fuel) (readClauses more)
  conditions : Mirrors R R unspannedAll (readConditions fuel) (readConditions more)
  elements : ∀ closing : TokenKind, closing.isIdle = false →
    Mirrors R R unspannedAll (readElements fuel closing) (readElements more closing)
  group : Mirrors (Midway R) R unspanned (readGroup fuel) (readGroup more)
  list : Mirrors (Midway R) R unspanned (readListDisplay fuel) (readListDisplay more)
  curly : Mirrors (Midway R) R unspanned (readCurly fuel) (readCurly more)
  dict : ∀ start start' (first first' : Entry Expr), first.unspanned = first'.unspanned →
    Mirrors R R unspanned (readDict fuel start first) (readDict more start' first')
  entry : Mirrors R R Entry.unspanned (readEntry fuel) (readEntry more)
  entries : Mirrors R R unspannedEntries (readEntries fuel) (readEntries more)
  arguments : Mirrors R R unspannedArguments (readArguments fuel) (readArguments more)
  argument : Mirrors R R unspanned (readArgument fuel) (readArgument more)
  moreArguments :
    Mirrors R R unspannedArguments (readMoreArguments fuel) (readMoreArguments more)
  sliceItem : Mirrors R R unspanned (readSliceItem fuel) (readSliceItem more)
  slice : ∀ start start' (lower lower' : Option Expr),
    unspannedOption lower = unspannedOption lower' →
      Mirrors (Midway R) R unspanned (readSlice fuel start lower) (readSlice more start' lower')
  slicePart : Mirrors R R unspannedOption (readSlicePart fuel) (readSlicePart more)
  sliceItems : Mirrors R R unspannedAll (readSliceItems fuel) (readSliceItems more)
  parameters : ∀ (closing : TokenKind) usual, closing.isIdle = false →
    Mirrors R R unspannedParameters (readParameters fuel closing usual)
      (readParameters more closing usual)
  parameter : ∀ (closing : TokenKind) start start' own usual, closing.isIdle = false →
    Mirrors R R unspannedParameters (readParameter fuel closing start own usual)
      (readParameter more closing start' own usual)
  optional : ∀ mark : TokenKind, mark.isIdle = false →
    Mirrors R R unspannedOption (readOptional fuel mark) (readOptional more mark)

section Readers

variable {R : Cursor → Cursor → Prop} {fuel more : Nat} (mirroring : Mirroring R)

include mirroring

/-- Numbers are read alike. -/
theorem readNumber_mirrors : Mirrors (Midway R) R unspanned readNumber readNumber := by
  refine .bind (.advance mirroring) fun token token' same => ?_
  obtain ⟨-, value⟩ := Prod.mk.inj same
  rw [value]
  exact .ite Iff.rfl (fun _ => .failAt _ _) fun _ => .pure rfl

/-- Strings are read alike. -/
theorem readString_mirrors : Mirrors (Midway R) R unspanned readString readString := by
  refine .bind (.advance mirroring) fun token token' same => ?_
  obtain ⟨-, value⟩ := Prod.mk.inj same
  rw [value]
  refine .bind (.takeAll (mirroring.crosses rfl) (by decide) mirroring.sound) ?_
  rintro others - rfl
  exact .spanFrom fun _ _ => .pure rfl

variable (ih : Mirrored R fuel more)

include ih

/-- Expressions of a level are read alike. -/
theorem expr_mirrors (level : Power) :
    Mirrors R R unspanned (readExpr (fuel + 1) level) (readExpr (more + 1) level) := by
  rw [readExpr, readExpr]
  refine .get fun cursor cursor' related => ?_
  have same := mirroring.opening?_eq related
  cases opens : cursor.opening? with
  | none => exact .failHere _
  | some form =>
      have real := (mirroring.sound related).1.real_of_opening opens
      rw [opens] at same
      rw [← same]
      refine .bind ((ih.opening form).here real) ?_
      exact fun left left' alike => ih.joins level left left' alike

/-- Operands that are alike are joined to what follows alike. -/
theorem joins_mirrors (level : Power) (left left' : Expr)
    (alike : left.unspanned = left'.unspanned) : Mirrors R R unspanned
      (readJoins (fuel + 1) level left) (readJoins (more + 1) level left') := by
  rw [readJoins, readJoins]
  refine .get fun cursor cursor' related => ?_
  have same := mirroring.joining?_eq related
  cases joins : cursor.joining? with
  | none =>
      rw [joins] at same
      rw [← same]
      exact (Mirrors.pure alike).facing
  | some entry =>
      have real := (mirroring.sound related).1.real_of_joining joins
      rw [joins] at same
      rw [← same]
      refine .ite Iff.rfl (fun _ => (Mirrors.pure alike).facing) fun _ => ?_
      have reads := ih.joining entry.2 entry.1 left left' alike
      refine .bind (reads.here real) ?_
      exact fun joined joined' alike => ih.joins level joined joined' alike

/-- Whatever an expression starts with is read alike. -/
theorem opening_mirrors (form : Opening) : Mirrors (Midway R) R unspanned
    (readOpening (fuel + 1) form) (readOpening (more + 1) form) := by
  cases form with
  | number => exact readNumber_mirrors mirroring
  | string => exact readString_mirrors mirroring
  | identifier =>
      rw [readOpening, readOpening]
      refine .bind (.advance mirroring) fun token token' same => .pure ?_
      simp only [unspanned, (Prod.mk.inj same).2]
  | constant value =>
      rw [readOpening, readOpening]
      exact .bind (.advance mirroring) fun token token' same => .pure rfl
  | unary level =>
      rw [readOpening, readOpening]
      refine .bind (.advance mirroring) fun token token' same => ?_
      refine .bind (ih.expr _) fun operand operand' alike => .pure ?_
      simp only [unspanned, Token.unspanned_eq same, alike]
  | star =>
      rw [readOpening, readOpening]
      refine .bind (.advance mirroring) fun token token' same => ?_
      refine .bind (ih.expr _) fun value value' alike => .pure ?_
      simp only [unspanned, (Prod.mk.inj same).1, alike]
  | group => exact ih.group
  | list => exact ih.list
  | curly => exact ih.curly
  | lambda =>
      rw [readOpening, readOpening]
      refine .bind (.advance mirroring) fun _ _ _ => ?_
      refine .bind (ih.parameters _ _ rfl) fun parameters parameters' declared => ?_
      refine .bind (.expect (mirroring.crosses rfl)) fun _ _ _ => ?_
      refine .bind (ih.expr _) fun body body' alike => .pure ?_
      simp only [unspanned, declared, alike]
  | yield =>
      rw [readOpening, readOpening]
      refine .bind (.advance mirroring) fun _ _ _ => .ifEaten (mirroring.crosses rfl) ?_ ?_
      · refine .bind (ih.expr _) fun value value' alike => .spanFrom fun _ _ => .pure ?_
        simp only [unspanned, unspannedOption, alike]
      · refine Mirrors.facing (.ifExpression mirroring ?_ (.spanFrom fun _ _ => .pure rfl))
        refine .bind (ih.tuple _) fun value value' alike => .spanFrom fun _ _ => .pure ?_
        simp only [unspanned, unspannedOption, alike]

/-- Whatever goes on from an operand is read alike. -/
theorem joining_mirrors (form : Joining) (own : Power) (left left' : Expr)
    (alike : left.unspanned = left'.unspanned) : Mirrors (Midway R) R unspanned
      (readJoining (fuel + 1) form own left) (readJoining (more + 1) form own left') := by
  cases form <;> rw [readJoining, readJoining]
  case binary right =>
    refine .bind (.advance mirroring) fun operator operator' same => ?_
    refine .bind (ih.expr _) fun operand operand' alike' => .pure ?_
    exact binary_unspanned alike same alike'
  case identity =>
    refine .bind (.advance mirroring) fun operator operator' same => ?_
    refine .bind (.eats mirroring rfl) ?_
    rintro negated - rfl
    refine .bind (ih.expr _) fun operand operand' alike' => .pure ?_
    cases negated with
    | false => exact binary_unspanned alike same alike'
    | true => exact binary_unspanned alike (respelled same) alike'
  case exclusion =>
    refine .bind (.advance mirroring) fun _ _ _ => ?_
    refine .bind (.expectOr (mirroring.crosses rfl) _) fun operator operator' same => ?_
    refine .bind (ih.expr _) fun operand operand' alike' => .pure ?_
    exact binary_unspanned alike (respelled same) alike'
  case ternary =>
    refine .bind (.advance mirroring) fun _ _ _ => .bind (ih.expr _) fun test test' asked => ?_
    refine .bind (.expect (mirroring.crosses rfl)) fun _ _ _ => ?_
    refine .bind (ih.expr _) fun orelse orelse' other => .pure ?_
    simp only [unspanned, alike, asked, other]
  case call =>
    refine .bind (.advance mirroring) fun _ _ _ => ?_
    refine .bind ih.arguments fun found found' given => .spanFrom fun _ _ => .pure ?_
    obtain ⟨arguments, keywords⟩ := Prod.mk.inj given
    simp only [unspanned, alike, arguments, keywords]
  case subscript =>
    have closes : ∀ index index' : Expr, index.unspanned = index'.unspanned →
        Mirrors R R unspanned
          (do
            let _ ← expect .closeBracket
            return Expr.subscript (← spanFrom left.span.start) left index)
          (do
            let _ ← expect .closeBracket
            return Expr.subscript (← spanFrom left'.span.start) left' index') := by
      intro index index' same
      refine .bind (.expect (mirroring.crosses rfl)) fun _ _ _ => .spanFrom fun _ _ => .pure ?_
      simp only [unspanned, alike, same]
    refine .bind (.advance mirroring) fun _ _ _ => .offset fun _ _ => ?_
    refine .bind ih.sliceItem fun first first' begins => ?_
    refine .ifKind (mirroring.crosses rfl) ?_ ?_
    · refine Mirrors.facing (.bind ih.sliceItems fun others others' alikes => ?_)
      refine .spanFrom fun _ _ => .supply (closes _ _ ?_)
      simp only [unspanned, unspannedAll, begins, alikes]
    · exact Mirrors.facing (.supply (closes _ _ begins))
  case member =>
    refine .bind (.advance mirroring) fun _ _ _ => ?_
    refine .bind (.expectOr (mirroring.crosses rfl) _) fun property property' same => .pure ?_
    simp only [unspanned, alike, (Prod.mk.inj same).2]

/-- Tuples without parentheses are read alike. -/
theorem tuple_mirrors (level : Power) : Mirrors R R unspanned
    (readTuple (fuel + 1) level) (readTuple (more + 1) level) := by
  rw [readTuple, readTuple]
  refine .bind (ih.expr _) fun first first' alike => .ifKind (mirroring.crosses rfl) ?_ ?_
  · refine Mirrors.facing (.bind (ih.tupleRest _) fun others others' alikes => ?_)
    refine .spanFrom fun _ _ => .pure ?_
    simp only [unspanned, unspannedAll, alike, alikes]
  · exact (Mirrors.pure alike).facing

/-- Further elements of a tuple are read alike. -/
theorem tupleRest_mirrors (level : Power) : Mirrors R R unspannedAll
    (readTupleRest (fuel + 1) level) (readTupleRest (more + 1) level) := by
  rw [readTupleRest, readTupleRest]
  refine .ifEaten (mirroring.crosses rfl) (.ifExpression mirroring ?_ (.pure rfl)) ?_
  · refine .bind (ih.expr _) fun element element' alike => ?_
    refine .bind (ih.tupleRest _) fun others others' alikes => .pure ?_
    simp only [unspannedAll, alike, alikes]
  · exact (Mirrors.pure rfl).facing

/-- The clauses of a comprehension are read alike. -/
theorem clauses_mirrors :
    Mirrors R R unspannedClauses (readClauses (fuel + 1)) (readClauses (more + 1)) := by
  rw [readClauses, readClauses]
  refine .ifClause mirroring ?_ (.pure rfl)
  refine .bind (.eats mirroring rfl) fun isAsync isAsync' same => ?_
  refine .bind (.expect (mirroring.crosses rfl)) fun _ _ _ => ?_
  refine .bind (ih.tuple _) fun target target' aimed => ?_
  refine .bind (.expect (mirroring.crosses rfl)) fun _ _ _ => ?_
  refine .bind (ih.expr _) fun iter iter' alike => ?_
  refine .bind ih.conditions fun conditions conditions' asked => ?_
  refine .bind ih.clauses fun others others' alikes => .pure ?_
  simp only [unspannedClauses, aimed, alike, asked, alikes, show isAsync = isAsync' from same]

/-- The conditions of a clause are read alike. -/
theorem conditions_mirrors :
    Mirrors R R unspannedAll (readConditions (fuel + 1)) (readConditions (more + 1)) := by
  rw [readConditions, readConditions]
  refine .ifEaten (mirroring.crosses rfl) ?_ (Mirrors.pure rfl).facing
  refine .bind (ih.expr _) fun condition condition' alike => ?_
  refine .bind ih.conditions fun others others' alikes => .pure ?_
  simp only [unspannedAll, alike, alikes]

/-- The elements of a display are read alike. -/
theorem elements_mirrors (closing : TokenKind) (real : closing.isIdle = false) :
    Mirrors R R unspannedAll (readElements (fuel + 1) closing)
      (readElements (more + 1) closing) := by
  rw [readElements, readElements]
  refine .ifEaten (mirroring.crosses rfl) ?_ (Mirrors.pure rfl).facing
  refine .ifKind (mirroring.crosses real) (Mirrors.pure rfl).facing (Mirrors.facing ?_)
  refine .bind (ih.expr _) fun element element' alike => ?_
  refine .bind (ih.elements closing real) fun others others' alikes => .pure ?_
  simp only [unspannedAll, alike, alikes]

/-- The rest of a comprehension from its clauses on. -/
theorem clauses_closed_mirrors {closing : TokenKind} (real : closing.isIdle = false)
    {start start' : Nat} {kind : ComprehensionKind} {element element' : Expr}
    {value value' : Option Expr} (alike : element.unspanned = element'.unspanned)
    (paired : unspannedOption value = unspannedOption value') :
    Mirrors R R unspanned
      (do
        let clauses ← readClauses fuel
        let _ ← expect closing
        return .comprehension (← spanFrom start) kind element value clauses)
      (do
        let clauses ← readClauses more
        let _ ← expect closing
        return .comprehension (← spanFrom start') kind element' value' clauses) := by
  refine .bind ih.clauses fun clauses clauses' alikes => ?_
  refine .bind (.expect (mirroring.crosses real)) fun _ _ _ => .spanFrom fun _ _ => .pure ?_
  simp only [unspanned, alike, paired, alikes]

/-- The rest of a display from its second element on. -/
theorem elements_closed_mirrors {closing : TokenKind} (real : closing.isIdle = false)
    {start start' : Nat} {kind : SequenceKind} {first first' : Expr}
    (alike : first.unspanned = first'.unspanned) :
    Mirrors R R unspanned
      (do
        let others ← readElements fuel closing
        let _ ← expect closing
        return .sequence (← spanFrom start) kind (first :: others))
      (do
        let others ← readElements more closing
        let _ ← expect closing
        return .sequence (← spanFrom start') kind (first' :: others)) := by
  refine .bind (ih.elements _ real) fun others others' alikes => ?_
  refine .bind (.expect (mirroring.crosses real)) fun _ _ _ => .spanFrom fun _ _ => .pure ?_
  simp only [unspanned, unspannedAll, alike, alikes]

/-- What stands in parentheses is read alike. -/
theorem group_mirrors :
    Mirrors (Midway R) R unspanned (readGroup (fuel + 1)) (readGroup (more + 1)) := by
  rw [readGroup, readGroup]
  refine .bind (.advance mirroring) fun _ _ _ => ?_
  refine .ifEaten (mirroring.crosses rfl) (.spanFrom fun _ _ => .pure rfl) (Mirrors.facing ?_)
  refine .bind (ih.expr _) fun first first' alike => .ifClause mirroring ?_ ?_
  · exact clauses_closed_mirrors mirroring ih rfl alike rfl
  refine .ifKind (mirroring.crosses rfl) ?_ ?_
  · exact (elements_closed_mirrors mirroring ih rfl alike).facing
  · refine Mirrors.facing (.bind (.expect (mirroring.crosses rfl)) fun _ _ _ => ?_)
    exact .pure alike

/-- Lists are read alike. -/
theorem list_mirrors : Mirrors (Midway R) R unspanned
    (readListDisplay (fuel + 1)) (readListDisplay (more + 1)) := by
  rw [readListDisplay, readListDisplay]
  refine .bind (.advance mirroring) fun _ _ _ => ?_
  refine .ifEaten (mirroring.crosses rfl) (.spanFrom fun _ _ => .pure rfl) (Mirrors.facing ?_)
  refine .bind (ih.expr _) fun first first' alike => .ifClause mirroring ?_ ?_
  · exact clauses_closed_mirrors mirroring ih rfl alike rfl
  · exact elements_closed_mirrors mirroring ih rfl alike

/-- Sets and mappings are read alike. -/
theorem curly_mirrors :
    Mirrors (Midway R) R unspanned (readCurly (fuel + 1)) (readCurly (more + 1)) := by
  rw [readCurly, readCurly]
  refine .bind (.advance mirroring) fun _ _ _ => ?_
  refine .ifEaten (mirroring.crosses rfl) (.spanFrom fun _ _ => .pure rfl) (Mirrors.facing ?_)
  refine .ifKind (mirroring.crosses rfl) ?_ (Mirrors.facing ?_)
  · exact Mirrors.facing (.bind ih.entry fun first first' alike => ih.dict _ _ _ _ alike)
  refine .bind (ih.expr _) fun first first' alike => .ifEaten (mirroring.crosses rfl) ?_ ?_
  · refine .bind (ih.expr _) fun value value' paired => .ifClause mirroring ?_ ?_
    · refine clauses_closed_mirrors mirroring ih rfl alike ?_
      exact congrArg some paired
    · refine ih.dict _ _ _ _ ?_
      simp only [Entry.unspanned, unspannedOption, alike, paired]
  · refine Mirrors.facing (.ifClause mirroring ?_ ?_)
    · exact clauses_closed_mirrors mirroring ih rfl alike rfl
    · exact elements_closed_mirrors mirroring ih rfl alike

/-- Mappings are read alike from their first entries on. -/
theorem dict_mirrors (start start' : Nat) (first first' : Entry Expr)
    (alike : first.unspanned = first'.unspanned) : Mirrors R R unspanned
      (readDict (fuel + 1) start first) (readDict (more + 1) start' first') := by
  rw [readDict, readDict]
  refine .bind ih.entries fun others others' alikes => ?_
  refine .bind (.expect (mirroring.crosses rfl)) fun _ _ _ => .spanFrom fun _ _ => .pure ?_
  simp only [unspanned, unspannedEntries_cons, alike, alikes]

/-- Entries of mappings are read alike. -/
theorem entry_mirrors :
    Mirrors R R Entry.unspanned (readEntry (fuel + 1)) (readEntry (more + 1)) := by
  rw [readEntry, readEntry]
  refine .ifEaten (mirroring.crosses rfl) ?_ (Mirrors.facing ?_)
  · refine .bind (ih.expr _) fun value value' alike => .pure ?_
    simp only [Entry.unspanned, unspannedOption, alike]
  · refine .bind (ih.expr _) fun key key' named => ?_
    refine .bind (.expect (mirroring.crosses rfl)) fun _ _ _ => ?_
    refine .bind (ih.expr _) fun value value' alike => .pure ?_
    simp only [Entry.unspanned, unspannedOption, named, alike]

/-- Further entries are read alike. -/
theorem entries_mirrors :
    Mirrors R R unspannedEntries (readEntries (fuel + 1)) (readEntries (more + 1)) := by
  rw [readEntries, readEntries]
  refine .ifEaten (mirroring.crosses rfl) ?_ (Mirrors.pure rfl).facing
  refine .ifKind (mirroring.crosses rfl) (Mirrors.pure rfl).facing (Mirrors.facing ?_)
  refine .bind ih.entry fun entry entry' alike => ?_
  refine .bind ih.entries fun others others' alikes => .pure ?_
  simp only [unspannedEntries_cons, alike, alikes]

/-- Arguments are read alike, generators included. -/
theorem argument_mirrors :
    Mirrors R R unspanned (readArgument (fuel + 1)) (readArgument (more + 1)) := by
  rw [readArgument, readArgument]
  refine .bind (ih.expr _) fun argument argument' alike => .ifClause mirroring ?_ (.pure alike)
  refine .bind ih.clauses fun clauses clauses' alikes => .spanFrom fun _ _ => .pure ?_
  simp only [unspanned, alike, alikes]

/-- Further arguments are read alike. -/
theorem moreArguments_mirrors : Mirrors R R unspannedArguments
    (readMoreArguments (fuel + 1)) (readMoreArguments (more + 1)) := by
  rw [readMoreArguments, readMoreArguments]
  refine .ifEaten (mirroring.crosses rfl) ih.arguments (Mirrors.facing ?_)
  exact .bind (.expect (mirroring.crosses rfl)) fun _ _ _ => .pure rfl

/-- Items of subscripts are read alike. -/
theorem sliceItem_mirrors :
    Mirrors R R unspanned (readSliceItem (fuel + 1)) (readSliceItem (more + 1)) := by
  rw [readSliceItem, readSliceItem]
  refine .offset fun _ _ => .ifKind (mirroring.crosses rfl) ?_ (Mirrors.facing ?_)
  · exact (ih.slice _ _ _ _ rfl).before rfl
  refine .bind (ih.expr _) fun lower lower' alike => .ifKind (mirroring.crosses rfl) ?_ ?_
  · refine (ih.slice _ _ _ _ ?_).before rfl
    exact congrArg some alike
  · exact (Mirrors.pure alike).facing

/-- Slices are read alike from their first colons on. -/
theorem slice_mirrors (start start' : Nat) (lower lower' : Option Expr)
    (alike : unspannedOption lower = unspannedOption lower') : Mirrors (Midway R) R unspanned
      (readSlice (fuel + 1) start lower) (readSlice (more + 1) start' lower') := by
  rw [readSlice, readSlice]
  refine .bind (.advance mirroring) fun _ _ _ => ?_
  refine .bind ih.slicePart fun upper upper' above => .ifEaten (mirroring.crosses rfl) ?_ ?_
  · refine .bind ih.slicePart fun step step' stepped => .spanFrom fun _ _ => .pure ?_
    simp only [unspanned, alike, above, stepped]
  · refine Mirrors.facing (.supply (.spanFrom fun _ _ => .pure ?_))
    simp only [unspanned, alike, above]

/-- Parts of slices are read alike or missing together. -/
theorem slicePart_mirrors :
    Mirrors R R unspannedOption (readSlicePart (fuel + 1)) (readSlicePart (more + 1)) := by
  rw [readSlicePart, readSlicePart]
  refine .kind fun cursor cursor' related => ?_
  rw [mirroring.test_eq related endsSlicePart_of_isIdle]
  refine .ite Iff.rfl (fun _ => (Mirrors.pure rfl).facing) fun _ => Mirrors.facing ?_
  exact .bind (ih.expr _) fun part part' alike => .pure (congrArg some alike)

/-- Further items of subscripts are read alike. -/
theorem sliceItems_mirrors :
    Mirrors R R unspannedAll (readSliceItems (fuel + 1)) (readSliceItems (more + 1)) := by
  rw [readSliceItems, readSliceItems]
  refine .ifEaten (mirroring.crosses rfl) ?_ (Mirrors.pure rfl).facing
  refine .ifKind (mirroring.crosses rfl) (Mirrors.pure rfl).facing (Mirrors.facing ?_)
  refine .bind ih.sliceItem fun item item' alike => ?_
  refine .bind ih.sliceItems fun others others' alikes => .pure ?_
  simp only [unspannedAll, alike, alikes]

/-- What follows a mark is read alike or missing together. -/
theorem optional_mirrors (mark : TokenKind) (real : mark.isIdle = false) :
    Mirrors R R unspannedOption (readOptional (fuel + 1) mark) (readOptional (more + 1) mark) := by
  rw [readOptional, readOptional]
  refine .ifEaten (mirroring.crosses real) ?_ (Mirrors.pure rfl).facing
  exact .bind (ih.expr _) fun value value' alike => .pure (congrArg some alike)

/-- The arguments of a call are read alike. -/
theorem arguments_mirrors :
    Mirrors R R unspannedArguments (readArguments (fuel + 1)) (readArguments (more + 1)) := by
  have named : ∀ name, Mirrors R R unspannedArguments
      (do
        let value ← readExpr fuel .default
        let others ← readMoreArguments fuel
        return (others.1, (⟨name, value⟩ : Keyword Expr) :: others.2))
      (do
        let value ← readExpr more .default
        let others ← readMoreArguments more
        return (others.1, (⟨name, value⟩ : Keyword Expr) :: others.2)) := by
    intro name
    refine .bind (ih.expr _) fun value value' alike => ?_
    refine .bind ih.moreArguments fun others others' alikes => .pure ?_
    obtain ⟨arguments, keywords⟩ := Prod.mk.inj alikes
    simp only [unspannedArguments, unspannedKeywords, alike, arguments, keywords]
  rw [readArguments, readArguments]
  refine .get fun cursor cursor' related => ?_
  refine .ite (mirroring.kind_iff related rfl) (fun closes => ?_) fun _ =>
    .ite (mirroring.kind_iff related rfl) (fun doubled => ?_) fun _ =>
      .ite (mirroring.pair_iff related rfl rfl) (fun given => ?_) fun _ => Mirrors.facing ?_
  · have real : cursor.kind.isIdle = false := by rw [closes]; rfl
    exact .bind ((Mirrors.advance mirroring).here real) fun _ _ _ => .pure rfl
  · have real : cursor.kind.isIdle = false := by rw [doubled]; rfl
    exact .bind ((Mirrors.advance mirroring).here real) fun _ _ _ => named none
  · have real : cursor.kind.isIdle = false := by rw [given.1]; rfl
    have behind := (mirroring.sound related).1.peek_one (TokenKind.ne_of_isIdle rfl real).symm
    have real' : cursor.advance.kind.isIdle = false := by rw [← behind, given.2]; rfl
    refine .bind (.advanceToward mirroring real real') fun name name' same => ?_
    rw [(Prod.mk.inj same).2]
    exact .bind (.advance mirroring) fun _ _ _ => named _
  · refine .bind ih.argument fun argument argument' alike => ?_
    refine .bind ih.moreArguments fun others others' alikes => .pure ?_
    obtain ⟨arguments, keywords⟩ := Prod.mk.inj alikes
    simp only [unspannedArguments, unspannedAll, alike, arguments, keywords]

/-- Parameters are read alike. -/
theorem parameters_mirrors (closing : TokenKind) (usual : ParameterKind)
    (real : closing.isIdle = false) : Mirrors R R unspannedParameters
      (readParameters (fuel + 1) closing usual) (readParameters (more + 1) closing usual) := by
  rw [readParameters, readParameters]
  refine .ifKind (mirroring.crosses real) (Mirrors.pure rfl).facing (Mirrors.facing ?_)
  refine .offset fun _ _ => .ifEaten (mirroring.crosses rfl) ?_ (Mirrors.facing ?_)
  · exact .ifEaten (mirroring.crosses rfl) (ih.parameters _ _ real) (Mirrors.pure rfl).facing
  refine .ifEaten (mirroring.crosses rfl) ?_ (Mirrors.facing ?_)
  · refine .ifKind (mirroring.crosses rfl) (ih.parameter _ _ _ _ _ real).facing (Mirrors.facing ?_)
    exact .ifEaten (mirroring.crosses rfl) (ih.parameters _ _ real) (Mirrors.pure rfl).facing
  · exact .ifEaten (mirroring.crosses rfl) (ih.parameter _ _ _ _ _ real)
      (ih.parameter _ _ _ _ _ real).facing

/-- A parameter and those behind it are read alike. -/
theorem parameter_mirrors (closing : TokenKind) (start start' : Nat) (own usual : ParameterKind)
    (real : closing.isIdle = false) : Mirrors R R unspannedParameters
      (readParameter (fuel + 1) closing start own usual)
      (readParameter (more + 1) closing start' own usual) := by
  rw [readParameter, readParameter]
  refine .bind (.expectOr (mirroring.crosses rfl) _) fun name name' same => ?_
  obtain ⟨-, named⟩ := Prod.mk.inj same
  have rest : ∀ annotation annotation', unspannedOption annotation = unspannedOption annotation' →
      Mirrors R R unspannedParameters
        (do
          let default ← readOptional fuel .assignment
          let parameter := ⟨name.value, annotation, default, own, ← spanFrom start⟩
          if ← eat .comma then
            let others ← readParameters fuel closing usual
            return parameter :: others
          else
            return [parameter])
        (do
          let default ← readOptional more .assignment
          let parameter := ⟨name'.value, annotation', default, own, ← spanFrom start'⟩
          if ← eat .comma then
            let others ← readParameters more closing usual
            return parameter :: others
          else
            return [parameter]) := by
    intro annotation annotation' alike
    refine .bind (ih.optional _ rfl) fun default default' given => .spanFrom fun _ _ => ?_
    refine .ifEaten (mirroring.crosses rfl) ?_ (Mirrors.facing (.pure ?_))
    · refine .bind (ih.parameters _ _ real) fun others others' alikes => .pure ?_
      simp only [unspannedParameters, named, alike, given, alikes]
    · simp only [unspannedParameters, named, alike, given]
  refine .ite Iff.rfl (fun _ => ?_) fun _ => .supply (rest none none rfl)
  exact .bind (ih.optional _ rfl) rest

end Readers

variable {R : Cursor → Cursor → Prop}

theorem mirrored_zero (more : Nat) : Mirrored R 0 more := by
  constructor
  all_goals intros
  all_goals exact .exhausted rfl

/-- Every reader of expressions gives the same, up to places, where tokens are spelled alike. -/
theorem mirrored (mirroring : Mirroring R) (fuel : Nat) :
    ∀ more, fuel ≤ more → Mirrored R fuel more := by
  induction fuel with
  | zero => exact fun more _ => mirrored_zero more
  | succ fuel ih =>
      intro more larger
      obtain ⟨more, rfl⟩ : ∃ less, more = less + 1 := ⟨more - 1, by omega⟩
      have below := ih more (Nat.le_of_succ_le_succ larger)
      exact {
        expr := expr_mirrors mirroring below
        joins := joins_mirrors mirroring below
        opening := opening_mirrors mirroring below
        joining := joining_mirrors mirroring below
        tuple := tuple_mirrors mirroring below
        tupleRest := tupleRest_mirrors mirroring below
        clauses := clauses_mirrors mirroring below
        conditions := conditions_mirrors mirroring below
        elements := elements_mirrors mirroring below
        group := group_mirrors mirroring below
        list := list_mirrors mirroring below
        curly := curly_mirrors mirroring below
        dict := dict_mirrors mirroring below
        entry := entry_mirrors mirroring below
        entries := entries_mirrors mirroring below
        arguments := arguments_mirrors mirroring below
        argument := argument_mirrors mirroring below
        moreArguments := moreArguments_mirrors mirroring below
        sliceItem := sliceItem_mirrors mirroring below
        slice := slice_mirrors mirroring below
        slicePart := slicePart_mirrors mirroring below
        sliceItems := sliceItems_mirrors mirroring below
        parameters := parameters_mirrors mirroring below
        parameter := parameter_mirrors mirroring below
        optional := optional_mirrors mirroring below }

end Grammar

end DocSketch
