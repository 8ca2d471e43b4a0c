import DocSketch.Grammar.Expr

/-!
# What readers keep

Readers move a cursor by going past tokens, one after the other.  So what holds of a
cursor, and still holds of the cursor behind its current token, holds after every reader
that succeeds; and what is read comes from tokens that the cursor passes.

* `Parse.Guards`: a property of cursors that moving keeps, and what it says about names.
* `Parse.Keeps`: a reader keeps a property, and its results have another one.
* `Grammar.readExpr_keeps`: this for expressions.
* `Grammar.readParameters_keeps`: the names of parameters are words.
-/

namespace DocSketch

namespace Parse

/-- A property of cursors that moving keeps; where it holds, identifiers are words. -/
structure Guards (Valid : Cursor → Prop) (Word : String → Prop) : Prop where
  advance : ∀ cursor, Valid cursor → Valid cursor.advance
  word : ∀ cursor, Valid cursor → cursor.kind = .identifier → Word cursor.current.value

/-- A reader that succeeds keeps a property of the cursor, and gives a good result. -/
def Keeps {α : Type} (Valid : Cursor → Prop) (Good : α → Prop) (reader : Parse α) : Prop :=
  ∀ cursor value next, Valid cursor → reader cursor = .ok value next → Valid next ∧ Good value

/-- Any result is good. -/
abbrev Any {α : Type} (_ : α) : Prop := True

variable {α β : Type} {Valid : Cursor → Prop} {Word : String → Prop} {Good : α → Prop}
  {Fine : β → Prop}

namespace Keeps

theorem pure {value : α} (good : Good value) : Keeps Valid Good (pure value : Parse α) := by
  intro cursor result next valid read
  cases read
  exact ⟨valid, good⟩

/-- One reader after the other, where the second one knows the first result. -/
theorem bind {first : Parse α} {others : α → Parse β} (head : Keeps Valid Good first)
    (tail : ∀ value, Good value → Keeps Valid Fine (others value)) :
    Keeps Valid Fine (first >>= others) := by
  intro cursor result next valid read
  change EStateM.bind first others cursor = _ at read
  unfold EStateM.bind at read
  cases step : first cursor with
  | ok value middle =>
      rw [step] at read
      obtain ⟨still, good⟩ := head cursor value middle valid step
      exact tail value good middle result next still read
  | error fault middle =>
      rw [step] at read
      exact nomatch read

/-- One reader after the other, whatever the first result. -/
theorem andThen {first : Parse α} {others : α → Parse β} (head : Keeps Valid Any first)
    (tail : ∀ value, Keeps Valid Fine (others value)) : Keeps Valid Fine (first >>= others) :=
  head.bind fun value _ => tail value

theorem mono {reader : Parse α} {Weak : α → Prop} (keeps : Keeps Valid Good reader)
    (weaker : ∀ value, Good value → Weak value) : Keeps Valid Weak reader := by
  intro cursor value next valid read
  obtain ⟨still, good⟩ := keeps cursor value next valid read
  exact ⟨still, weaker value good⟩

/-- Nothing needs to be known of the result. -/
theorem forget {reader : Parse α} (keeps : Keeps Valid Good reader) : Keeps Valid Any reader :=
  keeps.mono fun _ _ => trivial

/-- Both branches of a decision keep the property. -/
theorem ite {condition : Prop} [Decidable condition] {first second : Parse α}
    (yes : Keeps Valid Good first) (no : Keeps Valid Good second) :
    Keeps Valid Good (if condition then first else second) := by
  split
  · exact yes
  · exact no

theorem get : Keeps Valid Any (get : Parse Cursor) := by
  intro cursor value next valid read
  cases read
  exact ⟨valid, trivial⟩

theorem throw (fault : Fault) : Keeps Valid Good (throw fault : Parse α) := by
  intro cursor value next valid read
  exact nomatch read

theorem current : Keeps Valid Any current := .andThen .get fun _ => .pure trivial

theorem kind : Keeps Valid Any kind := .andThen .get fun _ => .pure trivial

theorem offset : Keeps Valid Any offset := .andThen .get fun _ => .pure trivial

theorem spanFrom (start : Nat) : Keeps Valid Any (spanFrom start) :=
  .andThen .get fun _ => .pure trivial

theorem atExpression : Keeps Valid Any atExpression := .andThen .get fun _ => .pure trivial

/-- The same for a failure at some place. -/
theorem failAt (cause : Cause) (offset : Nat) :
    Keeps Valid Good (failAt cause offset : Parse α) :=
  .andThen .get fun _ => .throw _

/-- The same for a failure at the current token. -/
theorem failHere (message : String) : Keeps Valid Good (failHere message : Parse α) :=
  .andThen .current fun _ => .failAt _ _

/-- The same for a reader without steps. -/
theorem giveUp : Keeps Valid Good (giveUp : Parse α) :=
  .andThen .current fun _ => .failAt _ _

end Keeps

section Moving

variable (guards : Guards Valid Word)

include guards

/-- Going past a token keeps the property. -/
theorem advance_keeps : Keeps Valid Any advance := by
  intro cursor token next valid read
  cases read
  exact ⟨guards.advance cursor valid, trivial⟩

/-- An identifier that is asked for is a word. -/
theorem expectOr_keeps (expected : TokenKind) (message : String) :
    Keeps Valid (fun token => expected = .identifier → Word token.value)
      (expectOr expected message) := by
  intro cursor token next valid read
  by_cases here : cursor.kind = expected
  · have moved : advance cursor = .ok token next := by
      rw [← read]
      change _ = (if cursor.kind = expected then advance else failHere message) cursor
      rw [if_pos here]
    cases moved
    exact ⟨guards.advance cursor valid, fun named => guards.word cursor valid (here.trans named)⟩
  · have failed : (failHere message : Parse Token) cursor = .ok token next := by
      rw [← read]
      change _ = (if cursor.kind = expected then advance else failHere message) cursor
      rw [if_neg here]
    exact nomatch failed

/-- Asking for a token keeps the property. -/
theorem expect_keeps (expected : TokenKind) : Keeps Valid Any (expect expected) :=
  (expectOr_keeps guards expected _).forget

/-- Looking for a token keeps the property, found or not. -/
theorem eat_keeps (expected : TokenKind) : Keeps Valid Any (eat expected) :=
  .andThen .kind fun _ => .ite (.andThen (advance_keeps guards) fun _ => .pure trivial)
    (.pure trivial)

/-- Going past several tokens is going past them one after the other. -/
theorem Guards.passing (file : String) (isBare : Bool) (stop : Token) (passes : Token → Bool) :
    ∀ (rest : List Token) (previous : Token), Valid ⟨file, isBare, previous, rest, stop⟩ →
      Valid ⟨file, isBare, (rest.takeWhile passes).getLastD previous, rest.dropWhile passes, stop⟩
  | [], _, valid => valid
  | token :: tokens, previous, valid => by
      by_cases passed : passes token
      · have moved := guards.advance ⟨file, isBare, previous, token :: tokens, stop⟩ valid
        have behind := Guards.passing file isBare stop passes tokens token moved
        rw [List.takeWhile_cons_of_pos passed, List.dropWhile_cons_of_pos passed,
          List.getLastD_cons]
        exact behind
      · rw [List.takeWhile_cons_of_neg passed, List.dropWhile_cons_of_neg passed]
        exact valid

/-- Taking all tokens of a kind keeps the property. -/
theorem takeAll_keeps (expected : TokenKind) : Keeps Valid Any (takeAll expected) := by
  intro cursor texts next valid read
  cases read
  exact ⟨guards.passing cursor.file cursor.isBare cursor.stop _ cursor.rest cursor.previous valid,
    trivial⟩

end Moving

end Parse

namespace Grammar

open Parse

variable {Valid : Cursor → Prop} {Word : String → Prop}

theorem atClause_keeps : Keeps Valid Any atClause := .andThen .get fun _ => .pure trivial

/-- A number is one token. -/
theorem readNumber_keeps (guards : Guards Valid Word) : Keeps Valid Any readNumber :=
  .andThen (advance_keeps guards) fun _ => .ite (.failAt _ _) (.pure trivial)

/-- A string is one token or several in a row. -/
theorem readString_keeps (guards : Guards Valid Word) : Keeps Valid Any readString :=
  .andThen (advance_keeps guards) fun _ => .andThen (takeAll_keeps guards _) fun _ =>
    .andThen (.spanFrom _) fun _ => .pure trivial

mutual

/-- An expression keeps what its start and what it goes on with keep. -/
theorem readExpr_keeps (guards : Guards Valid Word) :
    ∀ (fuel : Nat) (level : Power), Keeps Valid Any (readExpr fuel level)
  | 0, _ => .giveUp
  | fuel + 1, level => by
      rw [readExpr]
      refine .andThen .get fun cursor => ?_
      split
      · exact .failHere _
      · exact .andThen (readOpening_keeps guards fuel _) fun _ =>
          readJoins_keeps guards fuel level _

/-- What goes on from operands keeps the property, as often as it does. -/
theorem readJoins_keeps (guards : Guards Valid Word) : ∀ (fuel : Nat) (level : Power) (left : Expr),
    Keeps Valid Any (readJoins fuel level left)
  | 0, _, _ => .giveUp
  | fuel + 1, level, left => by
      rw [readJoins]
      refine .andThen .get fun cursor => ?_
      split
      · exact .pure trivial
      · split
        · exact .pure trivial
        · exact .andThen (readJoining_keeps guards fuel _ _ left) fun _ =>
            readJoins_keeps guards fuel level _

/-- Every start of an expression keeps the property. -/
theorem readOpening_keeps (guards : Guards Valid Word) :
    ∀ (fuel : Nat) (form : Opening), Keeps Valid Any (readOpening fuel form)
  | 0, _ => .giveUp
  | fuel + 1, form => by
      cases form with
      | number => exact readNumber_keeps guards
      | string => exact readString_keeps guards
      | identifier | constant =>
          rw [readOpening]
          exact .andThen (advance_keeps guards) fun _ => .pure trivial
      | unary | star =>
          rw [readOpening]
          exact .andThen (advance_keeps guards) fun _ =>
            .andThen (readExpr_keeps guards fuel _) fun _ => .pure trivial
      | group => exact readGroup_keeps guards fuel
      | list => exact readListDisplay_keeps guards fuel
      | curly => exact readCurly_keeps guards fuel
      | lambda =>
          rw [readOpening]
          refine .andThen (advance_keeps guards) fun _ => ?_
          refine .andThen (readParameters_keeps guards fuel _ _).forget fun _ => ?_
          refine .andThen (expect_keeps guards _) fun _ => ?_
          exact .andThen (readExpr_keeps guards fuel _) fun _ => .pure trivial
      | yield =>
          rw [readOpening]
          refine .andThen (advance_keeps guards) fun _ => ?_
          refine .andThen (eat_keeps guards _) fun _ => .ite ?_ ?_
          · exact .andThen (readExpr_keeps guards fuel _) fun _ => .andThen (.spanFrom _) fun _ =>
              .pure trivial
          · refine .andThen .atExpression fun _ => .ite ?_ ?_
            · exact .andThen (readTuple_keeps guards fuel _) fun _ =>
                .andThen (.spanFrom _) fun _ => .pure trivial
            · exact .andThen (.spanFrom _) fun _ => .pure trivial

/-- Every way to go on from an operand keeps the property. -/
theorem readJoining_keeps (guards : Guards Valid Word) :
    ∀ (fuel : Nat) (form : Joining) (level : Power) (left : Expr),
      Keeps Valid Any (readJoining fuel form level left)
  | 0, _, _, _ => .giveUp
  | fuel + 1, form, level, left => by
      cases form with
      | binary right =>
          rw [readJoining]
          exact .andThen (advance_keeps guards) fun _ =>
            .andThen (readExpr_keeps guards fuel _) fun _ => .pure trivial
      | identity =>
          rw [readJoining]
          refine .andThen (advance_keeps guards) fun _ => .andThen (eat_keeps guards _) fun _ => ?_
          exact .andThen (readExpr_keeps guards fuel _) fun _ => .pure trivial
      | exclusion =>
          rw [readJoining]
          refine .andThen (advance_keeps guards) fun _ => ?_
          refine .andThen (expectOr_keeps guards _ _).forget fun _ => ?_
          exact .andThen (readExpr_keeps guards fuel _) fun _ => .pure trivial
      | ternary =>
          rw [readJoining]
          refine .andThen (advance_keeps guards) fun _ => ?_
          refine .andThen (readExpr_keeps guards fuel _) fun _ => ?_
          refine .andThen (expect_keeps guards _) fun _ => ?_
          exact .andThen (readExpr_keeps guards fuel _) fun _ => .pure trivial
      | call =>
          rw [readJoining]
          refine .andThen (advance_keeps guards) fun _ => ?_
          refine .andThen (readArguments_keeps guards fuel) fun _ => ?_
          exact .andThen (.spanFrom _) fun _ => .pure trivial
      | subscript =>
          have closes : ∀ index, Keeps Valid Any (do
              let _ ← expect .closeBracket
              return Expr.subscript (← spanFrom left.span.start) left index) := fun index =>
            .andThen (expect_keeps guards _) fun _ => .andThen (.spanFrom _) fun _ => .pure trivial
          rw [readJoining]
          refine .andThen (advance_keeps guards) fun _ => .andThen .offset fun _ => ?_
          refine .andThen (readSliceItem_keeps guards fuel) fun _ => ?_
          refine .andThen .kind fun _ => .ite ?_ ?_
          · refine .andThen (readSliceItems_keeps guards fuel) fun _ => ?_
            refine .andThen (.spanFrom _) fun _ => ?_
            exact .andThen (.pure trivial) closes
          · exact .andThen (.pure trivial) closes
      | member =>
          rw [readJoining]
          refine .andThen (advance_keeps guards) fun _ => ?_
          exact .andThen (expectOr_keeps guards _ _).forget fun _ => .pure trivial

/-- A tuple without parentheses keeps the property. -/
theorem readTuple_keeps (guards : Guards Valid Word) :
    ∀ (fuel : Nat) (level : Power), Keeps Valid Any (readTuple fuel level)
  | 0, _ => .giveUp
  | fuel + 1, level => by
      rw [readTuple]
      refine .andThen (readExpr_keeps guards fuel level) fun _ => .andThen .kind fun _ => .ite ?_ ?_
      · exact .andThen (readTupleRest_keeps guards fuel level) fun _ =>
          .andThen (.spanFrom _) fun _ => .pure trivial
      · exact .pure trivial

/-- Each further element of a tuple keeps the property. -/
theorem readTupleRest_keeps (guards : Guards Valid Word) : ∀ (fuel : Nat) (level : Power),
    Keeps Valid Any (readTupleRest fuel level)
  | 0, _ => .giveUp
  | fuel + 1, level => by
      rw [readTupleRest]
      refine .andThen (eat_keeps guards _) fun _ => .ite ?_ (.pure trivial)
      refine .andThen .atExpression fun _ => .ite ?_ (.pure trivial)
      refine .andThen (readExpr_keeps guards fuel level) fun _ => ?_
      exact .andThen (readTupleRest_keeps guards fuel level) fun _ => .pure trivial

/-- Each clause of a comprehension keeps the property. -/
theorem readClauses_keeps (guards : Guards Valid Word) :
    ∀ fuel : Nat, Keeps Valid Any (readClauses fuel)
  | 0 => .giveUp
  | fuel + 1 => by
      rw [readClauses]
      refine .andThen atClause_keeps fun _ => .ite ?_ (.pure trivial)
      refine .andThen (eat_keeps guards _) fun _ => .andThen (expect_keeps guards _) fun _ => ?_
      refine .andThen (readTuple_keeps guards fuel _) fun _ => ?_
      refine .andThen (expect_keeps guards _) fun _ => ?_
      refine .andThen (readExpr_keeps guards fuel _) fun _ => ?_
      refine .andThen (readConditions_keeps guards fuel) fun _ => ?_
      exact .andThen (readClauses_keeps guards fuel) fun _ => .pure trivial

/-- Each condition of a clause keeps the property. -/
theorem readConditions_keeps (guards : Guards Valid Word) :
    ∀ fuel : Nat, Keeps Valid Any (readConditions fuel)
  | 0 => .giveUp
  | fuel + 1 => by
      rw [readConditions]
      refine .andThen (eat_keeps guards _) fun _ => .ite ?_ (.pure trivial)
      refine .andThen (readExpr_keeps guards fuel _) fun _ => ?_
      exact .andThen (readConditions_keeps guards fuel) fun _ => .pure trivial

/-- Each element of a display keeps the property. -/
theorem readElements_keeps (guards : Guards Valid Word) : ∀ (fuel : Nat) (closing : TokenKind),
    Keeps Valid Any (readElements fuel closing)
  | 0, _ => .giveUp
  | fuel + 1, closing => by
      rw [readElements]
      refine .andThen (eat_keeps guards _) fun _ => .ite ?_ (.pure trivial)
      refine .andThen .kind fun _ => .ite (.pure trivial) ?_
      refine .andThen (readExpr_keeps guards fuel _) fun _ => ?_
      exact .andThen (readElements_keeps guards fuel closing) fun _ => .pure trivial

/-- What stands in parentheses keeps the property, whatever it turns out to be. -/
theorem readGroup_keeps (guards : Guards Valid Word) :
    ∀ fuel : Nat, Keeps Valid Any (readGroup fuel)
  | 0 => .giveUp
  | fuel + 1 => by
      rw [readGroup]
      refine .andThen (advance_keeps guards) fun _ => .andThen (eat_keeps guards _) fun _ => ?_
      refine .ite (.andThen (.spanFrom _) fun _ => .pure trivial) ?_
      refine .andThen (readExpr_keeps guards fuel _) fun _ => ?_
      refine .andThen atClause_keeps fun _ => .ite ?_ ?_
      · refine .andThen (readClauses_keeps guards fuel) fun _ => ?_
        refine .andThen (expect_keeps guards _) fun _ => ?_
        exact .andThen (.spanFrom _) fun _ => .pure trivial
      · refine .andThen .kind fun _ => .ite ?_ ?_
        · refine .andThen (readElements_keeps guards fuel _) fun _ => ?_
          exact .andThen (expect_keeps guards _) fun _ => .andThen (.spanFrom _) fun _ =>
            .pure trivial
        · exact .andThen (expect_keeps guards _) fun _ => .pure trivial

/-- A list keeps the property, comprehension or not. -/
theorem readListDisplay_keeps (guards : Guards Valid Word) :
    ∀ fuel : Nat, Keeps Valid Any (readListDisplay fuel)
  | 0 => .giveUp
  | fuel + 1 => by
      rw [readListDisplay]
      refine .andThen (advance_keeps guards) fun _ => .andThen (eat_keeps guards _) fun _ => ?_
      refine .ite (.andThen (.spanFrom _) fun _ => .pure trivial) ?_
      refine .andThen (readExpr_keeps guards fuel _) fun _ => ?_
      refine .andThen atClause_keeps fun _ => .ite ?_ ?_
      · refine .andThen (readClauses_keeps guards fuel) fun _ => ?_
        refine .andThen (expect_keeps guards _) fun _ => ?_
        exact .andThen (.spanFrom _) fun _ => .pure trivial
      · refine .andThen (readElements_keeps guards fuel _) fun _ => ?_
        exact .andThen (expect_keeps guards _) fun _ => .andThen (.spanFrom _) fun _ =>
          .pure trivial

/-- A set or a mapping keeps the property, comprehension or not. -/
theorem readCurly_keeps (guards : Guards Valid Word) :
    ∀ fuel : Nat, Keeps Valid Any (readCurly fuel)
  | 0 => .giveUp
  | fuel + 1 => by
      rw [readCurly]
      refine .andThen (advance_keeps guards) fun _ => .andThen (eat_keeps guards _) fun _ => ?_
      refine .ite (.andThen (.spanFrom _) fun _ => .pure trivial) ?_
      refine .andThen .kind fun _ => .ite ?_ ?_
      · exact .andThen (readEntry_keeps guards fuel) fun _ => readDict_keeps guards fuel _ _
      · refine .andThen (readExpr_keeps guards fuel _) fun _ => ?_
        refine .andThen (eat_keeps guards _) fun _ =>
          .ite ?_ ?_
        · refine .andThen (readExpr_keeps guards fuel _) fun _ => .andThen atClause_keeps fun _ =>
            .ite ?_ (readDict_keeps guards fuel _ _)
          refine .andThen (readClauses_keeps guards fuel) fun _ => ?_
          exact .andThen (expect_keeps guards _) fun _ => .andThen (.spanFrom _) fun _ =>
            .pure trivial
        · refine .andThen atClause_keeps fun _ => .ite ?_ ?_
          · refine .andThen (readClauses_keeps guards fuel) fun _ => ?_
            exact .andThen (expect_keeps guards _) fun _ => .andThen (.spanFrom _) fun _ =>
              .pure trivial
          · refine .andThen (readElements_keeps guards fuel _) fun _ => ?_
            exact .andThen (expect_keeps guards _) fun _ => .andThen (.spanFrom _) fun _ =>
              .pure trivial

/-- The entries behind the first one keep the property. -/
theorem readDict_keeps (guards : Guards Valid Word) : ∀ (fuel start : Nat) (first : Entry Expr),
    Keeps Valid Any (readDict fuel start first)
  | 0, _, _ => .giveUp
  | fuel + 1, start, first => by
      rw [readDict]
      refine .andThen (readEntries_keeps guards fuel) fun _ => ?_
      refine .andThen (expect_keeps guards _) fun _ => ?_
      exact .andThen (.spanFrom _) fun _ => .pure trivial

/-- An entry keeps the property, unpacked or with a key. -/
theorem readEntry_keeps (guards : Guards Valid Word) :
    ∀ fuel : Nat, Keeps Valid Any (readEntry fuel)
  | 0 => .giveUp
  | fuel + 1 => by
      rw [readEntry]
      refine .andThen (eat_keeps guards _) fun _ => .ite ?_ ?_
      · exact .andThen (readExpr_keeps guards fuel _) fun _ => .pure trivial
      · refine .andThen (readExpr_keeps guards fuel _) fun _ => ?_
        refine .andThen (expect_keeps guards _) fun _ => ?_
        exact .andThen (readExpr_keeps guards fuel _) fun _ => .pure trivial

/-- Each further entry keeps the property. -/
theorem readEntries_keeps (guards : Guards Valid Word) :
    ∀ fuel : Nat, Keeps Valid Any (readEntries fuel)
  | 0 => .giveUp
  | fuel + 1 => by
      rw [readEntries]
      refine .andThen (eat_keeps guards _) fun _ => .ite ?_ (.pure trivial)
      refine .andThen .kind fun _ => .ite (.pure trivial) ?_
      refine .andThen (readEntry_keeps guards fuel) fun _ => ?_
      exact .andThen (readEntries_keeps guards fuel) fun _ => .pure trivial

/-- Each form of argument keeps the property. -/
theorem readArguments_keeps (guards : Guards Valid Word) :
    ∀ fuel : Nat, Keeps Valid Any (readArguments fuel)
  | 0 => .giveUp
  | fuel + 1 => by
      rw [readArguments]
      refine .andThen .get fun _ => .ite ?_ (.ite ?_ (.ite ?_ ?_))
      · exact .andThen (advance_keeps guards) fun _ => .pure trivial
      · refine .andThen (advance_keeps guards) fun _ => ?_
        refine .andThen (readExpr_keeps guards fuel _) fun _ => ?_
        exact .andThen (readMoreArguments_keeps guards fuel) fun _ => .pure trivial
      · refine .andThen (advance_keeps guards) fun _ => .andThen (advance_keeps guards) fun _ => ?_
        refine .andThen (readExpr_keeps guards fuel _) fun _ => ?_
        exact .andThen (readMoreArguments_keeps guards fuel) fun _ => .pure trivial
      · refine .andThen (readArgument_keeps guards fuel) fun _ => ?_
        exact .andThen (readMoreArguments_keeps guards fuel) fun _ => .pure trivial

/-- An argument may be a generator. -/
theorem readArgument_keeps (guards : Guards Valid Word) :
    ∀ fuel : Nat, Keeps Valid Any (readArgument fuel)
  | 0 => .giveUp
  | fuel + 1 => by
      rw [readArgument]
      refine .andThen (readExpr_keeps guards fuel _) fun _ => .andThen atClause_keeps fun _ =>
        .ite ?_ (.pure trivial)
      exact .andThen (readClauses_keeps guards fuel) fun _ => .andThen (.spanFrom _) fun _ =>
        .pure trivial

/-- Arguments go on behind a comma or end. -/
theorem readMoreArguments_keeps (guards : Guards Valid Word) :
    ∀ fuel : Nat, Keeps Valid Any (readMoreArguments fuel)
  | 0 => .giveUp
  | fuel + 1 => by
      rw [readMoreArguments]
      refine .andThen (eat_keeps guards _) fun _ => .ite (readArguments_keeps guards fuel) ?_
      exact .andThen (expect_keeps guards _) fun _ => .pure trivial

/-- An item of a subscript may be a slice. -/
theorem readSliceItem_keeps (guards : Guards Valid Word) :
    ∀ fuel : Nat, Keeps Valid Any (readSliceItem fuel)
  | 0 => .giveUp
  | fuel + 1 => by
      rw [readSliceItem]
      refine .andThen .offset fun _ => .andThen .kind fun _ =>
        .ite (readSlice_keeps guards fuel _ _) ?_
      refine .andThen (readExpr_keeps guards fuel _) fun _ => .andThen .kind fun _ => ?_
      exact .ite (readSlice_keeps guards fuel _ _) (.pure trivial)

/-- A slice keeps the property from its first colon on. -/
theorem readSlice_keeps (guards : Guards Valid Word) : ∀ (fuel start : Nat) (lower : Option Expr),
    Keeps Valid Any (readSlice fuel start lower)
  | 0, _, _ => .giveUp
  | fuel + 1, start, lower => by
      rw [readSlice]
      refine .andThen (advance_keeps guards) fun _ => ?_
      refine .andThen (readSlicePart_keeps guards fuel) fun _ => ?_
      refine .andThen (eat_keeps guards _) fun _ => .ite ?_ ?_
      · exact .andThen (readSlicePart_keeps guards fuel) fun _ => .andThen (.spanFrom _) fun _ =>
          .pure trivial
      · exact .andThen (.pure trivial) fun _ => .andThen (.spanFrom _) fun _ => .pure trivial

/-- A part of a slice may be missing. -/
theorem readSlicePart_keeps (guards : Guards Valid Word) :
    ∀ fuel : Nat, Keeps Valid Any (readSlicePart fuel)
  | 0 => .giveUp
  | fuel + 1 => by
      rw [readSlicePart]
      refine .andThen .kind fun _ => .ite (.pure trivial) ?_
      exact .andThen (readExpr_keeps guards fuel _) fun _ => .pure trivial

/-- Each further item of a subscript keeps the property. -/
theorem readSliceItems_keeps (guards : Guards Valid Word) :
    ∀ fuel : Nat, Keeps Valid Any (readSliceItems fuel)
  | 0 => .giveUp
  | fuel + 1 => by
      rw [readSliceItems]
      refine .andThen (eat_keeps guards _) fun _ => .ite ?_ (.pure trivial)
      refine .andThen .kind fun _ => .ite (.pure trivial) ?_
      refine .andThen (readSliceItem_keeps guards fuel) fun _ => ?_
      exact .andThen (readSliceItems_keeps guards fuel) fun _ => .pure trivial

/-- The names of parameters are words. -/
theorem readParameters_keeps (guards : Guards Valid Word) :
    ∀ (fuel : Nat) (closing : TokenKind) (usual : ParameterKind),
      Keeps Valid (fun parameters => ∀ parameter ∈ parameters, Word parameter.name)
      (readParameters fuel closing usual)
  | 0, _, _ => .giveUp
  | fuel + 1, closing, usual => by
      rw [readParameters]
      refine .andThen .kind fun _ => .ite (.pure nofun) ?_
      refine .andThen .offset fun _ => .andThen (eat_keeps guards _) fun _ => .ite ?_ ?_
      · exact .andThen (eat_keeps guards _) fun _ =>
          .ite (readParameters_keeps guards fuel closing usual) (.pure nofun)
      · refine .andThen (eat_keeps guards _) fun _ => .ite ?_ ?_
        · refine .andThen .kind fun _ => .ite (readParameter_keeps guards fuel closing _ _ _) ?_
          exact .andThen (eat_keeps guards _) fun _ =>
            .ite (readParameters_keeps guards fuel closing _) (.pure nofun)
        · exact .andThen (eat_keeps guards _) fun _ =>
            .ite (readParameter_keeps guards fuel closing _ _ _)
              (readParameter_keeps guards fuel closing _ _ _)

/-- The name of a parameter is a word, and so are those behind it. -/
theorem readParameter_keeps (guards : Guards Valid Word) :
    ∀ (fuel : Nat) (closing : TokenKind) (start : Nat)
    (own usual : ParameterKind),
    Keeps Valid (fun parameters => ∀ parameter ∈ parameters, Word parameter.name)
      (readParameter fuel closing start own usual)
  | 0, _, _, _, _ => .giveUp
  | fuel + 1, closing, start, own, usual => by
      rw [readParameter]
      refine (expectOr_keeps guards _ _).bind fun name word => ?_
      have named : Word name.value := word rfl
      have goesOn : ∀ annotation, Keeps Valid
          (fun parameters => ∀ parameter ∈ parameters, Word parameter.name) (do
            let default ← readOptional fuel .assignment
            let parameter : Parameter Expr :=
              ⟨name.value, annotation, default, own, ← spanFrom start⟩
            if ← eat .comma then
              let others ← readParameters fuel closing usual
              return parameter :: others
            else
              return [parameter]) := by
        intro annotation
        refine .andThen (readOptional_keeps guards fuel _) fun _ => ?_
        refine .andThen (.spanFrom _) fun _ => ?_
        refine .andThen (eat_keeps guards _) fun _ => .ite ?_ ?_
        · refine (readParameters_keeps guards fuel closing usual).bind fun others words => ?_
          exact .pure (List.forall_mem_cons.mpr ⟨named, words⟩)
        · exact .pure (List.forall_mem_cons.mpr ⟨named, nofun⟩)
      refine .ite ?_ ?_
      · exact .andThen (readOptional_keeps guards fuel _) goesOn
      · exact .andThen (.pure trivial) goesOn

/-- What follows a mark may be missing. -/
theorem readOptional_keeps (guards : Guards Valid Word) : ∀ (fuel : Nat) (mark : TokenKind),
    Keeps Valid Any (readOptional fuel mark)
  | 0, _ => .giveUp
  | fuel + 1, mark => by
      rw [readOptional]
      refine .andThen (eat_keeps guards _) fun _ => .ite ?_ (.pure trivial)
      exact .andThen (readExpr_keeps guards fuel _) fun _ => .pure trivial

end

end Grammar

end DocSketch
