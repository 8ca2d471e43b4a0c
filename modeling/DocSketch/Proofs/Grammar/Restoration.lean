import DocSketch.Proofs.Grammar.RetracedArguments
import DocSketch.Proofs.Grammar.Statements

/-!
# All expressions are read again

* `Grammar.retraces`: what any reader of expressions has read is read again from the same
  tokens.
* `Program.restored_of_hasNode`: so the tokens of every node of a program, in parentheses,
  are read as that node.
-/

namespace DocSketch

namespace Grammar

open Parse Token Lexeme

variable {tokens : List Token}

theorem retraces_zero : Retraces tokens 0 where
  expr level cursor e after _ ran := by rw [readExpr] at ran; cases ran
  joins level left start early cursor e after _ _ _ _ ran := by rw [readJoins] at ran; cases ran
  opening form cursor e after _ _ ran := by rw [readOpening] at ran; cases ran
  joining form own left early cursor e after _ _ _ _ ran := by rw [readJoining] at ran; cases ran
  tuple level cursor e after _ ran := by rw [readTuple] at ran; cases ran
  tupleRest level cursor es after _ ran := by rw [readTupleRest] at ran; cases ran
  clauses cursor cs after _ ran := by rw [readClauses] at ran; cases ran
  conditions cursor es after _ ran := by rw [readConditions] at ran; cases ran
  elements closing _ cursor es after _ ran := by rw [readElements] at ran; cases ran
  group cursor e after _ _ ran := by rw [readGroup] at ran; cases ran
  list cursor e after _ _ ran := by rw [readListDisplay] at ran; cases ran
  curly cursor e after _ _ ran := by rw [readCurly] at ran; cases ran
  dict start first cursor e after _ ran := by rw [readDict] at ran; cases ran
  entry cursor entry after _ ran := by rw [readEntry] at ran; cases ran
  entries cursor entries after _ ran := by rw [readEntries] at ran; cases ran
  arguments cursor found after _ ran := by rw [readArguments] at ran; cases ran
  moreArguments cursor found after _ ran := by rw [readMoreArguments] at ran; cases ran
  argument cursor e after _ ran := by rw [readArgument] at ran; cases ran
  sliceItem cursor e after _ ran := by rw [readSliceItem] at ran; cases ran
  slice start lower cursor e after _ _ _ ran := by rw [readSlice] at ran; cases ran
  slicePart cursor part after _ ran := by rw [readSlicePart] at ran; cases ran
  sliceItems cursor es after _ ran := by rw [readSliceItems] at ran; cases ran
  parameters closing usual cursor found after _ ran := by rw [readParameters] at ran; cases ran
  parameter closing start own usual cursor found after _ ran := by
    rw [readParameter] at ran; cases ran
  optional mark _ cursor part after _ ran := by rw [readOptional] at ran; cases ran

/-- What any reader of expressions has read is read again from the same tokens. -/
theorem retraces (tokens : List Token) (fuel : Nat) : Retraces tokens fuel := by
  induction fuel with
  | zero => exact retraces_zero
  | succ fuel ih =>
      exact {
        expr := expr_retrace ih
        joins := joins_retrace ih
        opening := opening_retrace ih
        joining := joining_retrace ih
        tuple := tuple_retrace ih
        tupleRest := tupleRest_retrace ih
        clauses := clauses_retrace ih
        conditions := conditions_retrace ih
        elements := fun _ closes => elements_retrace ih closes
        group := group_retrace ih
        list := list_retrace ih
        curly := curly_retrace ih
        dict := dict_retrace ih
        entry := entry_retrace ih
        entries := entries_retrace ih
        arguments := arguments_retrace ih
        moreArguments := moreArguments_retrace ih
        argument := argument_retrace ih
        sliceItem := sliceItem_retrace ih
        slice := slice_retrace ih
        slicePart := slicePart_retrace ih
        sliceItems := sliceItems_retrace ih
        parameters := parameters_retrace ih
        parameter := parameter_retrace ih
        optional := fun _ plain => optional_retrace ih plain }

/-- Readers keep the cursor in the tokens. -/
theorem Runs.keeps {α : Type} {reader : Parse α} {Post : List Token → TokenKind → α → Prop}
    {Good : α → Prop} (runs : Runs tokens reader Post)
    (good : ∀ passed next value, Post passed next value → Good value) :
    Keeps (Cursor.Within tokens) Good reader := by
  intro cursor value after inside ran
  obtain ⟨passed, passes, holds⟩ := runs cursor value after inside ran
  exact ⟨passes.within inside, good passed _ value holds⟩

/-- A cursor that goes past tokens stays among them. -/
theorem within_guards (tokens : List Token) : Guards (Cursor.Within tokens) Any where
  advance := by
    rintro ⟨file, isBare, previous, rest, stop⟩ inside
    cases rest with
    | nil => exact inside
    | cons token rest =>
        have passes : Cursor.Passes ⟨file, isBare, previous, token :: rest, stop⟩ [token]
            ⟨file, isBare, token, rest, stop⟩ := ⟨rfl, rfl, rfl, rfl⟩
        exact passes.within inside
  word _ _ _ := trivial

/-- The nodes of all expressions that are read in a program are restored. -/
theorem within_premises (tokens : List Token) :
    Premises (Cursor.Within tokens) Any (Sound tokens) where
  toGuards := within_guards tokens
  expr fuel level := ((retraces tokens fuel).expr level).keeps fun _ _ _ taken => taken.sound
  tuple fuel level := ((retraces tokens fuel).tuple level).keeps fun _ _ _ holds => holds.2.2
  optional fuel mark listed := by
    have plain : mark.isPlain = true := by
      simp only [List.mem_cons, List.not_mem_nil, or_false] at listed
      rcases listed with rfl | rfl <;> rfl
    exact ((retraces tokens fuel).optional mark plain).keeps fun _ _ _ holds => holds.2
  arguments fuel := by
    intro cursor found after inside ran
    obtain ⟨inner, closer, passes, -, -, sound, -⟩ :=
      (retraces tokens fuel).arguments cursor found after inside ran
    exact ⟨passes.within inside, sound⟩
  parameters fuel :=
    ((retraces tokens fuel).parameters _ _).keeps fun _ _ _ holds parameter member =>
      ⟨trivial, holds.2 parameter member⟩

end Grammar

namespace Cursor

variable {body : List Token} {stop : Token}

/-- A cursor at the start stands before all tokens but the end token. -/
theorem ofTokens_concat (file : String) (isBare : Bool) (ends : stop.kind = .eof) :
    ofTokens file isBare (body ++ [stop]) = before file isBare body stop := by
  unfold ofTokens
  rw [List.getLast?_concat]
  dsimp only
  rw [if_pos ends, List.dropLast_concat]

/-- Such a cursor stands among these tokens. -/
theorem within_before (file : String) (ends : stop.kind = .eof) :
    (before file false body stop).Within body :=
  ⟨rfl, ends, [], rfl⟩

end Cursor

/-- **The tokens of every node of a program are read as that node again.** -/
theorem Program.restored_of_hasNode {file : String} {body : List Token} {stop : Token}
    {program : Program} (ends : stop.kind = .eof)
    (parsed : Program.ofTokens file (body ++ [stop]) = .ok program) {e : Expr}
    (has : program.HasNode e) : Grammar.Restored body e := by
  have sound : Grammar.Sound body e := by
    induction has with
    | top has member =>
        have valid : (Cursor.ofTokens file false (body ++ [stop])).Within body := by
          rw [Cursor.ofTokens_concat file false ends]
          exact Cursor.within_before file ends
        exact (proper_of_hasStmt (Grammar.within_premises body) valid parsed has).expressions _
          member
    | part has member ih =>
        obtain ⟨-, inside⟩ := ih
        exact inside _ member
  obtain ⟨here, -⟩ := sound
  exact here

end DocSketch
