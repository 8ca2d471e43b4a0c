import DocSketch.Proofs.Grammar.Statements

/-!
# Names that programs declare

The parameters of the functions of a program are named by its identifiers.

* `Cursor.Worded`: the identifiers ahead of a cursor are words.
* `Program.word_of_declares`: the parameters of a program that was read are named by
  identifiers among its tokens.
-/

namespace DocSketch

/-- The identifiers ahead of a cursor are words. -/
def Cursor.Worded (Word : String → Prop) (cursor : Cursor) : Prop :=
  (∀ token ∈ cursor.rest, token.kind = .identifier → Word token.value) ∧
    cursor.stop.kind ≠ .identifier

/-- Going past tokens leaves identifiers that are words. -/
theorem Cursor.worded_guards (Word : String → Prop) : Parse.Guards (Cursor.Worded Word) Word where
  advance := by
    rintro ⟨file, isBare, previous, rest, stop⟩ ⟨words, closed⟩
    cases rest with
    | nil => exact ⟨words, closed⟩
    | cons token tokens =>
        exact ⟨fun later member => words later (List.mem_cons_of_mem token member), closed⟩
  word := by
    rintro ⟨file, isBare, previous, rest, stop⟩ ⟨words, closed⟩ here
    cases rest with
    | nil => exact absurd here closed
    | cons token tokens => exact words token List.mem_cons_self here

/-- A cursor at the start of tokens whose identifiers are words. -/
theorem Cursor.worded_ofTokens {Word : String → Prop} (file : String) (isBare : Bool)
    {tokens : List Token}
    (words : ∀ token ∈ tokens, token.kind = .identifier → Word token.value) :
    (Cursor.ofTokens file isBare tokens).Worded Word := by
  have missing : (Cursor.missingStop tokens).kind ≠ .identifier := nofun
  unfold Cursor.ofTokens
  split
  case h_1 last _ =>
    split
    case isTrue closed =>
      refine ⟨fun token member => words token (List.dropLast_subset tokens member), fun other => ?_⟩
      exact nomatch closed.symm.trans other
    case isFalse => exact ⟨words, missing⟩
  case h_2 => exact ⟨words, missing⟩

/-- Nothing has to be known of the expressions. -/
theorem Cursor.worded_premises (Word : String → Prop) :
    Grammar.Premises (Cursor.Worded Word) Word Parse.Any where
  toGuards := Cursor.worded_guards Word
  expr := Grammar.readExpr_keeps (Cursor.worded_guards Word)
  tuple := Grammar.readTuple_keeps (Cursor.worded_guards Word)
  optional fuel mark _ :=
    (Grammar.readOptional_keeps (Cursor.worded_guards Word) fuel mark).mono fun _ _ _ _ => trivial
  arguments fuel :=
    (Grammar.readArguments_keeps (Cursor.worded_guards Word) fuel).mono fun _ _ _ _ => trivial
  parameters fuel :=
    (Grammar.readParameters_keeps (Cursor.worded_guards Word) fuel _ _).mono
      fun _ words parameter member => ⟨words parameter member, fun _ _ => trivial⟩

/-- The parameters of a program are named by its identifiers. -/
theorem Program.word_of_declares {file : String} {tokens : List Token} {program : Program}
    (Word : String → Prop) (words : ∀ token ∈ tokens, token.kind = .identifier → Word token.value)
    (parsed : Program.ofTokens file tokens = .ok program) {signature : Signature}
    (declares : program.Declares signature) :
    ∀ parameter ∈ signature.parameters, Word parameter.name := by
  obtain ⟨span, name, body, decorators, isAsync, has⟩ := declares
  have proper := Program.proper_of_hasStmt (Cursor.worded_premises Word)
    (Cursor.worded_ofTokens file false words) parsed has
  exact proper.named signature rfl

end DocSketch
