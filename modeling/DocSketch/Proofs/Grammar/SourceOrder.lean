import DocSketch.Proofs.Grammar.BlockReaders
import DocSketch.Proofs.Source.NodeText
import DocSketch.Proofs.Tree.Ownership

/-!
# Source order

The tokens of a text start one after another, and the statements of a program start with
tokens of their own.  So whatever is marked in the first tokens of each statement has the
order of the statements.

* `Token.scan_starts`: tokens with a text of their own start one after another.
* `Grammar.Laid.marks`: marks in the heads of statements are in the order of their tokens.
* `Source.program_laid`: the tokens of the program of an accepted text.
* `Source.statements_ordered`: its statements start one after another.
-/

namespace DocSketch

namespace Token

open Lexeme Text

/-- Tokens with text are no layout. -/
theorem isLayoutKind_of_kind? {cs chars : List Char} {cls : LexemeClass} {length : Nat}
    {kind : TokenKind} (found : next? cs = some (cls, length))
    (known : cls.kind? chars = some kind) : isLayoutKind kind = false := by
  have leaves := next?_leaves found
  cases cls with
  | skipped | lineBreak => cases known
  | string | number =>
      cases known
      rfl
  | word =>
      cases known
      exact isLayoutKind_wordKind _
  | mark =>
      cases known
      exact leaves

/-- Tokens that can be traced start one after another. -/
theorem Traced.starts_ordered {offset : Nat} {chars : List Char} {tokens : List Token}
    (traced : Traced offset chars tokens) :
    (∀ start ∈ starts tokens, offset ≤ start) ∧ (starts tokens).Pairwise (· < ·) := by
  induction traced with
  | done => exact ⟨List.forall_mem_nil _, .nil⟩
  | layout isLayout _ ih =>
      rw [starts_cons_of_layout isLayout]
      exact ih
  | skip found absent _ ih =>
      exact ⟨fun start member => Nat.le_of_add_right_le (ih.1 start member), ih.2⟩
  | @token offset chars rest cls kind tokens found known _ ih =>
      have wide : 0 < byteLength chars :=
        byteLength_pos (List.ne_nil_of_length_pos (pos_of_next? found))
      have later : ∀ start ∈ starts tokens, offset < start := fun start member =>
        Nat.lt_of_lt_of_le (Nat.lt_add_of_pos_right wide) (ih.1 start member)
      rw [starts_cons_of_visible (isLayoutKind_of_kind? found known)]
      exact ⟨List.forall_mem_cons.mpr ⟨Nat.le_refl _, fun start member => (later start member).le⟩,
        List.pairwise_cons.mpr ⟨later, ih.2⟩⟩

/-- The tokens of a text start one after another. -/
theorem scan_starts {text file : String} {tokens : List Token}
    (scanned : scan text file = .ok tokens) : (starts tokens).Pairwise (· < ·) := by
  obtain ⟨added, rfl, traced⟩ := Layout.scanFrom_traced Layout.initial 0 text.toList scanned
  exact traced.starts_ordered.2

end Token

namespace Grammar

open Token

/-- The statements of a part of a program in source order. -/
def Piece.statements : Piece → List Stmt
  | .stmt own => own.preorder
  | .suites bodies => bodies.flatten.flatMap Stmt.preorder
  | .suite statements => statements.flatMap Stmt.preorder
  | .body statements => statements.flatMap Stmt.preorder

/-- **Source order.**  If the marks of every statement are starts of the tokens at its start, in
their order, then the marks of all statements of a part of a program are in this order. -/
theorem Laid.marks {Value : Expr → List Token → Prop} (mark : Stmt → List Nat)
    (own : ∀ stmt head, Heads Value stmt head → (mark stmt).Sublist (starts head))
    {piece : Piece} {tokens : List Token} (laid : Laid Value piece tokens) :
    (piece.statements.flatMap mark).Sublist (starts tokens) := by
  induction laid with
  | @stmt stmt head tail heads _ ih =>
      rw [Piece.statements, Stmt.preorder_eq, List.flatMap_cons, starts_append,
        stmt.inner_eq_flatten]
      exact (own stmt head heads).append ih
  | nothing | done => exact List.nil_sublist _
  | absent _ ih => exact ih
  | present _ _ _ suite others =>
      -- The words before a body hold no statement.
      rw [Piece.statements, List.flatten_cons, List.flatMap_append, List.flatMap_append,
        starts_append, starts_append]
      exact (suite.append others).trans (List.sublist_append_right _ _)
  | @indented body colon newline indent dedent inner announced broken opened closed _ ih =>
      have split : colon :: newline :: indent :: (inner ++ [dedent]) =
          [colon, newline, indent] ++ (inner ++ [dedent]) := rfl
      rw [split, starts_append, starts_append]
      exact (ih.trans (List.sublist_append_left _ _)).trans (List.sublist_append_right _ _)
  | @inline body colon line announced _ _ ih =>
      rw [← List.singleton_append, starts_append]
      exact ih.trans (List.sublist_append_right _ _)
  | chained _ _ ih =>
      rw [Piece.statements, List.flatMap_cons, List.flatMap_nil, List.append_nil]
      exact ih
  | @blank body newline others broken _ ih =>
      rw [← List.singleton_append, starts_append]
      exact ih.trans (List.sublist_append_right _ _)
  | next _ _ first others =>
      rw [Piece.statements, List.flatMap_cons, List.flatMap_append, starts_append]
      exact first.append others

end Grammar

namespace Source

variable {text file : String} {source : Source}

/-- The program of an accepted text stands for tokens that start one after another. -/
theorem program_laid {Value : Expr → List Token → Prop}
    (values : ∀ tokens, (Token.starts tokens).Pairwise (· < ·) → ∀ fuel level,
      Grammar.Runs tokens (Grammar.readTuple fuel level) fun passed _ e => Value e passed)
    (accepted : read text file = .ok source) :
    ∃ tokens, Grammar.Laid Value (.body source.program.body) tokens ∧
      (Token.starts tokens).Pairwise (· < ·) := by
  obtain ⟨tokens, program, scanned, parsed, rfl⟩ := eq_ofProgram_of_read accepted
  obtain ⟨body, stop, rfl, ends, nested, unended⟩ := Token.scan_nested scanned
  have ordered : (Token.starts body).Pairwise (· < ·) := by
    have all := Token.scan_starts scanned
    rw [Token.starts_append] at all
    exact (List.pairwise_append.mp all).1
  unfold Program.ofTokens at parsed
  split at parsed
  case h_2 => cases parsed
  case h_1 own after ran =>
    cases parsed
    exact ⟨body, (Grammar.program_laid nested unended (values body ordered) ends ran).2, ordered⟩

/-- The statements of an accepted text start one after another. -/
theorem statements_ordered (accepted : read text file = .ok source) :
    (source.program.body.flatMap Stmt.preorder).Pairwise
      fun stmt other => stmt.span.start < other.span.start := by
  have values : ∀ tokens, (Token.starts tokens).Pairwise (· < ·) → ∀ fuel level,
      Grammar.Runs tokens (Grammar.readTuple fuel level) fun _ _ _ => True := by
    intro tokens _ fuel level cursor e after inside ran
    obtain ⟨passed, passes, -⟩ :=
      (Grammar.retraces tokens fuel).tuple level cursor e after inside ran
    exact ⟨passed, passes, trivial⟩
  obtain ⟨tokens, laid, ordered⟩ := program_laid values accepted
  have marked := ordered.sublist (laid.marks (fun stmt => [stmt.span.start])
    fun stmt head heads => List.singleton_sublist.mpr heads.starts)
  rwa [← List.map_eq_flatMap, List.pairwise_map] at marked

end Source

end DocSketch
