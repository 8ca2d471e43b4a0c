import DocSketch.Proofs.Token.Nesting
import DocSketch.Proofs.Tree.Nodes

/-!
# The tokens of a program

A statement starts with tokens that open no block, and its bodies follow.  A body is an
indented block, which its own `indent` opens and the matching `dedent` closes, or stands on
the line of the statement.

* `Stmt.suites`: the bodies of a statement.
* `Token.starts`: where the tokens with a text of their own start.
* `Grammar.Laid`: the tokens that a part of a program stands for, block by block.
* `Grammar.Laid.nested`: these close all blocks that they open.
-/

namespace DocSketch

namespace Stmt

/-- The bodies of a statement in source order, those of functions and classes included. -/
def suites : Stmt → List (List Stmt)
  | function _ _ _ body _ _ => [body]
  | classDef _ _ _ _ body _ => [body]
  | stmt => stmt.bodies

/-- What is directly inside a statement are the statements of its bodies. -/
theorem inner_eq_flatten (stmt : Stmt) : stmt.inner = stmt.suites.flatten := by
  cases stmt with
  | function | classDef => exact (List.append_nil _).symm
  | _ => rfl

/-- The value that a statement returns, assigns or only evaluates. -/
def value? : Stmt → Option Expr
  | expression _ value => some value
  | assign _ _ value _ => value
  | augAssign _ _ _ value => some value
  | ret _ value => value
  | _ => none

end Stmt

namespace Token

variable {tokens : List Token}

/-- Where the tokens with a text of their own start. -/
def starts (tokens : List Token) : List Nat :=
  (tokens.filter fun token => !Lexeme.isLayoutKind token.kind).map fun token => token.span.start

theorem starts_append (tokens others : List Token) :
    starts (tokens ++ others) = starts tokens ++ starts others := by
  rw [starts, List.filter_append, List.map_append]
  rfl

/-- Tokens of the layout of lines have no place of their own. -/
theorem starts_cons_of_layout {token : Token} (isLayout : Lexeme.isLayoutKind token.kind = true) :
    starts (token :: tokens) = starts tokens := by
  rw [starts, List.filter_cons_of_neg (by rw [isLayout]; exact Bool.false_ne_true)]
  rfl

/-- A token with text has the place where it starts. -/
theorem starts_cons_of_visible {token : Token}
    (visible : Lexeme.isLayoutKind token.kind = false) :
    starts (token :: tokens) = token.span.start :: starts tokens := by
  rw [starts, List.filter_cons_of_pos (by rw [visible]; rfl)]
  rfl

/-- Tokens with text all have a place. -/
theorem starts_of_visible (visible : ∀ token ∈ tokens, Lexeme.isLayoutKind token.kind = false) :
    starts tokens = tokens.map fun token => token.span.start := by
  have all : (tokens.filter fun token => !Lexeme.isLayoutKind token.kind) = tokens :=
    List.filter_eq_self.mpr fun token member => by rw [visible token member]; rfl
  rw [starts, all]

end Token

namespace Grammar

open Token

/-- The tokens at the start of a statement, and of all of it if it has no bodies: they open no
block, one of them starts where the statement starts, and some of them stand for its value. -/
structure Heads (Value : Expr → List Token → Prop) (stmt : Stmt) (head : List Token) : Prop where
  flat : Flat head
  starts : stmt.span.start ∈ Token.starts head
  value : ∀ e, stmt.value? = some e →
    ∃ front own back, head = front ++ (own ++ back) ∧ Value e own

/-- Parts of a program. -/
inductive Piece where
  | stmt (stmt : Stmt)
  /-- The bodies of a statement, each with the words before its colon. -/
  | suites (bodies : List (List Stmt))
  /-- A body from its colon on. -/
  | suite (body : List Stmt)
  /-- The statements of a body. -/
  | body (body : List Stmt)

/-- A part of a program stands for the given tokens, where `Value` is known of the values of
statements and their tokens. -/
inductive Laid (Value : Expr → List Token → Prop) : Piece → List Token → Prop
  | stmt {stmt : Stmt} {head tail : List Token} (heads : Heads Value stmt head)
      (suites : Laid Value (.suites stmt.suites) tail) : Laid Value (.stmt stmt) (head ++ tail)
  | nothing : Laid Value (.suites []) []
  /-- A clause that is not there. -/
  | absent {bodies : List (List Stmt)} {tail : List Token}
      (others : Laid Value (.suites bodies) tail) : Laid Value (.suites ([] :: bodies)) tail
  | present {body : List Stmt} {bodies : List (List Stmt)} {words own tail : List Token}
      (flat : Flat words) (suite : Laid Value (.suite body) own)
      (others : Laid Value (.suites bodies) tail) :
      Laid Value (.suites (body :: bodies)) (words ++ (own ++ tail))
  /-- A block between its own `indent` and `dedent`. -/
  | indented {body : List Stmt} {colon newline indent dedent : Token} {inner : List Token}
      (announced : colon.kind = .colon) (broken : newline.kind = .newline)
      (opened : indent.kind = .indent) (closed : dedent.kind = .dedent)
      (statements : Laid Value (.body body) inner) :
      Laid Value (.suite body) (colon :: newline :: indent :: (inner ++ [dedent]))
  /-- Statements on the same line. -/
  | inline {body : List Stmt} {colon : Token} {line : List Token}
      (announced : colon.kind = .colon) (unbroken : ∀ token ∈ line.head?, token.kind ≠ .newline)
      (statements : Laid Value (.body body) line) : Laid Value (.suite body) (colon :: line)
  /-- A chained condition, which takes the place of a body. -/
  | chained {stmt : Stmt} {own : List Token}
      (chained : ∀ token ∈ own.head?, token.kind = .elifKw)
      (condition : Laid Value (.stmt stmt) own) : Laid Value (.suite [stmt]) own
  | done : Laid Value (.body []) []
  | blank {body : List Stmt} {newline : Token} {others : List Token}
      (broken : newline.kind = .newline) (statements : Laid Value (.body body) others) :
      Laid Value (.body body) (newline :: others)
  | next {stmt : Stmt} {body : List Stmt} {own others : List Token}
      (first : Laid Value (.stmt stmt) own) (statements : Laid Value (.body body) others) :
      Laid Value (.body (stmt :: body)) (own ++ others)

/-- A part of a program stands for the given tokens. -/
abbrev LaidOut (piece : Piece) (tokens : List Token) : Prop := Laid (fun _ _ => True) piece tokens

namespace Laid

variable {Value : Expr → List Token → Prop} {piece : Piece} {tokens others : List Token}
  {bodies more : List (List Stmt)}

/-- A part of a program closes all blocks that it opens. -/
theorem nested (laid : Laid Value piece tokens) : Nested tokens := by
  induction laid with
  | stmt heads _ ih => exact heads.flat.nested.append ih
  | nothing => exact .nil
  | absent _ ih => exact ih
  | present flat _ _ own tail => exact flat.nested.append (own.append tail)
  | indented announced broken opened closed _ ih =>
      have words : Flat [_, _] :=
        .cons (by rw [announced]; rfl) (.single (by rw [broken]; rfl))
      exact words.nested.append (.block opened closed ih)
  | inline announced _ _ ih => exact (Flat.single (by rw [announced]; rfl)).nested.append ih
  | chained _ _ ih => exact ih
  | done => exact .nil
  | blank broken _ ih => exact (Flat.single (by rw [broken]; rfl)).nested.append ih
  | next _ _ first others => exact first.append others

/-- A statement has tokens. -/
theorem ne_nil {stmt : Stmt} (laid : Laid Value (.stmt stmt) tokens) : tokens ≠ [] := by
  cases laid with
  | stmt heads suites =>
      refine List.append_ne_nil_of_left_ne_nil ?_ _
      rintro rfl
      cases heads.starts

/-- A single body. -/
theorem single {body : List Stmt} {words : List Token} (flat : Flat words)
    (suite : Laid Value (.suite body) tokens) :
    Laid Value (.suites [body]) (words ++ tokens) := by
  have laid := Laid.present flat suite .nothing
  rwa [List.append_nil] at laid

/-- A single body of a statement. -/
theorem alone {body : List Stmt} (suite : Laid Value (.suite body) tokens) :
    Laid Value (.suites [body]) tokens :=
  single .nil suite

theorem suites_append (first : Laid Value (.suites bodies) tokens)
    (second : Laid Value (.suites more) others) :
    Laid Value (.suites (bodies ++ more)) (tokens ++ others) := by
  generalize same : Piece.suites bodies = piece at first
  induction first generalizing bodies with
  | nothing =>
      cases same
      exact second
  | absent _ ih =>
      cases same
      exact .absent (ih rfl)
  | present flat suite _ _ ih =>
      cases same
      rw [List.append_assoc, List.append_assoc]
      exact .present flat suite (ih rfl)
  | _ => cases same

end Laid

end Grammar

end DocSketch
