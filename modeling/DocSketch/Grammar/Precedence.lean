import DocSketch.Tree.Expr

/-!
# Precedence

The tables of the grammar, each a function on token kinds.

* `Power`: how tightly an operator binds, from loosest to tightest.
* `TokenKind.opening?`: what an expression that starts with a token of this kind is.
* `TokenKind.joining?`: what a token of this kind after an expression makes of it, and
  how tightly it binds.
* `TokenKind.statement?`: the statement that a token of this kind starts.
-/

namespace DocSketch

/-- Binding powers, loosest first. -/
inductive Power where
  | default | lambda | ternary | logicalOr | logicalAnd | logicalNot | relational
  | bitwiseOr | bitwiseXor | bitwiseAnd | shift | additive | multiplicative | unary
  | power | await | call | member | primary
deriving DecidableEq, Repr, Inhabited

namespace Power

def all : List Power :=
  [default, lambda, ternary, logicalOr, logicalAnd, logicalNot, relational, bitwiseOr,
   bitwiseXor, bitwiseAnd, shift, additive, multiplicative, unary, power, await, call, member,
   primary]

/-- Number of binding powers that are looser. -/
def rank : Power → Nat
  | default => 0
  | lambda => 1
  | ternary => 2
  | logicalOr => 3
  | logicalAnd => 4
  | logicalNot => 5
  | relational => 6
  | bitwiseOr => 7
  | bitwiseXor => 8
  | bitwiseAnd => 9
  | shift => 10
  | additive => 11
  | multiplicative => 12
  | unary => 13
  | power => 14
  | await => 15
  | call => 16
  | member => 17
  | primary => 18

instance : LE Power := ⟨fun a b => a.rank ≤ b.rank⟩

instance : LT Power := ⟨fun a b => a.rank < b.rank⟩

instance (a b : Power) : Decidable (a ≤ b) := inferInstanceAs (Decidable (a.rank ≤ b.rank))

instance (a b : Power) : Decidable (a < b) := inferInstanceAs (Decidable (a.rank < b.rank))

end Power

/-- What an expression can start with. -/
inductive Opening where
  | number
  | string
  | identifier
  | constant (value : Constant)
  /-- An operator before an operand that binds tighter than `level`. -/
  | unary (level : Power)
  /-- One or two stars before an unpacked value. -/
  | star
  | group
  | list
  | curly
  | lambda
  | yield
deriving DecidableEq, Repr, Inhabited

/-- What can join an expression to what follows it. -/
inductive Joining where
  /-- An operator whose right operand binds tighter than `right`. -/
  | binary (right : Power)
  /-- `is` and `is not`. -/
  | identity
  /-- `not in`. -/
  | exclusion
  | ternary
  | call
  | subscript
  | member
deriving DecidableEq, Repr, Inhabited

/-- Statements that start with a keyword or a decorator. -/
inductive StatementForm where
  | function | async | classDef | decorated | ret | raise | importNames | importFrom
  | conditional | whileLoop | forLoop | withBlock | tryBlock | keyword
deriving DecidableEq, Repr, Inhabited

namespace TokenKind

/-- The form of an expression that starts with a token of this kind. -/
def opening? : TokenKind → Option Opening
  | number => some .number
  | string => some .string
  | identifier => some .identifier
  | trueKw => some (.constant .true)
  | falseKw => some (.constant .false)
  | noneKw => some (.constant .none)
  | ellipsis => some (.constant .ellipsis)
  | dash | plus | tilde => some (.unary .unary)
  | notKw => some (.unary .logicalNot)
  | awaitKw => some (.unary .await)
  | star | power => some .star
  | openParen => some .group
  | openBracket => some .list
  | openCurly => some .curly
  | lambdaKw => some .lambda
  | yieldKw => some .yield
  | _ => none

/-- What a token of this kind makes of the expression before it, and its binding power.
The right operand of `**` may start with a sign and is grouped to the right. -/
def joining? : TokenKind → Option (Power × Joining)
  | ifKw => some (.ternary, .ternary)
  | orKw => some (.logicalOr, .binary .logicalOr)
  | andKw => some (.logicalAnd, .binary .logicalAnd)
  | less | lessEquals | greater | greaterEquals | equals | notEquals | inKw =>
    some (.relational, .binary .relational)
  | isKw => some (.relational, .identity)
  | notKw => some (.relational, .exclusion)
  | pipe => some (.bitwiseOr, .binary .bitwiseOr)
  | caret => some (.bitwiseXor, .binary .bitwiseXor)
  | ampersand => some (.bitwiseAnd, .binary .bitwiseAnd)
  | shiftLeft | shiftRight => some (.shift, .binary .shift)
  | plus | dash => some (.additive, .binary .additive)
  | star | slash | doubleSlash | percent | atSign => some (.multiplicative, .binary .multiplicative)
  | power => some (.power, .binary .unary)
  | openParen => some (.call, .call)
  | openBracket => some (.call, .subscript)
  | dot => some (.member, .member)
  | _ => none

/-- The statement that a token of this kind starts. -/
def statement? : TokenKind → Option StatementForm
  | defKw => some .function
  | asyncKw => some .async
  | classKw => some .classDef
  | atSign => some .decorated
  | returnKw => some .ret
  | raiseKw => some .raise
  | importKw => some .importNames
  | fromKw => some .importFrom
  | ifKw => some .conditional
  | whileKw => some .whileLoop
  | forKw => some .forLoop
  | withKw => some .withBlock
  | tryKw => some .tryBlock
  | passKw | breakKw | continueKw | globalKw | nonlocalKw | delKw | assertKw => some .keyword
  | _ => none

end TokenKind

end DocSketch
