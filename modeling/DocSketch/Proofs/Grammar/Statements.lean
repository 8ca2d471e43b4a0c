import DocSketch.Grammar.Stmt
import DocSketch.Proofs.Grammar.Moves
import DocSketch.Proofs.Tree.Nodes

/-!
# What readers of statements keep

Statements hold expressions and other statements.  What is known of all expressions that are
read, and of the names of parameters, is known of all statements of a program.

* `Stmt.Throughout`: a property of a statement and of all statements inside it.
* `Grammar.Premises`: what is known of the readers of expressions.
* `Program.proper_of_hasStmt`: it holds of every statement of a program that was read.
-/

namespace DocSketch

namespace Stmt

/-- The signature of a statement that is a function. -/
def signature? : Stmt → Option Signature
  | function _ _ signature _ _ _ => some signature
  | _ => none

/-- A property of a statement and of all statements inside it. -/
inductive Throughout (P : Stmt → Prop) : Stmt → Prop
  | intro {stmt : Stmt} (here : P stmt) (inside : ∀ nested ∈ stmt.inner, Throughout P nested) :
      Throughout P stmt

/-- The expressions of a statement are good, and the parameters of a function are named by
words. -/
structure Proper (Word : String → Prop) (Good : Expr → Prop) (stmt : Stmt) : Prop where
  expressions : ∀ e ∈ stmt.expressions, Good e
  named : ∀ signature, stmt.signature? = some signature →
    ∀ parameter ∈ signature.parameters, Word parameter.name

variable {Word : String → Prop} {Good : Expr → Prop} {stmt : Stmt}

/-- A statement with bodies that is no function. -/
theorem Throughout.compound (plain : stmt.signature? = none) (good : ∀ e ∈ stmt.expressions, Good e)
    (inside : ∀ nested ∈ stmt.inner, Throughout (Proper Word Good) nested) :
    Throughout (Proper Word Good) stmt := by
  refine .intro ⟨good, fun signature declared => ?_⟩ inside
  rw [plain] at declared
  cases declared

/-- A statement without bodies. -/
theorem Throughout.simple (plain : stmt.signature? = none) (leaf : stmt.inner = [])
    (good : ∀ e ∈ stmt.expressions, Good e) : Throughout (Proper Word Good) stmt :=
  .compound plain good fun nested member => by
    rw [leaf] at member
    cases member

/-- The statements of a body and of its `else` clause. -/
theorem throughout_flatten {P : Stmt → Prop} {body orelse : List Stmt}
    (first : ∀ stmt ∈ body, Throughout P stmt) (second : ∀ stmt ∈ orelse, Throughout P stmt) :
    ∀ stmt ∈ [body, orelse].flatten, Throughout P stmt :=
  List.forall_mem_append.mpr
    ⟨first, List.forall_mem_append.mpr ⟨second, List.forall_mem_nil _⟩⟩

end Stmt

namespace Grammar

open Parse Stmt

/-- What is known of the readers of expressions: they keep a property of cursors, expressions
are good, and the names of parameters are words. -/
structure Premises (Valid : Cursor → Prop) (Word : String → Prop) (Good : Expr → Prop) : Prop
    extends Guards Valid Word where
  expr : ∀ fuel level, Keeps Valid Good (readExpr fuel level)
  tuple : ∀ fuel level, Keeps Valid Good (readTuple fuel level)
  optional : ∀ fuel, ∀ mark ∈ [TokenKind.fromKw, .arrow],
    Keeps Valid (fun value => ∀ e ∈ value.toList, Good e) (readOptional fuel mark)
  arguments : ∀ fuel,
    Keeps Valid (fun found => ∀ e ∈ found.1 ++ found.2.map Keyword.value, Good e)
      (readArguments fuel)
  parameters : ∀ fuel,
    Keeps Valid (fun parameters => ∀ parameter ∈ parameters,
        Word parameter.name ∧ ∀ e ∈ parameter.expressions, Good e)
      (readParameters fuel .closeParen .positional)

variable {Valid : Cursor → Prop} {Word : String → Prop} {Good : Expr → Prop}

section Parts

variable (guards : Guards Valid Word)

/-- Whether a target can be assigned to changes nothing. -/
theorem ensureAssignable_keeps (target : Expr) : Keeps Valid Any (ensureAssignable target) :=
  .ite (.pure trivial) (.failAt _ _)

/-- The same for a chain of targets. -/
theorem ensureAllAssignable_keeps (targets : List Expr) :
    Keeps Valid Any (ensureAllAssignable targets) := by
  induction targets with
  | nil => exact .pure trivial
  | cons target targets ih => exact .andThen (ensureAssignable_keeps target) fun _ => ih

/-- The span of a compound statement changes nothing. -/
theorem compoundSpan_keeps (start : Nat) (bodies : List (List Stmt)) :
    Keeps Valid Any (compoundSpan start bodies) := by
  unfold compoundSpan
  split
  · exact .pure trivial
  · exact .spanFrom start

/-- A compound statement is closed with its span. -/
theorem close_keeps {start : Nat} {bodies : List (List Stmt)} {stmt : Span → Stmt}
    {P : Stmt → Prop} (holds : ∀ span, P (stmt span)) :
    Keeps Valid P (do return stmt (← compoundSpan start bodies)) :=
  .andThen (compoundSpan_keeps start bodies) fun span => .pure (holds span)

include guards

/-- The end of a simple statement keeps the property. -/
theorem endSimple_keeps : Keeps Valid Any endSimple := by
  refine .andThen .kind fun _ => ?_
  split
  · exact .andThen (advance_keeps guards) fun _ => .pure trivial
  · exact .andThen (advance_keeps guards) fun _ => .pure trivial
  · exact .pure trivial
  · exact .pure trivial
  · exact .failHere _

/-- A simple statement ends with its span and the end of its line. -/
theorem finish_keeps {start : Nat} {stmt : Span → Stmt} {P : Stmt → Prop}
    (holds : ∀ span, P (stmt span)) :
    Keeps Valid P (do
      let span ← spanFrom start
      endSimple
      return stmt span) :=
  .andThen (.spanFrom start) fun span => .andThen (endSimple_keeps guards) fun _ =>
    .pure (holds span)

/-- Each further part of a dotted name keeps the property. -/
theorem readDots_keeps (fuel : Nat) : Keeps Valid Any (readDots fuel) := by
  induction fuel with
  | zero => exact .giveUp
  | succ fuel ih =>
      rw [readDots]
      refine .andThen (eat_keeps guards _) fun _ => .ite ?_ (.pure trivial)
      refine .andThen (expect_keeps guards _) fun _ => ?_
      exact .andThen ih fun _ => .pure trivial

/-- A dotted name keeps the property. -/
theorem readDottedName_keeps (fuel : Nat) : Keeps Valid Any (readDottedName fuel) :=
  .andThen (expect_keeps guards _) fun _ => .andThen (readDots_keeps guards fuel) fun _ =>
    .pure trivial

/-- The dots of a relative import keep the property. -/
theorem readLeadingDots_keeps (fuel : Nat) : Keeps Valid Any (readLeadingDots fuel) := by
  induction fuel with
  | zero => exact .giveUp
  | succ fuel ih =>
      rw [readLeadingDots]
      refine .andThen .kind fun _ => ?_
      split
      · refine .andThen (advance_keeps guards) fun _ => ?_
        exact .andThen ih fun _ => .pure trivial
      · refine .andThen (advance_keeps guards) fun _ => ?_
        exact .andThen ih fun _ => .pure trivial
      · exact .pure trivial

/-- An alias keeps the property, if there is one. -/
theorem readAlias_keeps : Keeps Valid Any readAlias :=
  .andThen (eat_keeps guards _) fun _ =>
    .ite (.andThen (expect_keeps guards _) fun _ => .pure trivial) (.pure trivial)

/-- Each imported module keeps the property. -/
theorem readImports_keeps (fuel : Nat) : Keeps Valid Any (readImports fuel) := by
  induction fuel with
  | zero => exact .giveUp
  | succ fuel ih =>
      rw [readImports]
      refine .andThen (readDottedName_keeps guards fuel) fun _ => ?_
      refine .andThen (readAlias_keeps guards) fun _ => .andThen (eat_keeps guards _) fun _ => ?_
      exact .ite (.andThen ih fun _ => .pure trivial) (.pure trivial)

/-- Each imported name keeps the property. -/
theorem readImportedNames_keeps (fuel : Nat) (inParens : Bool) :
    Keeps Valid Any (readImportedNames fuel inParens) := by
  induction fuel with
  | zero => exact .giveUp
  | succ fuel ih =>
      rw [readImportedNames]
      refine .andThen (expect_keeps guards _) fun _ => .andThen (readAlias_keeps guards) fun _ => ?_
      refine .andThen (eat_keeps guards _) fun _ => .ite ?_ (.pure trivial)
      refine .andThen .kind fun _ => .ite (.pure trivial) ?_
      exact .andThen ih fun _ => .pure trivial

/-- A list of imported names keeps the property, in parentheses or not. -/
theorem readImportList_keeps (fuel : Nat) : Keeps Valid Any (readImportList fuel) :=
  .andThen (eat_keeps guards _) fun _ => .andThen (readImportedNames_keeps guards fuel _) fun _ =>
    .ite (.andThen (expect_keeps guards _) fun _ => .pure trivial) (.pure trivial)

/-- An import of modules holds no expression. -/
theorem readImport_keeps (fuel : Nat) :
    Keeps Valid (Throughout (Proper Word Good)) (readImport fuel) :=
  .andThen (advance_keeps guards) fun _ => .andThen (readImports_keeps guards fuel) fun _ =>
    finish_keeps guards fun _ => .simple rfl rfl (List.forall_mem_nil _)

/-- An import of names holds no expression. -/
theorem readFromImport_keeps (fuel : Nat) :
    Keeps Valid (Throughout (Proper Word Good)) (readFromImport fuel) := by
  have named : ∀ {start : Nat} {module : String} {isWildcard : Bool} (names : List ImportName),
      Keeps Valid (Throughout (Proper Word Good)) (do
        let span ← spanFrom start
        endSimple
        return .importFrom span module names isWildcard) :=
    fun _ => finish_keeps guards fun _ => .simple rfl rfl (List.forall_mem_nil _)
  have goesOn : ∀ {start : Nat} {dots : String} (path : String),
      Keeps Valid (Throughout (Proper Word Good)) (do
        let _ ← expect .importKw
        let isWildcard ← eat .star
        let names ← if isWildcard then pure [] else readImportList fuel
        let span ← spanFrom start
        endSimple
        return .importFrom span (dots ++ path) names isWildcard) := by
    intro start dots path
    refine .andThen (expect_keeps guards _) fun _ => .andThen (eat_keeps guards _) fun _ => ?_
    exact .ite (.andThen (.pure trivial) named) (.andThen (readImportList_keeps guards fuel) named)
  unfold readFromImport
  refine .andThen (advance_keeps guards) fun _ => ?_
  refine .andThen (readLeadingDots_keeps guards fuel) fun _ => .andThen .kind fun _ => ?_
  exact .ite (.andThen (readDottedName_keeps guards fuel) goesOn) (.andThen (.pure trivial) goesOn)

end Parts

section Simple

variable (premises : Premises Valid Word Good)

include premises

/-- The value of a `return` statement is good. -/
theorem readReturn_keeps (fuel : Nat) :
    Keeps Valid (Throughout (Proper Word Good)) (readReturn fuel) := by
  have guards := premises.toGuards
  have ends : ∀ {start : Nat} (value : Option Expr), (∀ e ∈ value.toList, Good e) →
      Keeps Valid (Throughout (Proper Word Good)) (do
        let span ← spanFrom start
        endSimple
        return .ret span value) :=
    fun _ good => finish_keeps guards fun _ => .simple rfl rfl good
  unfold readReturn
  refine .andThen (advance_keeps guards) fun _ => .andThen .atExpression fun _ => .ite ?_ ?_
  · refine (premises.tuple fuel _).bind fun value good => ?_
    exact .bind (.pure (List.forall_mem_singleton.mpr good)) ends
  · exact .bind (.pure (List.forall_mem_nil _)) ends

/-- What is raised is good, and so is its cause. -/
theorem readRaise_keeps (fuel : Nat) :
    Keeps Valid (Throughout (Proper Word Good)) (readRaise fuel) := by
  have guards := premises.toGuards
  refine .andThen (advance_keeps guards) fun _ => .andThen .atExpression fun _ => .ite ?_ ?_
  · refine (premises.expr fuel _).bind fun exception good => ?_
    refine (premises.optional fuel .fromKw (by simp)).bind fun cause others => ?_
    exact finish_keeps guards fun _ => .simple rfl rfl (List.forall_mem_cons.mpr ⟨good, others⟩)
  · exact finish_keeps guards fun _ => .simple rfl rfl (List.forall_mem_nil _)

/-- The operands of a keyword statement are good. -/
theorem readOperands_keeps (fuel : Nat) :
    Keeps Valid (fun operands => ∀ e ∈ operands, Good e) (readOperands fuel) := by
  have guards := premises.toGuards
  induction fuel with
  | zero => exact .giveUp
  | succ fuel ih =>
      rw [readOperands]
      refine .andThen .atExpression fun _ => .ite ?_ (.pure (List.forall_mem_nil _))
      refine (premises.expr fuel _).bind fun operand good => ?_
      refine .andThen (eat_keeps guards _) fun _ =>
        .ite ?_ (.pure (List.forall_mem_singleton.mpr good))
      exact ih.bind fun others goods => .pure (List.forall_mem_cons.mpr ⟨good, goods⟩)

/-- A keyword statement holds good operands or none. -/
theorem readKeyword_keeps (fuel : Nat) :
    Keeps Valid (Throughout (Proper Word Good)) (readKeyword fuel) := by
  have guards := premises.toGuards
  have ends : ∀ {token : Token} (arguments : List Expr), (∀ e ∈ arguments, Good e) →
      Keeps Valid (Throughout (Proper Word Good)) (do
        let span ← spanFrom token.span.start
        endSimple
        return .keyword span token.kind arguments) :=
    fun _ good => finish_keeps guards fun _ => .simple rfl rfl good
  unfold readKeyword
  refine .andThen (advance_keeps guards) fun token => ?_
  dsimp only
  split
  · exact .bind (.pure (List.forall_mem_nil _)) ends
  · exact .bind (.pure (List.forall_mem_nil _)) ends
  · exact .bind (.pure (List.forall_mem_nil _)) ends
  · exact (readOperands_keeps premises fuel).bind ends

/-- The links of a chain of assignments are good. -/
theorem readLinks_keeps (fuel : Nat) :
    Keeps Valid (fun links => ∀ e ∈ links, Good e) (readLinks fuel) := by
  have guards := premises.toGuards
  induction fuel with
  | zero => exact .giveUp
  | succ fuel ih =>
      rw [readLinks]
      refine .andThen (eat_keeps guards _) fun _ => .ite ?_ (.pure (List.forall_mem_nil _))
      refine (premises.tuple fuel _).bind fun link good => ?_
      exact ih.bind fun others goods => .pure (List.forall_mem_cons.mpr ⟨good, goods⟩)

/-- The targets, the annotation and the value of an assignment are good. -/
theorem readSimpleHead_keeps (fuel : Nat) :
    Keeps Valid (Throughout (Proper Word Good)) (readSimpleHead fuel) := by
  have guards := premises.toGuards
  refine .andThen .offset fun start => (premises.tuple fuel _).bind fun first good => ?_
  refine .andThen .kind fun next => ?_
  split
  · refine (readLinks_keeps premises fuel).bind fun links goods => ?_
    have chain : ∀ e ∈ first :: links, Good e := List.forall_mem_cons.mpr ⟨good, goods⟩
    refine .andThen (ensureAllAssignable_keeps _) fun _ => ?_
    refine .andThen (.spanFrom _) fun _ => .pure (.simple rfl rfl fun e member => chain e ?_)
    simp only [expressions, Option.toList_none, List.append_nil, List.mem_append,
      Option.mem_toList] at member
    obtain early | last := member
    · exact List.dropLast_subset _ early
    · exact List.mem_of_getLast? last
  · have ends : ∀ {type : Expr} (value : Option Expr), Good type → (∀ e ∈ value.toList, Good e) →
        Keeps Valid (Throughout (Proper Word Good)) (do
          return .assign (← spanFrom start) [first] value (some type)) := by
      intro type value typed goods
      refine .andThen (.spanFrom _) fun _ => .pure (.simple rfl rfl ?_)
      refine List.forall_mem_append.mpr ⟨?_, List.forall_mem_singleton.mpr typed⟩
      exact List.forall_mem_append.mpr ⟨List.forall_mem_singleton.mpr good, goods⟩
    refine .andThen (advance_keeps guards) fun _ => .andThen (ensureAssignable_keeps _) fun _ => ?_
    refine (premises.expr fuel _).bind fun type typed => ?_
    refine .andThen (eat_keeps guards _) fun _ => .ite ?_ ?_
    · refine (premises.tuple fuel _).bind fun value good => ?_
      exact .bind (.pure (List.forall_mem_singleton.mpr good)) fun value => ends value typed
    · exact .bind (.pure (List.forall_mem_nil _)) fun value => ends value typed
  · refine .ite ?_ (.pure (.simple rfl rfl (List.forall_mem_singleton.mpr good)))
    refine .andThen (ensureAssignable_keeps _) fun _ => .andThen (advance_keeps guards) fun _ => ?_
    refine (premises.tuple fuel _).bind fun value good' => .andThen (.spanFrom _) fun _ => ?_
    exact .pure (.simple rfl rfl
      (List.forall_mem_cons.mpr ⟨good, List.forall_mem_singleton.mpr good'⟩))

/-- A simple statement is proper. -/
theorem readSimple_keeps (fuel : Nat) :
    Keeps Valid (Throughout (Proper Word Good)) (readSimple fuel) :=
  (readSimpleHead_keeps premises fuel).bind fun _ proper =>
    .andThen (endSimple_keeps premises.toGuards) fun _ => .pure proper

/-- The contexts and targets of a `with` block are good. -/
theorem readWithItems_keeps (fuel : Nat) :
    Keeps Valid (fun items => ∀ item ∈ items, ∀ e ∈ item.context :: item.target.toList, Good e)
      (readWithItems fuel) := by
  have guards := premises.toGuards
  induction fuel with
  | zero => exact .giveUp
  | succ fuel ih =>
      have goesOn : ∀ {context : Expr} (target : Option Expr),
          (∀ e ∈ context :: target.toList, Good e) →
          Keeps Valid
            (fun items => ∀ item ∈ items, ∀ e ∈ item.context :: item.target.toList, Good e)
            (do
              if ← eat .comma then
                let others ← readWithItems fuel
                return (⟨context, target⟩ : WithItem) :: others
              else
                return [⟨context, target⟩]) := by
        intro context target good
        refine .andThen (eat_keeps guards _) fun _ =>
          .ite ?_ (.pure (List.forall_mem_singleton.mpr good))
        exact ih.bind fun others goods => .pure (List.forall_mem_cons.mpr ⟨good, goods⟩)
      rw [readWithItems]
      refine (premises.expr fuel _).bind fun context good => ?_
      refine .andThen (eat_keeps guards _) fun _ => .ite ?_ ?_
      · refine (premises.expr fuel _).bind fun target good' => ?_
        exact .bind (.pure (List.forall_mem_cons.mpr ⟨good, List.forall_mem_singleton.mpr good'⟩))
          goesOn
      · exact .bind (.pure (List.forall_mem_singleton.mpr good)) goesOn

/-- Decorators are good. -/
theorem readDecorators_keeps (fuel : Nat) :
    Keeps Valid (fun decorators => ∀ e ∈ decorators, Good e) (readDecorators fuel) := by
  have guards := premises.toGuards
  induction fuel with
  | zero => exact .giveUp
  | succ fuel ih =>
      rw [readDecorators]
      refine .andThen (eat_keeps guards _) fun _ => .ite ?_ (.pure (List.forall_mem_nil _))
      refine (premises.expr fuel _).bind fun decorator good => ?_
      refine .andThen (expect_keeps guards _) fun _ => .andThen (takeAll_keeps guards _) fun _ => ?_
      exact ih.bind fun others goods => .pure (List.forall_mem_cons.mpr ⟨good, goods⟩)

/-- The bases and the keyword values of a class are good. -/
theorem readBases_keeps (fuel : Nat) :
    Keeps Valid (fun found => ∀ e ∈ found.1 ++ found.2.map Keyword.value, Good e)
      (readBases fuel) :=
  .andThen (eat_keeps premises.toGuards _) fun _ =>
    .ite (premises.arguments fuel) (.pure (List.forall_mem_nil _))

/-- Parameters are named by words, and what a signature holds is good. -/
theorem readSignature_keeps (fuel : Nat) :
    Keeps Valid (fun found => (∀ parameter ∈ found.2.parameters, Word parameter.name) ∧
        ∀ e ∈ found.2.expressions, Good e)
      (readSignature fuel) := by
  have guards := premises.toGuards
  refine .andThen (expect_keeps guards _) fun _ => ?_
  refine .andThen (expectOr_keeps guards _ _).forget fun _ => ?_
  refine .andThen (expect_keeps guards _) fun _ => ?_
  refine (premises.parameters fuel).bind fun parameters known => ?_
  refine .andThen (expect_keeps guards _) fun _ => ?_
  refine (premises.optional fuel .arrow (by simp)).bind fun returns goods => .pure ⟨?_, ?_⟩
  · exact fun parameter member => (known parameter member).1
  · refine List.forall_mem_append.mpr ⟨fun e member => ?_, goods⟩
    obtain ⟨parameter, listed, member⟩ := List.mem_flatMap.mp member
    exact (known parameter listed).2 e member

end Simple

/-- All readers of statements, with a bound on how deeply they call each other: the statements
that are read are proper. -/
structure StatementsKeep (Valid : Cursor → Prop) (Word : String → Prop) (Good : Expr → Prop)
    (fuel : Nat) : Prop where
  stmt : Keeps Valid (Throughout (Proper Word Good)) (readStmt fuel)
  form : ∀ form, Keeps Valid (Throughout (Proper Word Good)) (readForm fuel form)
  function : ∀ start decorators isAsync, (∀ e ∈ decorators, Good e) →
    Keeps Valid (Throughout (Proper Word Good)) (readFunction fuel start decorators isAsync)
  classDef : ∀ start decorators, (∀ e ∈ decorators, Good e) →
    Keeps Valid (Throughout (Proper Word Good)) (readClass fuel start decorators)
  decorated : Keeps Valid (Throughout (Proper Word Good)) (readDecorated fuel)
  forLoop : ∀ start isAsync,
    Keeps Valid (Throughout (Proper Word Good)) (readFor fuel start isAsync)
  withBlock : ∀ start isAsync,
    Keeps Valid (Throughout (Proper Word Good)) (readWith fuel start isAsync)
  conditional : Keeps Valid (Throughout (Proper Word Good)) (readConditional fuel)
  tryBlock : Keeps Valid (Throughout (Proper Word Good)) (readTry fuel)
  handlers : Keeps Valid (fun handlers => ∀ handler ∈ handlers,
      (∀ e ∈ handler.exception.toList, Good e) ∧
        ∀ stmt ∈ handler.body, Throughout (Proper Word Good) stmt)
    (readHandlers fuel)
  orelse : Keeps Valid (∀ stmt ∈ ·, Throughout (Proper Word Good) stmt) (readElse fuel)
  block : Keeps Valid (∀ stmt ∈ ·, Throughout (Proper Word Good) stmt) (readBlock fuel)
  indented : Keeps Valid (∀ stmt ∈ ·, Throughout (Proper Word Good) stmt) (readIndented fuel)
  inline : Keeps Valid (∀ stmt ∈ ·, Throughout (Proper Word Good) stmt) (readInline fuel)

section Compound

variable {fuel : Nat} (premises : Premises Valid Word Good)
  (ih : StatementsKeep Valid Word Good fuel)

include premises ih

/-- Statements of every form are proper throughout. -/
theorem form_keeps (form : StatementForm) :
    Keeps Valid (Throughout (Proper Word Good)) (readForm (fuel + 1) form) := by
  have guards := premises.toGuards
  cases form with
  | function =>
      rw [readForm]
      exact .andThen .offset fun _ => ih.function _ _ _ (List.forall_mem_nil _)
  | classDef =>
      rw [readForm]
      exact .andThen .offset fun _ => ih.classDef _ _ (List.forall_mem_nil _)
  | forLoop =>
      rw [readForm]
      exact .andThen .offset fun _ => ih.forLoop _ _
  | withBlock =>
      rw [readForm]
      exact .andThen .offset fun _ => ih.withBlock _ _
  | decorated =>
      rw [readForm]
      exact ih.decorated
  | async =>
      rw [readForm]
      refine .andThen (advance_keeps guards) fun _ => .andThen .kind fun _ => ?_
      split
      · exact ih.function _ _ _ (List.forall_mem_nil _)
      · exact ih.forLoop _ _
      · exact ih.withBlock _ _
      · exact .failHere _
  | conditional =>
      rw [readForm]
      exact ih.conditional
  | whileLoop =>
      rw [readForm]
      refine .andThen (advance_keeps guards) fun _ => ?_
      refine (premises.expr fuel _).bind fun test good => ?_
      refine ih.block.bind fun body proper => ih.orelse.bind fun orelse others => ?_
      refine close_keeps fun span => .compound rfl (List.forall_mem_singleton.mpr good) ?_
      exact throughout_flatten proper others
  | tryBlock =>
      rw [readForm]
      exact ih.tryBlock
  | ret =>
      rw [readForm]
      exact readReturn_keeps premises fuel
  | raise =>
      rw [readForm]
      exact readRaise_keeps premises fuel
  | importNames =>
      rw [readForm]
      exact readImport_keeps guards fuel
  | importFrom =>
      rw [readForm]
      exact readFromImport_keeps guards fuel
  | keyword =>
      rw [readForm]
      exact readKeyword_keeps premises fuel

/-- A function is proper if its signature and its decorators are. -/
theorem function_keeps (start : Nat) (decorators : List Expr) (isAsync : Bool)
    (goods : ∀ e ∈ decorators, Good e) :
    Keeps Valid (Throughout (Proper Word Good))
      (readFunction (fuel + 1) start decorators isAsync) := by
  rw [readFunction]
  refine (readSignature_keeps premises fuel).bind fun found known => ?_
  refine ih.block.bind fun body proper => close_keeps fun span => .intro ⟨?_, ?_⟩ proper
  · exact List.forall_mem_append.mpr ⟨known.2, goods⟩
  · intro signature declared
    cases declared
    exact known.1

/-- A class is proper if its bases and its decorators are good. -/
theorem classDef_keeps (start : Nat) (decorators : List Expr) (goods : ∀ e ∈ decorators, Good e) :
    Keeps Valid (Throughout (Proper Word Good)) (readClass (fuel + 1) start decorators) := by
  have guards := premises.toGuards
  rw [readClass]
  refine .andThen (expect_keeps guards _) fun _ => .andThen (expect_keeps guards _) fun _ => ?_
  refine (readBases_keeps premises fuel).bind fun found bases => ?_
  refine ih.block.bind fun body proper => close_keeps fun span => .compound rfl ?_ proper
  exact List.forall_mem_append.mpr ⟨bases, goods⟩

/-- A decorated definition is proper. -/
theorem decorated_keeps :
    Keeps Valid (Throughout (Proper Word Good)) (readDecorated (fuel + 1)) := by
  have guards := premises.toGuards
  rw [readDecorated]
  refine .andThen .offset fun _ => (readDecorators_keeps premises fuel).bind fun _ goods => ?_
  refine .andThen .kind fun _ => ?_
  split
  · exact ih.function _ _ _ goods
  · exact .andThen (advance_keeps guards) fun _ => ih.function _ _ _ goods
  · exact ih.classDef _ _ goods
  · exact .failHere _

/-- A `for` loop is proper if its target and what it goes over are good. -/
theorem forLoop_keeps (start : Nat) (isAsync : Bool) :
    Keeps Valid (Throughout (Proper Word Good)) (readFor (fuel + 1) start isAsync) := by
  have guards := premises.toGuards
  rw [readFor]
  refine .andThen (expect_keeps guards _) fun _ => (premises.tuple fuel _).bind fun _ target => ?_
  refine .andThen (expect_keeps guards _) fun _ => (premises.tuple fuel _).bind fun _ iter => ?_
  refine ih.block.bind fun body proper => ih.orelse.bind fun orelse others => ?_
  refine close_keeps fun span => .compound rfl ?_ ?_
  · exact List.forall_mem_cons.mpr ⟨target, List.forall_mem_singleton.mpr iter⟩
  · exact throughout_flatten proper others

/-- A `with` block is proper if its items are good. -/
theorem withBlock_keeps (start : Nat) (isAsync : Bool) :
    Keeps Valid (Throughout (Proper Word Good)) (readWith (fuel + 1) start isAsync) := by
  rw [readWith]
  refine .andThen (expect_keeps premises.toGuards _) fun _ => ?_
  refine (readWithItems_keeps premises fuel).bind fun items goods => ?_
  refine ih.block.bind fun body proper => close_keeps fun span => .compound rfl ?_ ?_
  · intro e member
    obtain ⟨item, listed, member⟩ := List.mem_flatMap.mp member
    exact goods item listed e member
  · exact List.forall_mem_append.mpr ⟨proper, List.forall_mem_nil _⟩

/-- A conditional is proper if its test is good. -/
theorem conditional_keeps :
    Keeps Valid (Throughout (Proper Word Good)) (readConditional (fuel + 1)) := by
  rw [readConditional]
  refine .andThen (advance_keeps premises.toGuards) fun _ => ?_
  refine (premises.expr fuel _).bind fun test good => ?_
  refine ih.block.bind fun body proper => .andThen .kind fun _ => ?_
  have ends : ∀ {start : Nat} (orelse : List Stmt),
      (∀ stmt ∈ orelse, Throughout (Proper Word Good) stmt) →
      Keeps Valid (Throughout (Proper Word Good)) (do
        return .conditional (← compoundSpan start [body, orelse]) test body orelse) := by
    intro start orelse others
    refine close_keeps fun _ => .compound rfl (List.forall_mem_singleton.mpr good) ?_
    exact throughout_flatten proper others
  refine .ite ?_ (ih.orelse.bind ends)
  refine ih.conditional.bind fun chained proper => ?_
  exact .bind (.pure (List.forall_mem_singleton.mpr proper)) ends

/-- A `try` block is proper if what its handlers catch is good. -/
theorem tryBlock_keeps :
    Keeps Valid (Throughout (Proper Word Good)) (readTry (fuel + 1)) := by
  have guards := premises.toGuards
  rw [readTry]
  refine .andThen (advance_keeps guards) fun _ => ?_
  refine ih.block.bind fun body proper => ih.handlers.bind fun handlers caught => ?_
  refine ih.orelse.bind fun orelse others => ?_
  have ends : ∀ {start : Nat} (finalbody : List Stmt),
      (∀ stmt ∈ finalbody, Throughout (Proper Word Good) stmt) →
      Keeps Valid (Throughout (Proper Word Good)) (do
        if handlers.isEmpty ∧ finalbody.isEmpty then
          failHere "expected `except` or `finally` after `try` block"
        else
          let span ← compoundSpan start (body :: handlers.map Handler.body ++ [orelse, finalbody])
          return .tryBlock span body handlers orelse finalbody) := by
    intro start finalbody last
    refine .ite (.failHere _) (close_keeps fun span => .compound rfl ?_ ?_)
    · intro e member
      obtain ⟨handler, listed, member⟩ := List.mem_flatMap.mp member
      exact (caught handler listed).1 e member
    · intro stmt inside
      obtain ⟨nested, listed, member⟩ := List.mem_flatten.mp inside
      simp only [bodies, List.cons_append, List.mem_cons, List.mem_append, List.not_mem_nil,
        or_false] at listed
      obtain rfl | listed | rfl | rfl := listed
      · exact proper stmt member
      · obtain ⟨handler, present, rfl⟩ := List.mem_map.mp listed
        exact (caught handler present).2 stmt member
      · exact others stmt member
      · exact last stmt member
  refine .andThen (eat_keeps guards _) fun _ => .ite ?_ ?_
  · exact ih.block.bind ends
  · exact .bind (.pure (List.forall_mem_nil _)) ends

/-- What handlers catch is good, and their bodies are proper. -/
theorem handlers_keeps :
    Keeps Valid (fun handlers => ∀ handler ∈ handlers,
        (∀ e ∈ handler.exception.toList, Good e) ∧
          ∀ stmt ∈ handler.body, Throughout (Proper Word Good) stmt)
      (readHandlers (fuel + 1)) := by
  have guards := premises.toGuards
  rw [readHandlers]
  refine .andThen .kind fun _ => .ite ?_ (.pure (List.forall_mem_nil _))
  refine .andThen (advance_keeps guards) fun _ => .andThen (eat_keeps guards _) fun _ => ?_
  have goesOn : ∀ {start : Nat} (exception : Option Expr), (∀ e ∈ exception.toList, Good e) →
      Keeps Valid (fun handlers => ∀ handler ∈ handlers,
          (∀ e ∈ handler.exception.toList, Good e) ∧
            ∀ stmt ∈ handler.body, Throughout (Proper Word Good) stmt) (do
        let name ← readAlias
        let body ← readBlock fuel
        let span ← compoundSpan start [body]
        let others ← readHandlers fuel
        return (⟨span, exception, name, body⟩ : Handler Stmt) :: others) := by
    intro start exception goods
    refine .andThen (readAlias_keeps guards) fun _ => ih.block.bind fun body proper => ?_
    refine .andThen (compoundSpan_keeps _ _) fun _ => ih.handlers.bind fun others caught => ?_
    exact .pure (List.forall_mem_cons.mpr ⟨⟨goods, proper⟩, caught⟩)
  refine .andThen .kind fun _ => .ite (.bind (.pure (List.forall_mem_nil _)) goesOn) ?_
  refine (premises.expr fuel _).bind fun exception good => ?_
  exact .bind (.pure (List.forall_mem_singleton.mpr good)) goesOn

/-- The statements of a block are proper. -/
theorem block_keeps :
    Keeps Valid (∀ stmt ∈ ·, Throughout (Proper Word Good) stmt) (readBlock (fuel + 1)) := by
  have guards := premises.toGuards
  rw [readBlock]
  refine .andThen (expect_keeps guards _) fun _ => .andThen (eat_keeps guards _) fun _ => ?_
  refine .ite ?_ ih.inline
  refine .andThen (expectOr_keeps guards _ _).forget fun _ => ?_
  refine ih.indented.bind fun body proper => ?_
  exact .andThen (eat_keeps guards _) fun _ => .pure proper

/-- The statements of an indented block are proper. -/
theorem indented_keeps :
    Keeps Valid (∀ stmt ∈ ·, Throughout (Proper Word Good) stmt) (readIndented (fuel + 1)) := by
  rw [readIndented]
  refine .andThen .kind fun _ => ?_
  split
  · exact .pure (List.forall_mem_nil _)
  · exact .pure (List.forall_mem_nil _)
  · exact .andThen (advance_keeps premises.toGuards) fun _ => ih.indented
  · refine ih.stmt.bind fun stmt proper => ?_
    exact ih.indented.bind fun others rest => .pure (List.forall_mem_cons.mpr ⟨proper, rest⟩)

omit premises in
/-- Statements on the line of their header are proper. -/
theorem inline_keeps :
    Keeps Valid (∀ stmt ∈ ·, Throughout (Proper Word Good) stmt) (readInline (fuel + 1)) := by
  rw [readInline]
  refine ih.stmt.bind fun stmt proper => .andThen .get fun _ => ?_
  refine .ite ?_ (.pure (List.forall_mem_singleton.mpr proper))
  exact ih.inline.bind fun others rest => .pure (List.forall_mem_cons.mpr ⟨proper, rest⟩)

end Compound

theorem statementsKeep_zero : StatementsKeep Valid Word Good 0 where
  stmt := by rw [readStmt]; exact .giveUp
  form form := by rw [readForm]; exact .giveUp
  function start decorators isAsync _ := by rw [readFunction]; exact .giveUp
  classDef start decorators _ := by rw [readClass]; exact .giveUp
  decorated := by rw [readDecorated]; exact .giveUp
  forLoop start isAsync := by rw [readFor]; exact .giveUp
  withBlock start isAsync := by rw [readWith]; exact .giveUp
  conditional := by rw [readConditional]; exact .giveUp
  tryBlock := by rw [readTry]; exact .giveUp
  handlers := by rw [readHandlers]; exact .giveUp
  orelse := by rw [readElse]; exact .giveUp
  block := by rw [readBlock]; exact .giveUp
  indented := by rw [readIndented]; exact .giveUp
  inline := by rw [readInline]; exact .giveUp

/-- The statements that are read are proper. -/
theorem statementsKeep (premises : Premises Valid Word Good) (fuel : Nat) :
    StatementsKeep Valid Word Good fuel := by
  induction fuel with
  | zero => exact statementsKeep_zero
  | succ fuel ih =>
      refine {
        stmt := ?_
        form := form_keeps premises ih
        function := function_keeps premises ih
        classDef := classDef_keeps premises ih
        decorated := decorated_keeps premises ih
        forLoop := forLoop_keeps premises ih
        withBlock := withBlock_keeps premises ih
        conditional := conditional_keeps premises ih
        tryBlock := tryBlock_keeps premises ih
        handlers := handlers_keeps premises ih
        orelse := ?_
        block := block_keeps premises ih
        indented := indented_keeps premises ih
        inline := inline_keeps ih }
      · rw [readStmt]
        refine .andThen .get fun _ => ?_
        split
        · exact ih.form _
        · exact readSimple_keeps premises fuel
      · rw [readElse]
        exact .andThen (eat_keeps premises.toGuards _) fun _ =>
          .ite ih.block (.pure (List.forall_mem_nil _))

/-- The statements of a program are proper. -/
theorem readProgram_keeps (premises : Premises Valid Word Good) (fuel : Nat) :
    Keeps Valid (∀ stmt ∈ ·, Throughout (Proper Word Good) stmt) (readProgram fuel) := by
  induction fuel with
  | zero => exact .giveUp
  | succ fuel ih =>
      rw [readProgram]
      refine .andThen .kind fun _ => ?_
      split
      · exact .pure (List.forall_mem_nil _)
      · exact .andThen (advance_keeps premises.toGuards) fun _ => ih
      · refine (statementsKeep premises fuel).stmt.bind fun stmt proper => ?_
        exact ih.bind fun others rest => .pure (List.forall_mem_cons.mpr ⟨proper, rest⟩)

end Grammar

namespace Program

variable {program : Program}

/-- A property of the outer statements and those inside holds of every statement. -/
theorem throughout_of_hasStmt {P : Stmt → Prop} (holds : ∀ stmt ∈ program.body, stmt.Throughout P)
    {stmt : Stmt} (has : program.HasStmt stmt) : stmt.Throughout P := by
  induction has with
  | top member => exact holds _ member
  | inner has member ih =>
      obtain ⟨-, inside⟩ := ih
      exact inside _ member

/-- What is known of all expressions and parameters that are read is known of the statements
of a program. -/
theorem proper_of_hasStmt {Valid : Cursor → Prop} {Word : String → Prop} {Good : Expr → Prop}
    {file : String} {tokens : List Token} (premises : Grammar.Premises Valid Word Good)
    (valid : Valid (Cursor.ofTokens file false tokens))
    (parsed : Program.ofTokens file tokens = .ok program) {stmt : Stmt}
    (has : program.HasStmt stmt) : stmt.Proper Word Good := by
  have reads : Parse.Keeps Valid
      (fun found => ∀ stmt ∈ found.body, stmt.Throughout (Stmt.Proper Word Good))
      Parse.program := by
    refine .andThen .get fun _ => (Grammar.readProgram_keeps premises _).bind fun body proper => ?_
    exact .andThen .offset fun _ => .pure proper
  unfold Program.ofTokens at parsed
  split at parsed
  case h_1 found next read =>
    cases parsed
    obtain ⟨here, -⟩ := throughout_of_hasStmt (reads _ _ _ valid read).2 has
    exact here
  case h_2 => cases parsed

end Program

end DocSketch
