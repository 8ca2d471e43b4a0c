import DocSketch.Proofs.Grammar.SimpleReaders
import DocSketch.Proofs.Token.Steps

/-!
# Blocks that are read

In the tokens of a text every block that opens closes.  So a reader of an indented block
stops at the `dedent` that belongs to it, never at the end of the file, and a program that is
read has the blocks that its tokens have.

* `Grammar.Layouts`: what the readers of statements go past.
* `Grammar.KeepsBlocks`: statements, blocks and programs that are read have the blocks of
  their tokens.
* `Token.keepsBlocks_of_scan`: this for the tokens of every text.
-/

namespace DocSketch

namespace Grammar

open Parse Token Lexeme

variable {tokens : List Token} {At : TokenKind → Prop} {Value : Expr → List Token → Prop}
  {stmt : Stmt} {early passed : List Token} {start : Nat}

/-- The span of a compound statement starts where the statement does. -/
theorem compoundSpan_takes {β : Type} {bodies : List (List Stmt)} {others : Span → Parse β}
    {Last : List Token → TokenKind → β → Prop}
    (second : ∀ stop, Takes tokens At (others ⟨start, stop⟩) Last) :
    Takes tokens At (compoundSpan start bodies >>= others) Last := by
  unfold compoundSpan
  split
  · exact .known (second _)
  · exact .spanFrom second

/-- The rest of a compound statement that starts at the given place: some words, and then its
bodies. -/
structure Continues (Value : Expr → List Token → Prop) (start : Nat) (stmt : Stmt)
    (passed : List Token) : Prop where
  starts : stmt.span.start = start
  value : stmt.value? = none
  split : ∃ words tail, passed = words ++ tail ∧ words ≠ [] ∧ Flat words ∧
    Laid Value (.suites stmt.suites) tail

/-- A statement that goes on from tokens on the same line. -/
theorem Continues.grow (continues : Continues Value start stmt passed) (flat : Flat early) :
    Continues Value start stmt (early ++ passed) where
  starts := continues.starts
  value := continues.value
  split := by
    obtain ⟨words, tail, rfl, nonempty, more, suites⟩ := continues.split
    exact ⟨early ++ words, tail, (List.append_assoc ..).symm,
      List.append_ne_nil_of_right_ne_nil _ nonempty, flat.append more, suites⟩

/-- A compound statement that starts with the first of its tokens. -/
theorem Continues.laid (continues : Continues Value start stmt passed)
    (first : ∀ token ∈ passed.head?, Visible token.kind ∧ token.span.start = start) :
    Laid Value (.stmt stmt) passed := by
  obtain ⟨words, tail, rfl, nonempty, flat, suites⟩ := continues.split
  refine .stmt ⟨flat, ?_, fun e given => ?_⟩ suites
  · obtain ⟨token, words, rfl⟩ := List.exists_cons_of_ne_nil nonempty
    obtain ⟨visible, starts⟩ := first token rfl
    have begun : Begun (token :: words) := ⟨token, rfl, visible⟩
    rw [continues.starts]
    exact begun.starts fun other member => by cases member; exact starts
  · rw [continues.value] at given
    cases given

/-- A compound statement with a keyword of its own. -/
theorem Laid.ofFirst {token : Token} {words tail : List Token} (visible : Visible token.kind)
    (flat : Flat words) (starts : stmt.span.start = token.span.start) (value : stmt.value? = none)
    (suites : Laid Value (.suites stmt.suites) tail) :
    Laid Value (.stmt stmt) (token :: (words ++ tail)) := by
  refine .stmt (.ofFirst visible flat starts fun e given => ?_) suites
  rw [value] at given
  cases given

/-- All readers of statements, with a bound on how deeply they call each other: what they go
past. -/
structure Layouts (Value : Expr → List Token → Prop) (tokens : List Token) (fuel : Nat) :
    Prop where
  stmt : Takes tokens Anywhere (readStmt fuel) fun passed _ stmt => Laid Value (.stmt stmt) passed
  form : ∀ form, Takes tokens (·.statement? = some form) (readForm fuel form)
    fun passed _ stmt => Laid Value (.stmt stmt) passed
  function : ∀ start decorators isAsync,
    Takes tokens Anywhere (readFunction fuel start decorators isAsync)
      fun passed _ stmt => Continues Value start stmt passed
  classDef : ∀ start decorators, Takes tokens Anywhere (readClass fuel start decorators)
    fun passed _ stmt => Continues Value start stmt passed
  decorated : Takes tokens Visible (readDecorated fuel)
    fun passed _ stmt => Laid Value (.stmt stmt) passed
  forLoop : ∀ start isAsync, Takes tokens Anywhere (readFor fuel start isAsync)
    fun passed _ stmt => Continues Value start stmt passed
  withBlock : ∀ start isAsync, Takes tokens Anywhere (readWith fuel start isAsync)
    fun passed _ stmt => Continues Value start stmt passed
  conditional : Takes tokens Visible (readConditional fuel)
    fun passed _ stmt => Laid Value (.stmt stmt) passed
  tryBlock : Takes tokens Visible (readTry fuel)
    fun passed _ stmt => Laid Value (.stmt stmt) passed
  handlers : Takes tokens Anywhere (readHandlers fuel)
    fun passed _ handlers => Laid Value (.suites (handlers.map Handler.body)) passed
  orelse : Takes tokens Anywhere (readElse fuel)
    fun passed _ orelse => Laid Value (.suites [orelse]) passed
  block : Takes tokens Anywhere (readBlock fuel)
    fun passed _ body => Laid Value (.suite body) passed
  indented : Takes tokens Anywhere (readIndented fuel) fun passed next body =>
    Laid Value (.body body) passed ∧ (next = .dedent ∨ next = .eof)
  inline : Takes tokens Anywhere (readInline fuel)
    fun passed _ body => Laid Value (.body body) passed

section Compound

variable {fuel : Nat} (ih : Layouts Value tokens fuel)

include ih

/-- A function is laid out as its header and its body. -/
theorem function_takes (start : Nat) (decorators : List Expr) (isAsync : Bool) :
    Takes tokens At (readFunction (fuel + 1) start decorators isAsync)
      fun passed _ stmt => Continues Value start stmt passed := by
  rw [readFunction]
  refine .bind (readSignature_takes fuel) ?_
  rintro ⟨name, signature⟩ words _ ⟨nonempty, flat⟩
  refine .bind ih.block.anywhere fun body own _ suite => ?_
  refine compoundSpan_takes fun stop => .pure fun _ _ => ?_
  rw [List.append_nil]
  exact ⟨rfl, rfl, words, own, rfl, nonempty, flat, suite.alone⟩

/-- A class is laid out as its header and its body. -/
theorem classDef_takes (start : Nat) (decorators : List Expr) :
    Takes tokens At (readClass (fuel + 1) start decorators)
      fun passed _ stmt => Continues Value start stmt passed := by
  rw [readClass]
  refine .expect (by decide) fun token kind => .expect (by decide) fun name identifies => ?_
  refine .bind (readBases_level fuel) ?_
  rintro ⟨bases, keywords⟩ words _ ⟨flat, -⟩
  refine .bind ih.block.anywhere fun body own _ suite => ?_
  refine compoundSpan_takes fun stop => .pure fun _ _ => ?_
  rw [List.append_nil]
  refine ⟨rfl, rfl, token :: name :: words, own, rfl, List.cons_ne_nil _ _, ?_, suite.alone⟩
  exact .cons (kind ▸ rfl) (.cons (identifies ▸ rfl) flat)

/-- A `for` loop is laid out as its header and its bodies. -/
theorem forLoop_takes (start : Nat) (isAsync : Bool) :
    Takes tokens At (readFor (fuel + 1) start isAsync)
      fun passed _ stmt => Continues Value start stmt passed := by
  rw [readFor]
  refine .expect (by decide) fun token kind => ?_
  refine .bind (Level.tuple fuel _) ?_
  rintro target before _ ⟨flat, -⟩
  refine .expect (by decide) fun word inside => ?_
  refine .bind (Level.tuple fuel _) ?_
  rintro iter behind _ ⟨more, -⟩
  refine .bind ih.block.anywhere fun body own _ suite => ?_
  refine .bind ih.orelse.anywhere fun orelse later _ others => ?_
  refine compoundSpan_takes fun stop => .pure fun _ _ => ?_
  rw [List.append_nil]
  refine ⟨rfl, rfl, token :: (before ++ word :: behind), own ++ later, ?_, List.cons_ne_nil _ _,
    ?_, suite.alone.suites_append others⟩
  · simp only [List.cons_append, List.append_assoc]
  · exact .cons (kind ▸ rfl) (flat.append (.cons (inside ▸ rfl) more))

/-- A `with` block is laid out as its header and its body. -/
theorem withBlock_takes (start : Nat) (isAsync : Bool) :
    Takes tokens At (readWith (fuel + 1) start isAsync)
      fun passed _ stmt => Continues Value start stmt passed := by
  rw [readWith]
  refine .expect (by decide) fun token kind => ?_
  refine .bind (readWithItems_level fuel) ?_
  rintro items words _ ⟨flat, -⟩
  refine .bind ih.block.anywhere fun body own _ suite => ?_
  refine compoundSpan_takes fun stop => .pure fun _ _ => ?_
  rw [List.append_nil]
  exact ⟨rfl, rfl, token :: words, own, rfl, List.cons_ne_nil _ _, .cons (kind ▸ rfl) flat,
    suite.alone⟩

/-- Decorators stand before the function or the class they belong to. -/
theorem decorated_takes :
    Takes tokens Visible (readDecorated (fuel + 1))
      fun passed _ stmt => Laid Value (.stmt stmt) passed := by
  have continues : Takes tokens Visible (readDecorated (fuel + 1)) fun passed _ stmt =>
      ∃ start, (∀ token ∈ passed.head?, token.span.start = start) ∧
        Continues Value start stmt passed := by
    rw [readDecorated]
    refine .offset fun start => .bind (readDecorators_level fuel) ?_
    rintro decorators early _ ⟨flat, -⟩
    refine .kind fun next _ => ?_
    split
    · exact (ih.function _ _ _).anywhere.mono fun _ _ _ continues => continues.grow flat
    · refine .step (fun _ here => here ▸ by decide) fun token here => ?_
      exact (ih.function _ _ _).mono fun _ _ _ continues =>
        (continues.grow (.single (here ▸ rfl))).grow flat
    · exact (ih.classDef _ _).anywhere.mono fun _ _ _ continues => continues.grow flat
    · exact .failHere _
  refine continues.lead.mono ?_
  rintro passed _ stmt ⟨⟨start, first, continues⟩, visible⟩
  exact continues.laid fun token member => ⟨visible token member, first token member⟩

/-- Chained conditions are laid out one inside the other. -/
theorem conditional_takes :
    Takes tokens Visible (readConditional (fuel + 1))
      fun passed _ stmt => Laid Value (.stmt stmt) passed := by
  rw [readConditional]
  refine .step (fun _ visible => visible.ne_eof) fun token visible => ?_
  refine .bind (Level.expr fuel _) ?_
  rintro test words _ ⟨flat, -⟩
  refine .bind ih.block.anywhere fun body own _ suite => .kind fun next _ => ?_
  have ends : ∀ {At : TokenKind → Prop} {early : List Token} (orelse : List Stmt),
      Laid Value (.suites [orelse]) early → Takes tokens At (do
        return .conditional (← compoundSpan token.span.start [body, orelse]) test body orelse)
      fun later _ stmt =>
        Laid Value (.stmt stmt) (token :: (words ++ (own ++ (early ++ later)))) := by
    intro At early orelse others
    refine compoundSpan_takes fun stop => .pure fun _ _ => ?_
    rw [List.append_nil]
    exact .ofFirst visible flat rfl rfl (suite.alone.suites_append others)
  refine .ite (fun chained => ?_) fun _ => .bind ih.orelse.anywhere fun orelse _ _ => ends orelse
  have nested : Takes tokens (· = next) (readConditional fuel) fun passed _ stmt =>
      Laid Value (.stmt stmt) passed ∧ ∀ token ∈ passed.head?, token.kind = next :=
    (ih.conditional.narrow fun _ here => by rw [here, chained]; rfl).lead
  refine .bind nested ?_
  rintro stmt chain _ ⟨condition, first⟩
  refine .known (ends _ (.alone ?_))
  exact .chained (fun token member => (first token member).trans chained) condition

/-- A `try` block is laid out as its body, its handlers and the clauses behind them. -/
theorem tryBlock_takes :
    Takes tokens Visible (readTry (fuel + 1))
      fun passed _ stmt => Laid Value (.stmt stmt) passed := by
  rw [readTry]
  refine .step (fun _ visible => visible.ne_eof) fun token visible => ?_
  refine .bind ih.block.anywhere fun body own _ suite => ?_
  refine .bind ih.handlers.anywhere fun handlers caught _ clauses => ?_
  refine .bind ih.orelse.anywhere fun orelse otherwise _ others => ?_
  have ends : ∀ {At : TokenKind → Prop} {early : List Token} (finalbody : List Stmt),
      Laid Value (.suites [finalbody]) early → Takes tokens At (do
        if handlers.isEmpty ∧ finalbody.isEmpty then
          failHere "expected `except` or `finally` after `try` block"
        else
          let span ← compoundSpan token.span.start
            (body :: handlers.map Handler.body ++ [orelse, finalbody])
          return .tryBlock span body handlers orelse finalbody)
      fun later _ stmt => Laid Value (.stmt stmt)
        (token :: (own ++ (caught ++ (otherwise ++ (early ++ later))))) := by
    intro At early finalbody last
    refine .ite (fun _ => .failHere _) fun _ => compoundSpan_takes fun stop => .pure fun _ _ => ?_
    rw [List.append_nil]
    have suites := (suite.alone.suites_append clauses).suites_append (others.suites_append last)
    rw [List.append_assoc] at suites
    have laid : Laid Value
        (.stmt (.tryBlock ⟨token.span.start, stop⟩ body handlers orelse finalbody))
        (token :: ([] ++ _)) := .ofFirst visible .nil rfl rfl suites
    rwa [List.nil_append, List.append_assoc] at laid
  refine .eat (by decide) (fun word kind => ?_) (.known (ends [] (.absent .nothing)))
  refine .bind ih.block fun finalbody last _ suite => ?_
  have final : Laid Value (.suites [finalbody]) ([word] ++ last) :=
    .single (.single (by rw [kind]; rfl)) suite
  exact ends finalbody final

/-- Each handler has a header and a body. -/
theorem handlers_takes :
    Takes tokens At (readHandlers (fuel + 1))
      fun passed _ handlers => Laid Value (.suites (handlers.map Handler.body)) passed := by
  rw [readHandlers]
  refine .kind fun next _ => .ite (fun here => ?_) fun _ => .pure fun _ _ => .nothing
  subst here
  refine .step (fun _ here => here ▸ by decide) fun token here => ?_
  -- What follows the words before the colon, whatever these are.
  have goesOn : ∀ {At : TokenKind → Prop} (words : List Token) (exception : Option Expr),
      Flat (token :: words) → Takes tokens At (do
        let name ← readAlias
        let body ← readBlock fuel
        let span ← compoundSpan token.span.start [body]
        let others ← readHandlers fuel
        return (⟨span, exception, name, body⟩ : Handler Stmt) :: others)
      fun later _ handlers =>
        Laid Value (.suites (handlers.map Handler.body)) (token :: (words ++ later)) := by
    intro At words exception flat
    refine .bind readAlias_level ?_
    rintro name named _ ⟨more, -⟩
    refine .bind ih.block.anywhere fun body own _ suite => compoundSpan_takes fun stop => ?_
    refine .bind ih.handlers.anywhere fun others later _ clauses => .pure fun _ _ => ?_
    have laid := Laid.present (flat.append more) suite clauses
    rw [List.append_nil]
    rwa [List.cons_append, List.cons_append, List.append_assoc] at laid
  have starred : ∀ {At : TokenKind → Prop} {words : List Token}, Flat (token :: words) →
      Takes tokens At (do
        let exception ←
          if (← kind) = .colon then pure none else do pure (some (← readExpr fuel .default))
        let name ← readAlias
        let body ← readBlock fuel
        let span ← compoundSpan token.span.start [body]
        let others ← readHandlers fuel
        return (⟨span, exception, name, body⟩ : Handler Stmt) :: others)
      fun later _ handlers =>
        Laid Value (.suites (handlers.map Handler.body)) (token :: (words ++ later)) := by
    intro At words flat
    refine .kind fun next _ => .ite (fun _ => .known (goesOn words none flat)) fun _ => ?_
    refine .bind (Level.expr fuel _) ?_
    rintro exception typed _ ⟨more, -⟩
    refine .known ?_
    refine (goesOn (words ++ typed) (some exception) (flat.append more)).mono ?_
    intro later _ handlers laid
    rwa [List.append_assoc] at laid
  have opening : Flat [token] := .single (here ▸ rfl)
  refine .eat (by decide) (fun star kind => ?_) (starred opening)
  exact starred (opening.append (.single (kind ▸ rfl)))

/-- An `else` clause is laid out as its body, or takes no token. -/
theorem orelse_takes :
    Takes tokens At (readElse (fuel + 1))
      fun passed _ orelse => Laid Value (.suites [orelse]) passed := by
  rw [readElse]
  refine .eat (by decide) (fun word kind => ih.block.mono fun own _ orelse suite => ?_)
    (.pure fun _ _ => .absent .nothing)
  have words : Flat [word] := .single (by rw [kind]; rfl)
  exact .single words suite

/-- An indented block goes up to a dedent or the end. -/
theorem indented_takes :
    Takes tokens At (readIndented (fuel + 1)) fun passed next body =>
      Laid Value (.body body) passed ∧ (next = .dedent ∨ next = .eof) := by
  rw [readIndented]
  refine .kind fun next _ => ?_
  split
  · exact .pure fun _ here => ⟨.done, .inl here⟩
  · exact .pure fun _ here => ⟨.done, .inr here⟩
  · refine .step (fun _ here => here ▸ by decide) fun token here => ?_
    exact ih.indented.mono fun _ _ _ known => ⟨.blank here known.1, known.2⟩
  · refine .bind ih.stmt.anywhere fun stmt own _ first => ?_
    refine .bind ih.indented.anywhere fun others later _ known => .pure fun last here => ?_
    rw [List.append_nil]
    exact ⟨.next first known.1, here ▸ known.2⟩

/-- Statements on the line of their header are a body. -/
theorem inline_takes :
    Takes tokens At (readInline (fuel + 1))
      fun passed _ body => Laid Value (.body body) passed := by
  rw [readInline]
  refine .bind ih.stmt.anywhere fun stmt own _ first => .get fun cursor => ?_
  refine .ite (fun _ => ?_) fun _ => .pure fun _ _ => .next first .done
  refine .bind ih.inline.anywhere fun others later _ known => .pure fun _ _ => ?_
  rw [List.append_nil]
  exact .next first known

/-- The block of a reader ends with the `dedent` that belongs to its `indent`: at the end of
the file that block would still be open. -/
theorem block_takes (nested : Nested tokens) (unended : ∀ token ∈ tokens, token.kind ≠ .eof) :
    Takes tokens At (readBlock (fuel + 1))
      fun passed _ body => Laid Value (.suite body) passed := by
  -- Either the block is closed, or the file ends in it.
  have reads : Takes tokens At (readBlock (fuel + 1)) fun passed next body =>
      Laid Value (.suite body) passed ∨ next = .eof ∧ ∃ words indent inner,
        passed = words ++ indent :: inner ∧ Flat words ∧ indent.kind = .indent ∧ Nested inner := by
    rw [readBlock]
    refine .expect (by decide) fun colon announced => .eat (by decide) (fun newline broken => ?_) ?_
    · refine .expectOr (by decide) fun indent opened => ?_
      refine .bind ih.indented ?_
      rintro body inner next ⟨statements, ends⟩
      refine .eat (by decide) (fun dedent closed => ?_) (.pure ?_)
      · exact .pure fun _ _ => .inl (.indented announced broken opened closed statements)
      · rintro _ ⟨here, other⟩
        right
        refine ⟨here.trans (ends.resolve_left (here ▸ other)), [colon, newline], indent, inner, ?_,
          .cons (announced ▸ rfl) (.single (broken ▸ rfl)), opened, statements.nested⟩
        rw [List.append_nil]
        rfl
    · refine (ih.inline.narrow fun _ _ => trivial).lead.mono ?_
      rintro line _ body ⟨statements, first⟩
      exact .inl (.inline announced (fun token member => (first token member).2) statements)
  refine (reads.atEnd nested unended).mono ?_
  rintro passed next body ⟨laid | ⟨ends, words, indent, inner, rfl, flat, opened, within⟩, closes⟩
  · exact laid
  · obtain ⟨level, closes⟩ := closes ends
    rw [level?_append, flat.nested.level?_eq, Option.bind_some, level?_cons, layer?_indent opened,
      Option.bind_some, within.level?_eq] at closes
    cases closes

/-- Every form of statement is laid out by what it starts with. -/
theorem form_takes (values : ∀ fuel level,
      Runs tokens (readTuple fuel level) fun passed _ e => Value e passed)
    (form : StatementForm) :
    Takes tokens (·.statement? = some form) (readForm (fuel + 1) form)
      fun passed _ stmt => Laid Value (.stmt stmt) passed := by
  have visible : ∀ kind : TokenKind, kind.statement? = some form → Visible kind :=
    fun _ => visible_of_statement?
  have alone : ∀ {reader : Nat → Parse Stmt}, (∀ start, Takes tokens Anywhere (reader start)
        fun passed _ stmt => Continues Value start stmt passed) →
      Takes tokens (·.statement? = some form) (offset >>= reader)
        fun passed _ stmt => Laid Value (.stmt stmt) passed := by
    intro reader continues
    refine (Takes.offset fun start => (continues start).anywhere).lead.mono ?_
    rintro passed _ stmt ⟨⟨start, first, continues⟩, kinds⟩
    exact continues.laid fun token member => ⟨visible _ (kinds token member), first token member⟩
  cases form with
  | function =>
      rw [readForm]
      exact alone fun start => ih.function start [] false
  | classDef =>
      rw [readForm]
      exact alone fun start => ih.classDef start []
  | forLoop =>
      rw [readForm]
      exact alone fun start => ih.forLoop start false
  | withBlock =>
      rw [readForm]
      exact alone fun start => ih.withBlock start false
  | decorated =>
      rw [readForm]
      exact ih.decorated.narrow visible
  | async =>
      rw [readForm]
      refine .step (fun _ here => (visible _ here).ne_eof) fun token here => .kind fun next _ => ?_
      have laid : ∀ {later : List Token} {stmt : Stmt},
          Continues Value token.span.start stmt later →
            Laid Value (.stmt stmt) (token :: later) := by
        intro later stmt continues
        have flat : Flat [token] := .single (TokenKind.isBorder_of_visible (visible _ here))
        refine (continues.grow flat).laid fun first member => ?_
        cases member
        exact ⟨visible _ here, rfl⟩
      split
      · exact (ih.function _ _ _).anywhere.mono fun _ _ _ continues => laid continues
      · exact (ih.forLoop _ _).anywhere.mono fun _ _ _ continues => laid continues
      · exact (ih.withBlock _ _).anywhere.mono fun _ _ _ continues => laid continues
      · exact .failHere _
  | conditional =>
      rw [readForm]
      exact ih.conditional.narrow visible
  | whileLoop =>
      rw [readForm]
      refine .step (fun _ here => (visible _ here).ne_eof) fun token here => ?_
      refine .bind (Level.expr fuel _) ?_
      rintro test words _ ⟨flat, -⟩
      refine .bind ih.block.anywhere fun body own _ suite => ?_
      refine .bind ih.orelse.anywhere fun orelse later _ others => ?_
      refine compoundSpan_takes fun stop => .pure fun _ _ => ?_
      rw [List.append_nil]
      exact .ofFirst (visible _ here) flat rfl rfl (suite.alone.suites_append others)
  | tryBlock =>
      rw [readForm]
      exact ih.tryBlock.narrow visible
  | ret =>
      rw [readForm]
      exact (readReturn_laid values fuel).narrow visible
  | raise =>
      rw [readForm]
      exact (readRaise_laid fuel).narrow visible
  | importNames =>
      rw [readForm]
      exact (readImport_laid fuel).narrow visible
  | importFrom =>
      rw [readForm]
      exact (readFromImport_laid fuel).narrow visible
  | keyword =>
      rw [readForm]
      exact (readKeyword_laid fuel).narrow visible

end Compound

theorem layouts_zero : Layouts Value tokens 0 where
  stmt := by rw [readStmt]; exact .giveUp
  form form := by rw [readForm]; exact .giveUp
  function start decorators isAsync := by rw [readFunction]; exact .giveUp
  classDef start decorators := by rw [readClass]; exact .giveUp
  decorated := by rw [readDecorated]; exact .giveUp
  forLoop start isAsync := by rw [readFor]; exact .giveUp
  withBlock start isAsync := by rw [readWith]; exact .giveUp
  conditional := by rw [readConditional]; exact .giveUp
  tryBlock := by rw [readTry]; exact .giveUp
  handlers := by rw [readHandlers]; exact .giveUp
  orelse := by rw [readElse]; exact .giveUp
  block := by rw [readBlock]; exact .giveUp
  indented := by rw [readIndented]; exact .giveUp
  inline := by rw [readInline]; exact .giveUp

section Program

variable (nested : Nested tokens) (unended : ∀ token ∈ tokens, token.kind ≠ .eof)
  (values : ∀ fuel level, Runs tokens (readTuple fuel level) fun passed _ e => Value e passed)

include nested unended values

/-- What the readers of statements go past, where all blocks are closed. -/
theorem layouts (fuel : Nat) : Layouts Value tokens fuel := by
  induction fuel with
  | zero => exact layouts_zero
  | succ fuel ih =>
      refine {
        stmt := ?_
        form := form_takes ih values
        function := function_takes ih
        classDef := classDef_takes ih
        decorated := decorated_takes ih
        forLoop := forLoop_takes ih
        withBlock := withBlock_takes ih
        conditional := conditional_takes ih
        tryBlock := tryBlock_takes ih
        handlers := handlers_takes ih
        orelse := orelse_takes ih
        block := block_takes ih nested unended
        indented := indented_takes ih
        inline := inline_takes ih }
      intro cursor stmt after inside here ran
      have known : cursor.statement? = cursor.kind.statement? := by
        rw [Cursor.statement?, inside.full]
        rfl
      rw [readStmt, get_bind, known] at ran
      cases starts : cursor.kind.statement? with
      | some form =>
          rw [starts] at ran
          exact ih.form form cursor stmt after inside starts ran
      | none =>
          rw [starts] at ran
          exact readSimple_laid values fuel cursor stmt after inside here ran

/-- A program takes all tokens up to the end. -/
theorem readProgram_takes (fuel : Nat) :
    Takes tokens At (readProgram fuel) fun passed next body =>
      Laid Value (.body body) passed ∧ next = .eof := by
  induction fuel generalizing At with
  | zero => exact .giveUp
  | succ fuel ih =>
      rw [readProgram]
      refine .kind fun next _ => ?_
      split
      · exact .pure fun _ here => ⟨.done, here⟩
      · refine .step (fun _ here => here ▸ by decide) fun token here => ?_
        exact ih.mono fun _ _ _ known => ⟨.blank here known.1, known.2⟩
      · refine .bind (layouts nested unended values fuel).stmt.anywhere fun stmt own _ first => ?_
        refine .bind ih fun others later _ known => .pure fun last here => ?_
        rw [List.append_nil]
        exact ⟨.next first known.1, here.trans known.2⟩

/-- A program stands for all tokens before the end of the file. -/
theorem program_laid {file : String} {stop : Token} {program : Program} {after : Cursor}
    (ends : stop.kind = .eof)
    (ran : Parse.program (Cursor.ofTokens file false (tokens ++ [stop])) = .ok program after) :
    after.rest = [] ∧ Laid Value (.body program.body) tokens := by
  rw [Cursor.ofTokens_concat file false ends] at ran
  have inside : (Cursor.before file false tokens stop).Within tokens :=
    Cursor.within_before file ends
  have takes : Takes tokens Anywhere Parse.program fun passed next program =>
      Laid Value (.body program.body) passed ∧ next = .eof := by
    refine .get fun cursor => .bind (readProgram_takes nested unended values _) ?_
    intro body passed next known
    refine .look fun offset => .pure fun last here => ?_
    rw [List.append_nil]
    exact ⟨known.1, here.trans known.2⟩
  obtain ⟨passed, passes, laid, last⟩ := takes _ program after inside trivial ran
  have rest := passes.rest_eq_nil inside unended last
  have whole : tokens = passed := by
    have split := passes.rest
    rwa [rest, List.append_nil] at split
  exact ⟨rest, whole ▸ laid⟩

end Program

/-- A block starts with a colon. -/
theorem kind_of_readBlock {fuel : Nat} {cursor after : Cursor} {body : List Stmt}
    (inside : cursor.Within tokens) (ran : readBlock fuel cursor = .ok body after) :
    cursor.kind = .colon := by
  cases fuel with
  | zero =>
      rw [readBlock] at ran
      cases ran
  | succ fuel =>
      rw [readBlock] at ran
      obtain ⟨token, middle, kind, passes, -⟩ := ran_expectOr inside (by decide) ran
      rw [passes.kind_eq, ← kind]
      rfl

/-- Statements, blocks and programs that are read from the tokens `body`, which `stop` closes,
have the blocks of these tokens. -/
structure KeepsBlocks (file : String) (body : List Token) (stop : Token) : Prop where
  /-- A statement closes exactly the blocks that it opens. -/
  stmt : ∀ fuel cursor stmt after, cursor.Within body → readStmt fuel cursor = .ok stmt after →
    ∃ passed, cursor.Passes passed after ∧ Nested passed ∧ LaidOut (.stmt stmt) passed
  /-- A body stands on the line of its colon, or it is a block that its own `dedent` closes. -/
  block : ∀ fuel cursor block after, cursor.Within body → readBlock fuel cursor = .ok block after →
    (∃ colon line, cursor.Passes (colon :: line) after ∧
      (∀ token ∈ line.head?, token.kind ≠ .newline) ∧ LaidOut (.body block) line) ∨
    ∃ colon newline indent inner dedent,
      cursor.Passes (colon :: newline :: indent :: (inner ++ [dedent])) after ∧
      newline.kind = .newline ∧ indent.kind = .indent ∧ dedent.kind = .dedent ∧ Nested inner ∧
      LaidOut (.body block) inner
  /-- The statements behind an `indent` go on up to the `dedent` that belongs to it. -/
  statements : ∀ fuel front indent cursor block after, cursor.Within body →
    body = front ++ indent :: cursor.rest → indent.kind = .indent →
    readIndented fuel cursor = .ok block after →
    ∃ inner, cursor.Passes inner after ∧ Nested inner ∧ LaidOut (.body block) inner ∧
      after.kind = .dedent
  /-- A program stands for all tokens, block by block. -/
  program : ∀ program after,
    Parse.program (Cursor.ofTokens file false (body ++ [stop])) = .ok program after →
    after.rest = [] ∧ LaidOut (.body program.body) body

/-- Readers of statements and blocks take tokens with balanced brackets and blocks. -/
theorem keepsBlocks {file : String} {stop : Token} (nested : Nested tokens)
    (unended : ∀ token ∈ tokens, token.kind ≠ .eof) (ends : stop.kind = .eof) :
    KeepsBlocks file tokens stop := by
  have values : ∀ fuel level, Runs tokens (readTuple fuel level) fun _ _ _ => True := by
    intro fuel level cursor e after inside ran
    obtain ⟨passed, passes, -⟩ := (retraces tokens fuel).tuple level cursor e after inside ran
    exact ⟨passed, passes, trivial⟩
  have reads := layouts nested unended values
  constructor
  case stmt =>
    intro fuel cursor stmt after inside ran
    obtain ⟨passed, passes, laid⟩ := (reads fuel).stmt cursor stmt after inside trivial ran
    exact ⟨passed, passes, laid.nested, laid⟩
  case block =>
    intro fuel cursor block after inside ran
    obtain ⟨passed, passes, laid⟩ := (reads fuel).block cursor block after inside trivial ran
    cases laid with
    | indented announced broken opened closed statements =>
        exact .inr ⟨_, _, _, _, _, passes, broken, opened, closed, statements.nested, statements⟩
    | inline announced unbroken statements => exact .inl ⟨_, _, passes, unbroken, statements⟩
    | chained chained condition =>
        have first := chained _ (passes.head? condition.ne_nil)
        rw [← Cursor.kind, kind_of_readBlock inside ran] at first
        cases first
  case statements =>
    intro fuel front indent cursor block after inside split opened ran
    obtain ⟨passed, passes, laid, stops⟩ :=
      (reads fuel).indented cursor block after inside trivial ran
    refine ⟨passed, passes, laid.nested, laid, stops.resolve_right fun last => ?_⟩
    -- At the end of the file nothing closes the block.
    rw [split, passes.rest, passes.rest_eq_nil inside unended last, List.append_nil] at nested
    obtain ⟨level, -, closes⟩ := nested.level?_suffix
    rw [level?_cons, layer?_indent opened, Option.bind_some, laid.nested.level?_eq] at closes
    cases closes
  case program =>
    intro program after ran
    exact program_laid nested unended values ends ran

end Grammar

/-- **The blocks of a program are the blocks of its tokens.**  In the tokens of a text, every
statement that is read closes the blocks it opens, every indented block ends with the `dedent`
that belongs to its own `indent`, and a program stands for all tokens before the end. -/
theorem Token.keepsBlocks_of_scan {text file : String} {tokens : List Token}
    (scanned : Token.scan text file = .ok tokens) :
    ∃ body stop, tokens = body ++ [stop] ∧ stop.kind = .eof ∧ Nested body ∧
      Grammar.KeepsBlocks file body stop := by
  obtain ⟨body, stop, rfl, ends, nested, unended⟩ := scan_nested scanned
  exact ⟨body, stop, rfl, ends, nested, Grammar.keepsBlocks nested unended ends⟩

namespace Token

/-- The tokens of a conditional on one line and its `else` block, but for the last one. -/
def choice : List Token :=
  [⟨.ifKw, "if", ⟨0, 2⟩⟩, ⟨.identifier, "x", ⟨3, 4⟩⟩, ⟨.colon, ":", ⟨4, 5⟩⟩,
    ⟨.identifier, "y", ⟨6, 7⟩⟩, ⟨.newline, "\n", ⟨7, 8⟩⟩, ⟨.elseKw, "else", ⟨8, 12⟩⟩,
    ⟨.colon, ":", ⟨12, 13⟩⟩, ⟨.newline, "\n", ⟨13, 14⟩⟩, ⟨.indent, "", ⟨16, 16⟩⟩,
    ⟨.identifier, "z", ⟨16, 17⟩⟩, ⟨.newline, "", ⟨17, 17⟩⟩, ⟨.dedent, "", ⟨17, 17⟩⟩]

/-- What they are read as. -/
def choiceProgram : Program :=
  ⟨[.conditional ⟨0, 17⟩ (.symbol ⟨3, 4⟩ "x") [.expression ⟨6, 7⟩ (.symbol ⟨6, 7⟩ "y")]
    [.expression ⟨16, 17⟩ (.symbol ⟨16, 17⟩ "z")]], ⟨0, 17⟩⟩

theorem scan_choice :
    scan "if x: y\nelse:\n\n z" "m.py" = .ok (choice ++ [layout .eof 17]) := by
  have steps : Layout.scanWithin 20 .initial "m.py" 0 "if x: y\nelse:\n\n z".toList =
      some (.ok (choice ++ [layout .eof 17])) := by
    with_unfolding_all rfl
  exact Layout.scanFrom_of_scanWithin steps

theorem program_choice :
    Parse.program (Cursor.ofTokens "m.py" false (choice ++ [layout .eof 17])) =
      .ok choiceProgram ⟨"m.py", false, layout .dedent 17, [], layout .eof 17⟩ := by
  with_unfolding_all rfl

/-- The conditional with an indented `else` clause takes all of its tokens. -/
theorem keepsBlocks_of_scan_choice :
    scan "if x: y\nelse:\n\n z" "m.py" = .ok (choice ++ [layout .eof 17]) ∧ Nested choice ∧
      Grammar.KeepsBlocks "m.py" choice (layout .eof 17) ∧
      Grammar.LaidOut (.body choiceProgram.body) choice := by
  obtain ⟨body, stop, split, -, nested, keeps⟩ := keepsBlocks_of_scan scan_choice
  obtain ⟨rfl, same⟩ := List.append_inj' split rfl
  cases same
  exact ⟨scan_choice, nested, keeps, (keeps.program _ _ program_choice).2⟩

end Token

end DocSketch
