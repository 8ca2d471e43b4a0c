import DocSketch.Proofs.Grammar.FramedReaders
import DocSketch.Proofs.Grammar.Statements

/-!
# Statements start and stop with tokens

A statement starts with its first token.  A simple one stops with the token gone past last, and
a compound one where the last statement inside it stops.

* `Grammar.edging`: this for all readers of statements.
* `Program.framed_of_hasNode`, `Program.edged_of_hasStmt`: the nodes and the statements of a
  program.
-/

namespace DocSketch

/-- The tokens of a cursor are among the given ones and stand one after another. -/
def Cursor.Listed (all : List Token) (cursor : Cursor) : Prop := ∃ lo, cursor.Placed all false lo

namespace Grammar

open Parse Stmt DocSketch.Expr

variable {α : Type} {all : List Token} {fuel start : Nat}

/-- The statement and all statements inside it start and stop with tokens. -/
abbrev Edges (all : List Token) (stmt : Stmt) : Prop := stmt.Throughout (·.span.Edged all)

/-- A token starts at a given place. -/
abbrev StartsAt (all : List Token) (start : Nat) : Prop := ∃ token ∈ all, token.span.start = start

/-- A cursor that goes past tokens stays among those listed. -/
theorem listed_guards (all : List Token) : Guards (Cursor.Listed all) Any where
  advance := by
    rintro cursor ⟨lo, placed⟩
    obtain ⟨hi, -, beyond⟩ := placed.advances
    exact ⟨hi, beyond⟩
  word _ _ _ := trivial

/-- What fits between places keeps what is known of its edges. -/
theorem Fits.keeps {reader : Parse α} {ended : Bool} {Post : Nat → α → Nat → Prop}
    {Good : α → Prop} (fits : ∀ lo, Fits all Anything false lo reader ended (Post lo))
    (good : ∀ lo value hi, Post lo value hi → Good value) :
    Keeps (Cursor.Listed all) Good reader := by
  rintro cursor value after ⟨lo, placed⟩ ran
  obtain ⟨hi, -, beyond, holds⟩ := fits lo cursor value after placed trivial ran
  exact ⟨⟨hi, beyond.free⟩, good lo value hi holds⟩

/-- The nodes of all expressions that are read in a program are framed. -/
theorem listed_premises (all : List Token) :
    Premises (Cursor.Listed all) Any (Everywhere (Framed all)) where
  toGuards := listed_guards all
  expr fuel level := Fits.keeps ((framing all fuel).expr level) fun _ _ _ lies => lies.framed
  tuple fuel level := Fits.keeps ((framing all fuel).tuple level) fun _ _ _ lies => lies.framed
  optional fuel mark listed := by
    have real : mark ≠ .eof := by
      rintro rfl
      simp at listed
    exact Fits.keeps ((framing all fuel).optional mark real false)
      fun _ _ _ lie e member => (lie e member).framed
  arguments fuel := Fits.keeps (framing all fuel).arguments
    fun _ _ _ lie e member => (lie e member).framed
  parameters fuel := Fits.keeps ((framing all fuel).parameters _ _ false)
    fun _ _ _ lie parameter member => ⟨trivial, fun e inside =>
      (lie e (List.mem_flatMap.mpr ⟨parameter, member, inside⟩)).framed⟩

/-- A place that is read is the start of a token. -/
theorem offset_listed : Keeps (Cursor.Listed all) (StartsAt all) offset := by
  rintro cursor start after ⟨lo, placed⟩ ran
  cases ran
  exact ⟨⟨lo, placed⟩, _, placed.current_mem, rfl⟩

/-- A token that is gone past is one of those listed. -/
theorem advance_listed : Keeps (Cursor.Listed all) (· ∈ all) advance := by
  intro cursor token after listed ran
  cases ran
  obtain ⟨lo, placed⟩ := listed
  exact ⟨(listed_guards all).advance cursor ⟨lo, placed⟩, placed.current_mem⟩

/-- A span that started with a token stops with the one gone past last. -/
theorem spanFrom_listed (starts : StartsAt all start) :
    Keeps (Cursor.Listed all) (Span.Edged all) (spanFrom start) := by
  rintro cursor span after ⟨lo, placed⟩ ran
  cases ran
  exact ⟨⟨lo, placed⟩, starts, _, placed.previous, rfl⟩

/-- A compound statement stops with a token, its own or that of its last body. -/
theorem compoundSpan_listed {bodies : List (List Stmt)} (starts : StartsAt all start)
    (inside : ∀ stmt ∈ bodies.flatten, Edges all stmt) :
    Keeps (Cursor.Listed all) (Span.Edged all) (compoundSpan start bodies) := by
  rw [compoundSpan, lastStop?_eq]
  cases last : bodies.flatten.getLast? with
  | none => exact spanFrom_listed starts
  | some stmt =>
      obtain ⟨edged, -⟩ := inside stmt (List.mem_of_getLast? last)
      exact .pure ⟨starts, edged.stops⟩

/-- A compound statement ends with its span. -/
theorem close_edges {bodies : List (List Stmt)} {build : Span → Stmt}
    (starts : StartsAt all start) (inside : ∀ stmt ∈ bodies.flatten, Edges all stmt)
    (span : ∀ span, (build span).span = span)
    (inner : ∀ span, (build span).inner = bodies.flatten) :
    Keeps (Cursor.Listed all) (Edges all) (do return build (← compoundSpan start bodies)) := by
  refine (compoundSpan_listed starts inside).bind fun found edged => .pure (.intro ?_ ?_)
  · rwa [span]
  · rwa [inner]

/-- A statement without bodies has edges if its span does. -/
theorem edges_bare {stmt : Stmt} (edged : stmt.span.Edged all) (simple : stmt.inner = []) :
    Edges all stmt := by
  refine .intro edged fun nested member => ?_
  rw [simple] at member
  cases member

/-- A simple statement ends with its span and the end of its line. -/
theorem finish_edges {build : Span → Stmt} (starts : StartsAt all start)
    (span : ∀ span, (build span).span = span) (simple : ∀ span, (build span).inner = []) :
    Keeps (Cursor.Listed all) (Edges all) (do
      let span ← spanFrom start
      endSimple
      return build span) := by
  refine (spanFrom_listed starts).bind fun found edged => ?_
  refine .andThen (endSimple_keeps (listed_guards all)) fun _ => .pure (edges_bare ?_ (simple _))
  rwa [span]

/-- An import of modules has edges. -/
theorem readImport_edges (fuel : Nat) :
    Keeps (Cursor.Listed all) (Edges all) (readImport fuel) :=
  advance_listed.bind fun token listed =>
    .andThen (readImports_keeps (listed_guards all) fuel) fun _ =>
      finish_edges ⟨token, listed, rfl⟩ (fun _ => rfl) fun _ => rfl

/-- An import of names has edges. -/
theorem readFromImport_edges (fuel : Nat) :
    Keeps (Cursor.Listed all) (Edges all) (readFromImport fuel) := by
  have guards := listed_guards all
  refine advance_listed.bind fun token listed => ?_
  have named : ∀ {module : String} {isWildcard : Bool} (names : List ImportName),
      Keeps (Cursor.Listed all) (Edges all) (do
        let span ← spanFrom token.span.start
        endSimple
        return .importFrom span module names isWildcard) :=
    fun _ => finish_edges ⟨token, listed, rfl⟩ (fun _ => rfl) fun _ => rfl
  have goesOn : ∀ {dots : String} (path : String), Keeps (Cursor.Listed all) (Edges all) (do
        let _ ← expect .importKw
        let isWildcard ← eat .star
        let names ← if isWildcard then pure [] else readImportList fuel
        let span ← spanFrom token.span.start
        endSimple
        return .importFrom span (dots ++ path) names isWildcard) := by
    intro dots path
    refine .andThen (expect_keeps guards _) fun _ => .andThen (eat_keeps guards _) fun _ => ?_
    exact .ite (.andThen (.pure trivial) named) (.andThen (readImportList_keeps guards fuel) named)
  refine .andThen (readLeadingDots_keeps guards fuel) fun _ => .andThen .kind fun _ => ?_
  exact .ite (.andThen (readDottedName_keeps guards fuel) goesOn) (.andThen (.pure trivial) goesOn)

/-- A `return` statement has edges. -/
theorem readReturn_edges (fuel : Nat) :
    Keeps (Cursor.Listed all) (Edges all) (readReturn fuel) := by
  refine advance_listed.bind fun token listed => .andThen .atExpression fun _ => ?_
  have ends : ∀ value : Option Expr, Keeps (Cursor.Listed all) (Edges all) (do
        let span ← spanFrom token.span.start
        endSimple
        return .ret span value) :=
    fun _ => finish_edges ⟨token, listed, rfl⟩ (fun _ => rfl) fun _ => rfl
  refine .ite (.andThen (readTuple_keeps (listed_guards all) fuel _) fun _ => ?_) ?_
  · exact .andThen (.pure trivial) ends
  · exact .andThen (.pure trivial) ends

/-- A `raise` statement has edges. -/
theorem readRaise_edges (fuel : Nat) :
    Keeps (Cursor.Listed all) (Edges all) (readRaise fuel) := by
  have guards := listed_guards all
  refine advance_listed.bind fun token listed => .andThen .atExpression fun _ => .ite ?_ ?_
  · refine .andThen (readExpr_keeps guards fuel _) fun _ => ?_
    refine .andThen (readOptional_keeps guards fuel _) fun _ => ?_
    exact finish_edges ⟨token, listed, rfl⟩ (fun _ => rfl) fun _ => rfl
  · exact finish_edges ⟨token, listed, rfl⟩ (fun _ => rfl) fun _ => rfl

/-- A keyword statement has edges. -/
theorem readKeyword_edges (fuel : Nat) :
    Keeps (Cursor.Listed all) (Edges all) (readKeyword fuel) := by
  refine advance_listed.bind fun token listed => ?_
  have ends : ∀ arguments : List Expr, Keeps (Cursor.Listed all) (Edges all) (do
        let span ← spanFrom token.span.start
        endSimple
        return .keyword span token.kind arguments) :=
    fun _ => finish_edges ⟨token, listed, rfl⟩ (fun _ => rfl) fun _ => rfl
  dsimp only
  split
  · exact .andThen (.pure trivial) ends
  · exact .andThen (.pure trivial) ends
  · exact .andThen (.pure trivial) ends
  · exact .andThen (readOperands_keeps (listed_premises all) fuel).forget ends

/-- Assignments and expressions have edges. -/
theorem readSimpleHead_edges (fuel : Nat) :
    Keeps (Cursor.Listed all) (Edges all) (readSimpleHead fuel) := by
  have guards := listed_guards all
  refine offset_listed.bind fun start starts => ?_
  refine ((listed_premises all).tuple fuel _).bind fun first framed => .andThen .kind fun next => ?_
  have ends : ∀ {build : Span → Stmt}, (∀ span, (build span).span = span) →
      (∀ span, (build span).inner = []) →
      Keeps (Cursor.Listed all) (Edges all) (do return build (← spanFrom start)) := by
    intro build span simple
    refine (spanFrom_listed starts).bind fun found edged => .pure (edges_bare ?_ (simple _))
    rwa [span]
  split
  · refine .andThen (readLinks_keeps (listed_premises all) fuel).forget fun _ => ?_
    refine .andThen (ensureAllAssignable_keeps _) fun _ => ?_
    exact ends (fun _ => rfl) fun _ => rfl
  · refine .andThen (advance_keeps guards) fun _ => .andThen (ensureAssignable_keeps _) fun _ => ?_
    refine .andThen (readExpr_keeps guards fuel _) fun _ => ?_
    refine .andThen (eat_keeps guards _) fun _ => ?_
    refine .ite (.andThen (readTuple_keeps guards fuel _) fun _ => ?_) ?_
    · exact .andThen (.pure trivial) fun _ => ends (fun _ => rfl) fun _ => rfl
    · exact .andThen (.pure trivial) fun _ => ends (fun _ => rfl) fun _ => rfl
  · refine .ite ?_ (.pure (edges_bare ?_ rfl))
    · refine .andThen (ensureAssignable_keeps _) fun _ => ?_
      refine .andThen (advance_keeps guards) fun _ => ?_
      exact .andThen (readTuple_keeps guards fuel _) fun _ => ends (fun _ => rfl) fun _ => rfl
    · obtain ⟨here, -⟩ := framed
      exact here.edged

/-- A simple statement has edges. -/
theorem readSimple_edges (fuel : Nat) : Keeps (Cursor.Listed all) (Edges all) (readSimple fuel) :=
  (readSimpleHead_edges fuel).bind fun _ edges =>
    .andThen (endSimple_keeps (listed_guards all)) fun _ => .pure edges

/-- All readers of statements, with a bound on how deeply they call each other: their statements
start and stop with tokens. -/
structure Edging (all : List Token) (fuel : Nat) : Prop where
  stmt : Keeps (Cursor.Listed all) (Edges all) (readStmt fuel)
  form : ∀ form, Keeps (Cursor.Listed all) (Edges all) (readForm fuel form)
  function : ∀ start decorators isAsync, StartsAt all start →
    Keeps (Cursor.Listed all) (Edges all) (readFunction fuel start decorators isAsync)
  classDef : ∀ start decorators, StartsAt all start →
    Keeps (Cursor.Listed all) (Edges all) (readClass fuel start decorators)
  decorated : Keeps (Cursor.Listed all) (Edges all) (readDecorated fuel)
  forLoop : ∀ start isAsync, StartsAt all start →
    Keeps (Cursor.Listed all) (Edges all) (readFor fuel start isAsync)
  withBlock : ∀ start isAsync, StartsAt all start →
    Keeps (Cursor.Listed all) (Edges all) (readWith fuel start isAsync)
  conditional : Keeps (Cursor.Listed all) (Edges all) (readConditional fuel)
  tryBlock : Keeps (Cursor.Listed all) (Edges all) (readTry fuel)
  handlers : Keeps (Cursor.Listed all)
    (fun handlers => ∀ stmt ∈ (handlers.map Handler.body).flatten, Edges all stmt)
    (readHandlers fuel)
  orelse : Keeps (Cursor.Listed all) (∀ stmt ∈ ·, Edges all stmt) (readElse fuel)
  block : Keeps (Cursor.Listed all) (∀ stmt ∈ ·, Edges all stmt) (readBlock fuel)
  indented : Keeps (Cursor.Listed all) (∀ stmt ∈ ·, Edges all stmt) (readIndented fuel)
  inline : Keeps (Cursor.Listed all) (∀ stmt ∈ ·, Edges all stmt) (readInline fuel)

section Compound

variable (ih : Edging all fuel)

include ih

/-- A function has edges, and so has what is in its body. -/
theorem function_edges (decorators : List Expr) (isAsync : Bool) (starts : StartsAt all start) :
    Keeps (Cursor.Listed all) (Edges all)
      (readFunction (fuel + 1) start decorators isAsync) := by
  rw [readFunction]
  refine .andThen (readSignature_keeps (listed_premises all) fuel).forget fun _ => ?_
  refine ih.block.bind fun body edges => close_edges starts ?_ (fun _ => rfl) fun _ => ?_
  · exact List.forall_mem_append.mpr ⟨edges, List.forall_mem_nil _⟩
  · exact (List.append_nil body).symm

/-- A class has edges, and so has what is in its body. -/
theorem classDef_edges (decorators : List Expr) (starts : StartsAt all start) :
    Keeps (Cursor.Listed all) (Edges all) (readClass (fuel + 1) start decorators) := by
  have guards := listed_guards all
  rw [readClass]
  refine .andThen (expect_keeps guards _) fun _ => .andThen (expect_keeps guards _) fun _ => ?_
  refine .andThen (readBases_keeps (listed_premises all) fuel).forget fun _ => ?_
  refine ih.block.bind fun body edges => close_edges starts ?_ (fun _ => rfl) fun _ => ?_
  · exact List.forall_mem_append.mpr ⟨edges, List.forall_mem_nil _⟩
  · exact (List.append_nil body).symm

/-- A decorated definition starts with its first decorator. -/
theorem decorated_edges : Keeps (Cursor.Listed all) (Edges all) (readDecorated (fuel + 1)) := by
  rw [readDecorated]
  refine offset_listed.bind fun start starts => ?_
  refine .andThen (readDecorators_keeps (listed_premises all) fuel).forget fun _ => ?_
  refine .andThen .kind fun _ => ?_
  split
  · exact ih.function _ _ _ starts
  · exact .andThen (advance_keeps (listed_guards all)) fun _ => ih.function _ _ _ starts
  · exact ih.classDef _ _ starts
  · exact .failHere _

/-- A `for` loop has edges, and so has what is in its bodies. -/
theorem forLoop_edges (isAsync : Bool) (starts : StartsAt all start) :
    Keeps (Cursor.Listed all) (Edges all) (readFor (fuel + 1) start isAsync) := by
  have guards := listed_guards all
  rw [readFor]
  refine .andThen (expect_keeps guards _) fun _ => ?_
  refine .andThen (readTuple_keeps guards fuel _) fun _ => ?_
  refine .andThen (expect_keeps guards _) fun _ => ?_
  refine .andThen (readTuple_keeps guards fuel _) fun _ => ?_
  refine ih.block.bind fun body first => ih.orelse.bind fun orelse second => ?_
  exact close_edges starts (throughout_flatten first second) (fun _ => rfl) fun _ => rfl

/-- A `with` block has edges, and so has what is in its body. -/
theorem withBlock_edges (isAsync : Bool) (starts : StartsAt all start) :
    Keeps (Cursor.Listed all) (Edges all) (readWith (fuel + 1) start isAsync) := by
  rw [readWith]
  refine .andThen (expect_keeps (listed_guards all) _) fun _ => ?_
  refine .andThen (readWithItems_keeps (listed_premises all) fuel).forget fun _ => ?_
  refine ih.block.bind fun body edges => close_edges starts ?_ (fun _ => rfl) fun _ => rfl
  exact List.forall_mem_append.mpr ⟨edges, List.forall_mem_nil _⟩

/-- A conditional has edges, and so have its branches. -/
theorem conditional_edges : Keeps (Cursor.Listed all) (Edges all) (readConditional (fuel + 1)) := by
  rw [readConditional]
  refine advance_listed.bind fun token listed => ?_
  refine .andThen (readExpr_keeps (listed_guards all) fuel _) fun test => ?_
  refine ih.block.bind fun body first => .andThen .kind fun _ => ?_
  have ends : ∀ orelse : List Stmt, (∀ stmt ∈ orelse, Edges all stmt) →
      Keeps (Cursor.Listed all) (Edges all) (do
        return .conditional (← compoundSpan token.span.start [body, orelse]) test body orelse) :=
    fun _ second => close_edges ⟨token, listed, rfl⟩ (throughout_flatten first second)
      (fun _ => rfl) fun _ => rfl
  refine .ite (ih.conditional.bind fun chained edges => ?_) (ih.orelse.bind ends)
  exact .bind (.pure (List.forall_mem_singleton.mpr edges)) ends

/-- A `try` block has edges, and so have its clauses. -/
theorem tryBlock_edges : Keeps (Cursor.Listed all) (Edges all) (readTry (fuel + 1)) := by
  rw [readTry]
  refine advance_listed.bind fun token listed => ih.block.bind fun body first => ?_
  refine ih.handlers.bind fun handlers caught => ih.orelse.bind fun orelse second => ?_
  have ends : ∀ finalbody : List Stmt, (∀ stmt ∈ finalbody, Edges all stmt) →
      Keeps (Cursor.Listed all) (Edges all) (do
        if handlers.isEmpty ∧ finalbody.isEmpty then
          failHere "expected `except` or `finally` after `try` block"
        else
          let span ← compoundSpan token.span.start
            (body :: handlers.map Handler.body ++ [orelse, finalbody])
          return .tryBlock span body handlers orelse finalbody) := by
    intro finalbody last
    refine .ite (.failHere _) (close_edges ⟨token, listed, rfl⟩ ?_ (fun _ => rfl) fun _ => rfl)
    rw [List.flatten_append]
    exact List.forall_mem_append.mpr
      ⟨List.forall_mem_append.mpr ⟨first, caught⟩, throughout_flatten second last⟩
  refine .andThen (eat_keeps (listed_guards all) _) fun _ => .ite (ih.block.bind ends) ?_
  exact .bind (.pure (List.forall_mem_nil _)) ends

/-- What is in handlers has edges. -/
theorem handlers_edges : Keeps (Cursor.Listed all)
    (fun handlers => ∀ stmt ∈ (handlers.map Handler.body).flatten, Edges all stmt)
    (readHandlers (fuel + 1)) := by
  have guards := listed_guards all
  rw [readHandlers]
  refine .andThen .kind fun _ => .ite ?_ (.pure (List.forall_mem_nil _))
  refine .andThen (advance_keeps guards) fun _ => .andThen (eat_keeps guards _) fun _ => ?_
  have goesOn : ∀ {start : Nat} (exception : Option Expr), Keeps (Cursor.Listed all)
      (fun handlers => ∀ stmt ∈ (handlers.map Handler.body).flatten, Edges all stmt) (do
        let name ← readAlias
        let body ← readBlock fuel
        let span ← compoundSpan start [body]
        let others ← readHandlers fuel
        return (⟨span, exception, name, body⟩ : Handler Stmt) :: others) := by
    intro start exception
    refine .andThen (readAlias_keeps guards) fun _ => ih.block.bind fun body edges => ?_
    refine .andThen (compoundSpan_keeps _ _) fun _ => ih.handlers.bind fun others caught => ?_
    exact .pure (List.forall_mem_append.mpr ⟨edges, caught⟩)
  refine .andThen .kind fun _ => .ite (.andThen (.pure trivial) goesOn) ?_
  refine .andThen (readExpr_keeps guards fuel _) fun exception => ?_
  exact .andThen (.pure trivial) goesOn

/-- What is in a block has edges. -/
theorem block_edges : Keeps (Cursor.Listed all) (∀ stmt ∈ ·, Edges all stmt)
    (readBlock (fuel + 1)) := by
  have guards := listed_guards all
  rw [readBlock]
  refine .andThen (expect_keeps guards _) fun _ => .andThen (eat_keeps guards _) fun _ => ?_
  refine .ite (.andThen (expectOr_keeps guards _ _).forget fun _ => ?_) ih.inline
  exact ih.indented.bind fun body edges => .andThen (eat_keeps guards _) fun _ => .pure edges

/-- What is in an indented block has edges. -/
theorem indented_edges : Keeps (Cursor.Listed all) (∀ stmt ∈ ·, Edges all stmt)
    (readIndented (fuel + 1)) := by
  rw [readIndented]
  refine .andThen .kind fun _ => ?_
  split
  · exact .pure (List.forall_mem_nil _)
  · exact .pure (List.forall_mem_nil _)
  · exact .andThen (advance_keeps (listed_guards all)) fun _ => ih.indented
  · refine ih.stmt.bind fun stmt edges => ih.indented.bind fun others rest => ?_
    exact .pure (List.forall_mem_cons.mpr ⟨edges, rest⟩)

/-- Statements on the line of their header have edges. -/
theorem inline_edges : Keeps (Cursor.Listed all) (∀ stmt ∈ ·, Edges all stmt)
    (readInline (fuel + 1)) := by
  rw [readInline]
  refine ih.stmt.bind fun stmt edges => .andThen .get fun _ => ?_
  refine .ite (ih.inline.bind fun others rest => ?_) (.pure (List.forall_mem_singleton.mpr edges))
  exact .pure (List.forall_mem_cons.mpr ⟨edges, rest⟩)

/-- Statements of every form have edges. -/
theorem form_edges (form : StatementForm) :
    Keeps (Cursor.Listed all) (Edges all) (readForm (fuel + 1) form) := by
  cases form <;> rw [readForm]
  case function => exact offset_listed.bind fun _ starts => ih.function _ _ _ starts
  case classDef => exact offset_listed.bind fun _ starts => ih.classDef _ _ starts
  case forLoop => exact offset_listed.bind fun _ starts => ih.forLoop _ _ starts
  case withBlock => exact offset_listed.bind fun _ starts => ih.withBlock _ _ starts
  case decorated => exact ih.decorated
  case async =>
    refine advance_listed.bind fun token listed => .andThen .kind fun _ => ?_
    have starts : StartsAt all token.span.start := ⟨token, listed, rfl⟩
    split
    · exact ih.function _ _ _ starts
    · exact ih.forLoop _ _ starts
    · exact ih.withBlock _ _ starts
    · exact .failHere _
  case conditional => exact ih.conditional
  case whileLoop =>
    refine advance_listed.bind fun token listed => ?_
    refine .andThen (readExpr_keeps (listed_guards all) fuel _) fun test => ?_
    refine ih.block.bind fun body first => ih.orelse.bind fun orelse second => ?_
    exact close_edges ⟨token, listed, rfl⟩ (throughout_flatten first second) (fun _ => rfl)
      fun _ => rfl
  case tryBlock => exact ih.tryBlock
  case ret => exact readReturn_edges fuel
  case raise => exact readRaise_edges fuel
  case importNames => exact readImport_edges fuel
  case importFrom => exact readFromImport_edges fuel
  case keyword => exact readKeyword_edges fuel

end Compound

theorem edging_zero : Edging all 0 where
  stmt := by rw [readStmt]; exact .giveUp
  form form := by rw [readForm]; exact .giveUp
  function start decorators isAsync _ := by rw [readFunction]; exact .giveUp
  classDef start decorators _ := by rw [readClass]; exact .giveUp
  decorated := by rw [readDecorated]; exact .giveUp
  forLoop start isAsync _ := by rw [readFor]; exact .giveUp
  withBlock start isAsync _ := by rw [readWith]; exact .giveUp
  conditional := by rw [readConditional]; exact .giveUp
  tryBlock := by rw [readTry]; exact .giveUp
  handlers := by rw [readHandlers]; exact .giveUp
  orelse := by rw [readElse]; exact .giveUp
  block := by rw [readBlock]; exact .giveUp
  indented := by rw [readIndented]; exact .giveUp
  inline := by rw [readInline]; exact .giveUp

/-- The statements that are read start and stop with tokens. -/
theorem edging (all : List Token) (fuel : Nat) : Edging all fuel := by
  induction fuel with
  | zero => exact edging_zero
  | succ fuel ih =>
      refine {
        stmt := ?_
        form := form_edges ih
        function := fun _ decorators isAsync => function_edges ih decorators isAsync
        classDef := fun _ decorators => classDef_edges ih decorators
        decorated := decorated_edges ih
        forLoop := fun _ isAsync => forLoop_edges ih isAsync
        withBlock := fun _ isAsync => withBlock_edges ih isAsync
        conditional := conditional_edges ih
        tryBlock := tryBlock_edges ih
        handlers := handlers_edges ih
        orelse := ?_
        block := block_edges ih
        indented := indented_edges ih
        inline := inline_edges ih }
      · rw [readStmt]
        refine .andThen .get fun _ => ?_
        split
        · exact ih.form _
        · exact readSimple_edges fuel
      · rw [readElse]
        exact .andThen (eat_keeps (listed_guards all) _) fun _ =>
          .ite ih.block (.pure (List.forall_mem_nil _))

/-- All statements of a program have edges. -/
theorem readProgram_edges (fuel : Nat) :
    Keeps (Cursor.Listed all) (∀ stmt ∈ ·, Edges all stmt) (readProgram fuel) := by
  induction fuel with
  | zero => exact .giveUp
  | succ fuel ih =>
      rw [readProgram]
      refine .andThen .kind fun _ => ?_
      split
      · exact .pure (List.forall_mem_nil _)
      · exact .andThen (advance_keeps (listed_guards all)) fun _ => ih
      · refine (edging all fuel).stmt.bind fun stmt edges => ih.bind fun others rest => ?_
        exact .pure (List.forall_mem_cons.mpr ⟨edges, rest⟩)

end Grammar

namespace Program

variable {file : String} {body : List Token} {stop : Token} {program : Program}

/-- A cursor before tokens that stand one after another. -/
theorem listed_ofTokens (ends : stop.kind = .eof)
    (spread : Token.Spread 0 body stop.span.start) :
    (Cursor.ofTokens file false (body ++ [stop])).Listed (body ++ [stop]) := by
  rw [Cursor.ofTokens_concat file false ends]
  have member : ∀ token ∈ body, token ∈ body ++ [stop] := fun _ => List.mem_append_left [stop]
  have last : stop ∈ body ++ [stop] := List.mem_append_right body List.mem_cons_self
  refine ⟨0, {
    full := rfl
    closed := ends
    ahead := spread
    since := Bool.noConfusion
    previous := ?_
    last := last
    rest := member }⟩
  cases body with
  | nil => exact last
  | cons token body => exact List.mem_cons_self

/-- Every node of a program starts and stops with tokens, and its parts lie in its span. -/
theorem framed_of_hasNode (ends : stop.kind = .eof)
    (spread : Token.Spread 0 body stop.span.start)
    (parsed : ofTokens file (body ++ [stop]) = .ok program) {e : Expr} (has : program.HasNode e) :
    e.Framed (body ++ [stop]) := by
  have framed : e.Everywhere (Expr.Framed (body ++ [stop])) := by
    induction has with
    | top has member =>
        have listed : (Cursor.ofTokens file false (body ++ [stop])).Listed (body ++ [stop]) :=
          listed_ofTokens ends spread
        exact (proper_of_hasStmt (Grammar.listed_premises _) listed parsed has).expressions _ member
    | part has member ih =>
        obtain ⟨-, inside⟩ := ih
        exact inside _ member
  obtain ⟨here, -⟩ := framed
  exact here

/-- Every statement of a program starts and stops with tokens. -/
theorem edged_of_hasStmt (ends : stop.kind = .eof)
    (spread : Token.Spread 0 body stop.span.start)
    (parsed : ofTokens file (body ++ [stop]) = .ok program) {stmt : Stmt}
    (has : program.HasStmt stmt) : stmt.span.Edged (body ++ [stop]) := by
  have reads : Parse.Keeps (Cursor.Listed (body ++ [stop]))
      (fun found => ∀ stmt ∈ found.body, Grammar.Edges (body ++ [stop]) stmt) Parse.program := by
    refine .andThen .get fun _ => (Grammar.readProgram_edges _).bind fun body edges => ?_
    exact .andThen .offset fun _ => .pure edges
  unfold ofTokens at parsed
  split at parsed
  case h_1 found next read =>
    cases parsed
    have known := (reads _ _ _ (listed_ofTokens ends spread) read).2
    obtain ⟨here, -⟩ := throughout_of_hasStmt known has
    exact here
  case h_2 => cases parsed

end Program

end DocSketch
