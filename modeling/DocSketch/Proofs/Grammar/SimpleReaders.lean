import DocSketch.Proofs.Grammar.Blocks
import DocSketch.Proofs.Grammar.Takes

/-!
# Simple statements that are read

A simple statement goes past tokens of one line, which neither open nor close a block.

* `Grammar.Begun`: tokens of which the first has a text of its own.
* `Grammar.Holds`: the tokens of some expressions stand among others.
* `Grammar.readSimple_laid`: what a statement without a keyword goes past, and
  `Grammar.readReturn_laid` and others for those with one.
-/

namespace DocSketch

namespace Grammar

open Parse Token Lexeme

/-- Kinds of tokens with a text of their own. -/
abbrev Visible (kind : TokenKind) : Prop := isLayoutKind kind = false

/-- Tokens with text are not the end. -/
theorem Visible.ne_eof {kind : TokenKind} (visible : Visible kind) : kind ≠ .eof := by
  rintro rfl
  cases visible

/-- Statements start with tokens that have text. -/
theorem visible_of_statement? {kind : TokenKind} {form : StatementForm}
    (starts : kind.statement? = some form) : Visible kind := by
  cases kind <;> first | rfl | cases starts

/-- The operators of augmented assignments have text. -/
theorem visible_of_isAugmentedAssignment {kind : TokenKind}
    (sign : kind.isAugmentedAssignment = true) : Visible kind := by
  cases kind <;> first | rfl | cases sign

variable {tokens : List Token} {At : TokenKind → Prop}

section Words

/-- The end of a simple statement opens no block. -/
theorem endSimple_level : Level tokens At Any endSimple := by
  refine .kind fun kind => ?_
  split
  · exact .step (fun _ here => here ▸ rfl) fun _ => .pure trivial
  · exact .step (fun _ here => here ▸ rfl) fun _ => .pure trivial
  · exact .pure trivial
  · exact .pure trivial
  · exact .failHere _

/-- The further parts of a dotted name stay in their line. -/
theorem readDots_level (fuel : Nat) : Level tokens At Any (readDots fuel) := by
  induction fuel generalizing At with
  | zero => exact .giveUp
  | succ fuel ih =>
      rw [readDots]
      refine .eat rfl fun _ => .ite ?_ (.pure trivial)
      exact .expect rfl fun _ => .bind ih fun _ => .pure trivial

/-- A dotted name stays in its line. -/
theorem readDottedName_level (fuel : Nat) : Level tokens At Any (readDottedName fuel) :=
  .expect rfl fun _ => .bind (readDots_level fuel) fun _ => .pure trivial

/-- The dots of a relative import stay in their line. -/
theorem readLeadingDots_level (fuel : Nat) : Level tokens At Any (readLeadingDots fuel) := by
  induction fuel generalizing At with
  | zero => exact .giveUp
  | succ fuel ih =>
      rw [readLeadingDots]
      refine .kind fun kind => ?_
      split
      · exact .step (fun _ here => here ▸ rfl) fun _ => .bind ih fun _ => .pure trivial
      · exact .step (fun _ here => here ▸ rfl) fun _ => .bind ih fun _ => .pure trivial
      · exact .pure trivial

/-- An alias stays in its line. -/
theorem readAlias_level : Level tokens At Any readAlias :=
  .eat rfl fun _ => .ite (.expect rfl fun _ => .pure trivial) (.pure trivial)

/-- Imported modules stay in their line. -/
theorem readImports_level (fuel : Nat) : Level tokens At Any (readImports fuel) := by
  induction fuel generalizing At with
  | zero => exact .giveUp
  | succ fuel ih =>
      rw [readImports]
      refine .bind (readDottedName_level fuel) fun _ => .bind readAlias_level fun _ => ?_
      exact .eat rfl fun _ => .ite (.bind ih fun _ => .pure trivial) (.pure trivial)

/-- Imported names stay in their line. -/
theorem readImportedNames_level (fuel : Nat) (inParens : Bool) :
    Level tokens At Any (readImportedNames fuel inParens) := by
  induction fuel generalizing At with
  | zero => exact .giveUp
  | succ fuel ih =>
      rw [readImportedNames]
      refine .expect rfl fun _ => .bind readAlias_level fun _ => ?_
      refine .eat rfl fun _ => .ite ?_ (.pure trivial)
      exact .kind fun _ => .ite (.pure trivial) (.bind ih fun _ => .pure trivial)

/-- A list of imported names stays in its line. -/
theorem readImportList_level (fuel : Nat) : Level tokens At Any (readImportList fuel) :=
  .eat rfl fun _ => .bind (readImportedNames_level fuel _) fun _ =>
    .ite (.expect rfl fun _ => .pure trivial) (.pure trivial)

/-- The operands of a keyword statement stay in its line. -/
theorem readOperands_level (fuel : Nat) : Level tokens At Any (readOperands fuel) := by
  induction fuel generalizing At with
  | zero => exact .giveUp
  | succ fuel ih =>
      rw [readOperands]
      refine .look fun _ => .ite ?_ (.pure trivial)
      refine .bind (.expr fuel _) fun _ => .eat rfl fun _ => .ite ?_ (.pure trivial)
      exact .bind ih fun _ => .pure trivial

/-- The items of a `with` block stay in its header. -/
theorem readWithItems_level (fuel : Nat) : Level tokens At Any (readWithItems fuel) := by
  induction fuel generalizing At with
  | zero => exact .giveUp
  | succ fuel ih =>
      have goesOn : ∀ {At : TokenKind → Prop} {context : Expr} (target : Option Expr),
          Level tokens At Any (do
            if ← eat .comma then
              let others ← readWithItems fuel
              return (⟨context, target⟩ : WithItem) :: others
            else
              return [⟨context, target⟩]) :=
        fun _ => .eat rfl fun _ => .ite (.bind ih fun _ => .pure trivial) (.pure trivial)
      rw [readWithItems]
      refine .bind (.expr fuel _) fun _ => .eat rfl fun _ => .ite ?_ ?_
      · exact .bind (.expr fuel _) fun _ => .bind (.pure trivial) goesOn
      · exact .bind (.pure trivial) goesOn

/-- Decorators open no block. -/
theorem readDecorators_level (fuel : Nat) : Level tokens At Any (readDecorators fuel) := by
  induction fuel generalizing At with
  | zero => exact .giveUp
  | succ fuel ih =>
      rw [readDecorators]
      refine .eat rfl fun _ => .ite ?_ (.pure trivial)
      refine .bind (.expr fuel _) fun _ => .expect rfl fun _ => ?_
      exact .takeAll rfl fun _ => .bind ih fun _ => .pure trivial

/-- Bases and keywords stay in the header of their class. -/
theorem readBases_level (fuel : Nat) : Level tokens At Any (readBases fuel) :=
  .eat rfl fun _ => .ite (.arguments fuel) (.pure trivial)

/-- A signature takes tokens of the header of its function. -/
theorem readSignature_takes (fuel : Nat) :
    Takes tokens At (readSignature fuel) fun passed _ _ => passed ≠ [] ∧ Flat passed := by
  refine .expect (by decide) fun token kind => ?_
  have others : Level tokens Anywhere Any (do
      let name ← expectOr .identifier "expected function name after `def`"
      let _ ← expect .openParen
      let parameters ← readParameters fuel .closeParen .positional
      let _ ← expect .closeParen
      let returns ← readOptional fuel .arrow
      return (name.value, (⟨parameters, returns⟩ : Signature))) :=
    .expectOr rfl fun _ => .expect rfl fun _ => .bind (.parameters fuel _) fun _ =>
      .expect rfl fun _ => .bind (.optional fuel rfl) fun _ => .pure trivial
  exact others.mono fun _ _ _ known => ⟨List.cons_ne_nil _ _, .cons (kind ▸ rfl) known.1⟩

/-- A check of a target goes past nothing. -/
theorem ensureAssignable_takes (target : Expr) :
    Takes tokens At (ensureAssignable target) fun passed next _ => passed = [] ∧ At next :=
  .ite (fun _ => .pure fun _ here => ⟨rfl, here⟩) fun _ => .failAt _ _

/-- Whether targets can be assigned to takes no token. -/
theorem ensureAllAssignable_takes (targets : List Expr) :
    Takes tokens At (ensureAllAssignable targets) fun passed next _ => passed = [] ∧ At next := by
  induction targets generalizing At with
  | nil => exact .pure fun _ here => ⟨rfl, here⟩
  | cons target targets ih =>
      refine .bind (ensureAssignable_takes target) fun _ passed next ⟨stays, here⟩ => ?_
      refine ih.mono fun later last _ ⟨still, same⟩ => ⟨by rw [stays, still]; rfl, same ▸ here⟩

end Words

variable {Value : Expr → List Token → Prop} {stmt : Stmt} {head more early passed : List Token}
  {start : Nat}

theorem Heads.append (heads : Heads Value stmt head) (flat : Flat more) :
    Heads Value stmt (head ++ more) where
  flat := heads.flat.append flat
  starts := by
    rw [starts_append]
    exact List.mem_append_left _ heads.starts
  value e given := by
    obtain ⟨front, own, back, rfl, known⟩ := heads.value e given
    exact ⟨front, own, back ++ more, by simp only [List.append_assoc], known⟩

/-- A statement that starts with a token of its own. -/
theorem Heads.ofFirst {token : Token} (visible : Visible token.kind) (flat : Flat more)
    (starts : stmt.span.start = token.span.start)
    (value : ∀ e, stmt.value? = some e →
      ∃ front own back, more = front ++ (own ++ back) ∧ Value e own) :
    Heads Value stmt (token :: more) where
  flat := .cons (TokenKind.isBorder_of_visible visible) flat
  starts := by
    rw [starts, Token.starts, List.filter_cons_of_pos (by rw [visible]; rfl)]
    exact List.mem_cons_self
  value e given := by
    obtain ⟨front, own, back, rfl, known⟩ := value e given
    exact ⟨token :: front, own, back, rfl, known⟩

/-- A statement without bodies. -/
theorem Laid.simple (heads : Heads Value stmt head) (bare : stmt.suites = []) :
    Laid Value (.stmt stmt) head := by
  rw [← List.append_nil head]
  refine .stmt heads ?_
  rw [bare]
  exact .nothing

/-- A statement that starts at the given place and has neither a value nor bodies. -/
structure Bare (start : Nat) (stmt : Stmt) : Prop where
  starts : stmt.span.start = start
  value : stmt.value? = none
  suites : stmt.suites = []

/-- The end of a simple statement. -/
theorem finish_takes {build : Span → Stmt} {Last : List Token → TokenKind → Stmt → Prop}
    (holds : ∀ later next stop, Flat later → Last later next (build ⟨start, stop⟩)) :
    Takes tokens At (do
        let span ← spanFrom start
        endSimple
        return build span) Last := by
  refine .spanFrom fun stop => .bind endSimple_level fun _ later _ ⟨flat, _⟩ => .pure fun _ _ => ?_
  rw [List.append_nil]
  exact holds _ _ _ flat

/-- A simple statement stays in its line. -/
theorem finish_level {Good : Stmt → Prop} {build : Span → Stmt}
    (good : ∀ stop, Good (build ⟨start, stop⟩)) :
    Level tokens At Good (do
      let span ← spanFrom start
      endSimple
      return build span) :=
  finish_takes fun _ _ stop flat => ⟨flat, good stop⟩

/-- A statement that is a keyword and what follows it. -/
theorem laid_of_bare {others : Token → Parse Stmt}
    (second : ∀ token, Level tokens Anywhere (Bare token.span.start) (others token)) :
    Takes tokens Visible (advance >>= others)
      fun passed _ stmt => Laid Value (.stmt stmt) passed := by
  refine .step (fun _ visible => visible.ne_eof) fun token visible => (second token).mono ?_
  intro later _ stmt ⟨flat, bare⟩
  refine .simple (.ofFirst visible flat bare.starts fun e given => ?_) bare.suites
  rw [bare.value] at given
  cases given

/-- An import of modules is laid out in its line. -/
theorem readImport_laid (fuel : Nat) :
    Takes tokens Visible (readImport fuel) fun passed _ stmt => Laid Value (.stmt stmt) passed :=
  laid_of_bare fun _ => .bind (readImports_level fuel) fun _ =>
    finish_level fun _ => ⟨rfl, rfl, rfl⟩

/-- An import of names is laid out in its line. -/
theorem readFromImport_laid (fuel : Nat) :
    Takes tokens Visible (readFromImport fuel)
      fun passed _ stmt => Laid Value (.stmt stmt) passed := by
  have named : ∀ {start : Nat} {module : String} {isWildcard : Bool} (names : List ImportName),
      Level tokens Anywhere (Bare start) (do
        let span ← spanFrom start
        endSimple
        return .importFrom span module names isWildcard) :=
    fun _ => finish_level fun _ => ⟨rfl, rfl, rfl⟩
  have goesOn : ∀ {At : TokenKind → Prop} {start : Nat} {dots : String} (path : String),
      Level tokens At (Bare start) (do
        let _ ← expect .importKw
        let isWildcard ← eat .star
        let names ← if isWildcard then pure [] else readImportList fuel
        let span ← spanFrom start
        endSimple
        return .importFrom span (dots ++ path) names isWildcard) := by
    intro At start dots path
    refine .expect rfl fun _ => .eat rfl fun _ => ?_
    exact .ite (.known (named _)) (.bind (readImportList_level fuel) named)
  refine laid_of_bare fun _ => .bind (readLeadingDots_level fuel) fun _ => .kind fun _ => ?_
  exact .ite (.bind (readDottedName_level fuel) goesOn) (.known (goesOn _))

/-- A `raise` statement is laid out in its line. -/
theorem readRaise_laid (fuel : Nat) :
    Takes tokens Visible (readRaise fuel) fun passed _ stmt => Laid Value (.stmt stmt) passed := by
  refine laid_of_bare fun _ => .look fun _ => .ite ?_ ?_
  · refine .bind (.expr fuel _) fun _ => .bind (.optional fuel rfl) fun _ => ?_
    exact finish_level fun _ => ⟨rfl, rfl, rfl⟩
  · exact finish_level fun _ => ⟨rfl, rfl, rfl⟩

/-- A keyword statement is laid out in its line. -/
theorem readKeyword_laid (fuel : Nat) :
    Takes tokens Visible (readKeyword fuel)
      fun passed _ stmt => Laid Value (.stmt stmt) passed := by
  have ends : ∀ {token : Token} (arguments : List Expr),
      Level tokens Anywhere (Bare token.span.start) (do
        let span ← spanFrom token.span.start
        endSimple
        return .keyword span token.kind arguments) :=
    fun _ => finish_level fun _ => ⟨rfl, rfl, rfl⟩
  refine laid_of_bare fun token => ?_
  dsimp only
  split
  · exact .known (ends _)
  · exact .known (ends _)
  · exact .known (ends _)
  · exact .bind (readOperands_level fuel) ends

/-- The first token has a text of its own. -/
def Begun (passed : List Token) : Prop := ∃ token ∈ passed.head?, Visible token.kind

theorem Begun.append (begun : Begun passed) (later : List Token) : Begun (passed ++ later) := by
  cases passed with
  | nil =>
      obtain ⟨token, member, -⟩ := begun
      cases member
  | cons token passed => exact begun

/-- Tokens start where the first of them starts. -/
theorem Begun.starts (begun : Begun passed)
    (first : ∀ token ∈ passed.head?, token.span.start = start) : start ∈ Token.starts passed := by
  obtain ⟨token, member, visible⟩ := begun
  obtain ⟨later, rfl⟩ : ∃ later, passed = token :: later := List.head?_eq_some_iff.mp member
  rw [← first token member, Token.starts, List.filter_cons_of_pos (by rw [visible]; rfl)]
  exact List.mem_cons_self

/-- An expression starts with one of its tokens. -/
theorem readTuple_begun (fuel : Nat) (level : Power) :
    Takes tokens At (readTuple fuel level) fun passed _ e =>
      Begun passed ∧ e.span.start ∈ Token.starts passed := by
  cases fuel with
  | zero =>
      rw [readTuple]
      exact .giveUp
  | succ fuel =>
      rw [readTuple]
      refine .bind ((retraces tokens fuel).expr level).takes fun first own _ taken => ?_
      have visible := taken.spans.plain
      have begun : Begun own := by
        obtain ⟨token, member⟩ := Option.isSome_iff_exists.mp
          (List.isSome_head?.mpr taken.spans.ne_nil)
        exact ⟨token, member, visible token (List.mem_of_mem_head? member)⟩
      have begins : first.span.start ∈ Token.starts own := by
        obtain ⟨token, member, -, starts⟩ := taken.spans.startsIn rfl
        rw [starts_of_visible visible, ← starts]
        exact List.mem_map_of_mem member
      have holds : ∀ later, Begun (own ++ later) ∧
          first.span.start ∈ Token.starts (own ++ later) := by
        intro later
        rw [starts_append]
        exact ⟨begun.append later, List.mem_append_left _ begins⟩
      refine .kind fun _ _ => .ite (fun _ => ?_) fun _ => .pure fun _ _ => holds []
      refine .bind ((retraces tokens fuel).tupleRest level).takes fun others later _ _ => ?_
      exact .spanFrom fun stop => .pure fun _ _ => holds _

/-- The tokens of some expressions stand among others. -/
def Holds (Value : Expr → List Token → Prop) (es : List Expr) (passed : List Token) : Prop :=
  ∀ e ∈ es, ∃ front own back, passed = front ++ (own ++ back) ∧ Value e own

theorem Holds.nil : Holds Value [] passed := fun _ member => by cases member

/-- A value that stands at the start of tokens. -/
theorem Holds.here {e : Expr} (known : Value e passed) (back : List Token) :
    Holds Value [e] (passed ++ back) := by
  intro other member
  cases List.mem_singleton.mp member
  exact ⟨[], passed, back, rfl, known⟩

/-- Tokens behind those that hold values. -/
theorem Holds.before {es : List Expr} (holds : Holds Value es passed) (back : List Token) :
    Holds Value es (passed ++ back) := by
  intro e member
  obtain ⟨front, own, behind, rfl, known⟩ := holds e member
  exact ⟨front, own, behind ++ back, by simp only [List.append_assoc], known⟩

/-- Tokens before those that hold values. -/
theorem Holds.behind {es : List Expr} (front : List Token) (holds : Holds Value es passed) :
    Holds Value es (front ++ passed) := by
  intro e member
  obtain ⟨before, own, back, rfl, known⟩ := holds e member
  exact ⟨front ++ before, own, back, by simp only [List.append_assoc], known⟩

theorem Holds.cons {e : Expr} {es : List Expr} (known : Value e passed)
    (others : Holds Value es more) : Holds Value (e :: es) (passed ++ more) :=
  List.forall_mem_cons.mpr ⟨⟨[], passed, more, rfl, known⟩, others.behind passed⟩

/-- A simple statement that starts with an expression, either where its first token starts or
where another one does. -/
structure Begins (Value : Expr → List Token → Prop) (start : Nat) (stmt : Stmt)
    (passed : List Token) : Prop where
  flat : Flat passed
  begun : Begun passed
  value : Holds Value stmt.value?.toList passed
  bare : stmt.suites = []
  starts : stmt.span.start = start ∨ stmt.span.start ∈ Token.starts passed

/-- A statement starts at the place where its reader does. -/
theorem opening_takes {others : Nat → Parse Stmt}
    (second : ∀ start, Takes tokens At (others start)
      fun passed _ stmt => Begins Value start stmt passed) :
    Takes tokens At (offset >>= others) fun passed _ stmt =>
      Heads Value stmt passed ∧ stmt.suites = [] := by
  refine (Takes.offset second).mono ?_
  intro passed _ stmt ⟨start, first, begins⟩
  refine ⟨⟨begins.flat, ?_, fun e given => begins.value e ?_⟩, begins.bare⟩
  · obtain starts | starts := begins.starts
    · exact starts ▸ begins.begun.starts first
    · exact starts
  · rw [given]
    exact List.mem_singleton.mpr rfl

section Values

-- What is known of the values that are read, wherever they stand.
variable (values : ∀ fuel level,
  Runs tokens (readTuple fuel level) fun passed _ e => Value e passed)

include values

/-- A tuple without parentheses takes tokens of its line. -/
theorem readTuple_takes (fuel : Nat) (level : Power) :
    Takes tokens At (readTuple fuel level) fun passed _ e => Flat passed ∧ Value e passed :=
  (Level.tuple fuel level).both (values fuel level).takes |>.mono
    fun _ _ _ holds => ⟨holds.1.1, holds.2⟩

/-- A `return` statement is laid out in its line. -/
theorem readReturn_laid (fuel : Nat) :
    Takes tokens Visible (readReturn fuel)
      fun passed _ stmt => Laid Value (.stmt stmt) passed := by
  refine .step (fun _ visible => visible.ne_eof) fun token visible => .look fun _ => ?_
  refine .ite (fun _ => ?_) fun _ => .known ?_
  · refine .bind (readTuple_takes values fuel _) fun value own _ ⟨flat, known⟩ => .known ?_
    refine finish_takes fun later _ _ ends => ?_
    refine .simple (.ofFirst visible (flat.append ends) rfl fun e given => ?_) rfl
    cases given
    exact ⟨[], own, later, rfl, known⟩
  · refine finish_takes fun later _ _ ends => ?_
    exact .simple (.ofFirst visible ends rfl fun e given => by cases given) rfl

/-- The links of a chain of assignments hold the values in it. -/
theorem readLinks_takes (fuel : Nat) :
    Takes tokens At (readLinks fuel) fun passed _ links =>
      Flat passed ∧ Holds Value links passed := by
  induction fuel generalizing At with
  | zero => exact .giveUp
  | succ fuel ih =>
      rw [readLinks]
      refine .eat (by decide) (fun token kind => ?_)
        (.pure fun _ _ => ⟨.nil, fun _ member => by cases member⟩)
      refine .bind (readTuple_takes values fuel _) ?_
      rintro link own _ ⟨flat, known⟩
      refine .bind ih ?_
      rintro links later _ ⟨more, others⟩
      refine .pure fun _ _ => ?_
      rw [List.append_nil]
      refine ⟨.cons (kind ▸ rfl) (flat.append more), .behind [token] ?_⟩
      exact .cons known others

/-- Assignments and expressions hold their values and have no bodies. -/
theorem readSimpleHead_takes (fuel : Nat) :
    Takes tokens At (readSimpleHead fuel) fun passed _ stmt =>
      Heads Value stmt passed ∧ stmt.suites = [] := by
  refine opening_takes fun start => ?_
  refine .bind ((readTuple_takes values fuel _).both (readTuple_begun fuel _))
    fun first own _ ⟨⟨flat, known⟩, begun, starts⟩ => .kind fun next _ => ?_
  split
  · refine .bind (readLinks_takes values fuel) fun links later _ ⟨more, others⟩ => ?_
    refine .bind (ensureAllAssignable_takes _) ?_
    rintro _ _ _ ⟨rfl, -⟩
    refine .spanFrom fun stop => .pure fun _ _ => ?_
    refine ⟨flat.append (more.append .nil), begun.append _, ?_, rfl, .inl rfl⟩
    have chain : Holds Value (first :: links) (own ++ (later ++ [])) :=
      .cons known (others.before _)
    exact fun e last => chain e (List.mem_of_getLast? (Option.mem_toList.mp last))
  · refine .step (fun _ here => here ▸ by decide) fun colon here => ?_
    refine .bind (ensureAssignable_takes _) ?_
    rintro _ _ _ ⟨rfl, -⟩
    refine .bind (Level.expr fuel _) fun type typed _ ⟨more, _⟩ => ?_
    have words : ∀ {later : List Token}, Flat later →
        Flat (own ++ colon :: (typed ++ later)) := fun last =>
      flat.append (.cons (here ▸ rfl) (more.append last))
    refine .eat (by decide) (fun equals sign => ?_) (.known (.spanFrom fun stop => .pure ?_))
    · refine .bind (readTuple_takes values fuel _) fun value later _ ⟨last, known⟩ => ?_
      refine .known (.spanFrom fun stop => .pure fun _ _ => ⟨?_, begun.append _, ?_, rfl, .inl rfl⟩)
      · exact words (.cons (sign ▸ rfl) (last.append .nil))
      · have holds := ((Holds.here known []).behind [equals]).behind typed
        exact (holds.behind [colon]).behind own
    · exact fun _ _ => ⟨words .nil, begun.append _, .nil, rfl, .inl rfl⟩
  · refine .ite (fun sign => ?_) fun _ => .pure fun _ _ => ?_
    · refine .bind (ensureAssignable_takes _) ?_
      rintro _ _ _ ⟨rfl, rfl⟩
      have inside := visible_of_isAugmentedAssignment sign
      refine .step (fun _ here => here ▸ inside.ne_eof) fun operator here => ?_
      refine .bind (readTuple_takes values fuel _) fun value later _ ⟨last, known⟩ => ?_
      refine .spanFrom fun stop => .pure fun _ _ => ⟨?_, begun.append _, ?_, rfl, .inl rfl⟩
      · refine flat.append (.cons (TokenKind.isBorder_of_visible ?_) (last.append .nil))
        rw [here]
        exact inside
      · exact ((Holds.here known []).behind [operator]).behind own
    · rw [List.append_nil]
      refine ⟨flat, begun, ?_, rfl, .inr starts⟩
      have holds := Holds.here known []
      rwa [List.append_nil] at holds

/-- A simple statement is laid out in its line. -/
theorem readSimple_laid (fuel : Nat) :
    Takes tokens At (readSimple fuel) fun passed _ stmt => Laid Value (.stmt stmt) passed := by
  refine .bind (readSimpleHead_takes values fuel) fun stmt passed _ ⟨heads, bare⟩ => ?_
  refine .bind endSimple_level fun _ later _ ⟨flat, _⟩ => .pure fun _ _ => ?_
  rw [List.append_nil]
  exact .simple (heads.append flat) bare

end Values

end Grammar

end DocSketch
