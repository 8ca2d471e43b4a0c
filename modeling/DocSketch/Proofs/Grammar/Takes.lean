import DocSketch.Proofs.Grammar.Restoration
import DocSketch.Proofs.Token.Nesting

/-!
# What readers go past

A reader that stands before a token of a given kind and succeeds has gone past some tokens.
What is known of these, of the token behind them and of the result is put together from the
steps of the reader.

* `Grammar.Takes`: what is known of every run of a reader, with a rule for every step that a
  reader can take.
* `Grammar.Level`: a reader goes past tokens that neither open nor close a block.
-/

namespace DocSketch

/-- A cursor at the end of the file has no tokens ahead. -/
theorem Cursor.Passes.rest_eq_nil {tokens passed : List Token} {cursor after : Cursor}
    (passes : cursor.Passes passed after) (inside : cursor.Within tokens)
    (unended : ∀ token ∈ tokens, token.kind ≠ .eof) (ends : after.kind = .eof) :
    after.rest = [] := by
  obtain ⟨front, split⟩ := inside.suffix
  cases rest : after.rest with
  | nil => rfl
  | cons token others =>
      have current : after.kind = token.kind := by
        rw [Cursor.kind, Cursor.current, rest]
        rfl
      refine absurd (current.symm.trans ends) (unended token ?_)
      rw [split, passes.rest, rest]
      simp

namespace Grammar

open Parse Token

variable {α β : Type} {tokens : List Token} {At Other : TokenKind → Prop} {reader : Parse α}
  {others : α → Parse β} {yes no : Parse β} {Post Weak : List Token → TokenKind → α → Prop}
  {Last : List Token → TokenKind → β → Prop} {expected : TokenKind}

/-- Where the current token is of one of the given kinds, every run of the reader goes past
tokens of which the statement holds, with the kind of the token that follows them and the
result. -/
def Takes (tokens : List Token) (At : TokenKind → Prop) (reader : Parse α)
    (Post : List Token → TokenKind → α → Prop) : Prop :=
  ∀ cursor value after, cursor.Within tokens → At cursor.kind → reader cursor = .ok value after →
    ∃ passed, cursor.Passes passed after ∧ Post passed after.kind value

/-- Tokens of all kinds. -/
abbrev Anywhere (_ : TokenKind) : Prop := True

/-- What goes past tokens takes them. -/
theorem Runs.takes (runs : Runs tokens reader Post) : Takes tokens At reader Post :=
  fun cursor value after inside _ ran => runs cursor value after inside ran

namespace Takes

theorem mono (takes : Takes tokens At reader Post)
    (weaker : ∀ passed next value, Post passed next value → Weak passed next value) :
    Takes tokens At reader Weak := by
  intro cursor value after inside here ran
  obtain ⟨passed, passes, holds⟩ := takes cursor value after inside here ran
  exact ⟨passed, passes, weaker _ _ _ holds⟩

/-- Fewer kinds of tokens to stand at. -/
theorem narrow (takes : Takes tokens At reader Post) (narrower : ∀ kind, Other kind → At kind) :
    Takes tokens Other reader Post :=
  fun cursor value after inside here ran =>
    takes cursor value after inside (narrower _ here) ran

/-- A reader that takes from everywhere takes from a kind. -/
theorem anywhere (takes : Takes tokens Anywhere reader Post) : Takes tokens At reader Post :=
  takes.narrow fun _ _ => trivial

/-- Two things that are known of the same runs. -/
theorem both {Second : List Token → TokenKind → α → Prop} (first : Takes tokens At reader Post)
    (second : Takes tokens At reader Second) :
    Takes tokens At reader fun passed next value =>
      Post passed next value ∧ Second passed next value := by
  intro cursor value after inside here ran
  obtain ⟨passed, passes, holds⟩ := first cursor value after inside here ran
  obtain ⟨again, same, known⟩ := second cursor value after inside here ran
  obtain rfl : passed = again := List.append_cancel_right (passes.rest.symm.trans same.rest)
  exact ⟨passed, passes, holds, known⟩

/-- The first token that is gone past is of one of the given kinds. -/
theorem lead (takes : Takes tokens At reader Post) :
    Takes tokens At reader fun passed next value =>
      Post passed next value ∧ ∀ token ∈ passed.head?, At token.kind := by
  intro cursor value after inside here ran
  obtain ⟨passed, passes, holds⟩ := takes cursor value after inside here ran
  refine ⟨passed, passes, holds, fun token member => ?_⟩
  have nonempty : passed ≠ [] := by
    rintro rfl
    cases member
  cases (passes.head? nonempty).symm.trans member
  exact here

/-- Where a reader stops at the end of the file, the tokens that it went past close all blocks
that were open before. -/
theorem atEnd (nested : Nested tokens) (unended : ∀ token ∈ tokens, token.kind ≠ .eof)
    (takes : Takes tokens At reader Post) :
    Takes tokens At reader fun passed next value =>
      Post passed next value ∧ (next = .eof → ∃ level, level? level passed = some 0) := by
  intro cursor value after inside here ran
  obtain ⟨passed, passes, holds⟩ := takes cursor value after inside here ran
  obtain ⟨front, split⟩ := inside.suffix
  refine ⟨passed, passes, holds, fun ends => ?_⟩
  rw [split, passes.rest, passes.rest_eq_nil inside unended ends, List.append_nil] at nested
  obtain ⟨level, -, closes⟩ := nested.level?_suffix
  exact ⟨level, closes⟩

theorem pure {value : α} (holds : ∀ next, At next → Post [] next value) :
    Takes tokens At (pure value : Parse α) Post := by
  intro cursor result after _ here ran
  cases ran
  exact ⟨[], .none cursor, holds _ here⟩

/-- One reader after the other takes what both take. -/
theorem bind (first : Takes tokens At reader Post)
    (second : ∀ value passed next, Post passed next value →
      Takes tokens (· = next) (others value)
        fun later last result => Last (passed ++ later) last result) :
    Takes tokens At (reader >>= others) Last := by
  intro cursor result after inside here ran
  obtain ⟨value, middle, read, ran⟩ := ran_bind ran
  obtain ⟨passed, passes, holds⟩ := first cursor value middle inside here read
  obtain ⟨later, onwards, known⟩ :=
    second value passed _ holds middle result after (passes.within inside) rfl ran
  exact ⟨passed ++ later, passes.trans onwards, known⟩

/-- A result that is known without going on. -/
theorem known {value : α} (second : Takes tokens At (others value) Last) :
    Takes tokens At (Pure.pure value >>= others) Last :=
  fun cursor result after inside here ran => second cursor result after inside here ran

/-- Both branches of a decision take as much. -/
theorem ite {condition : Prop} [Decidable condition] {first second : Parse α}
    (yes : condition → Takes tokens At first Post) (no : ¬condition → Takes tokens At second Post) :
    Takes tokens At (if condition then first else second) Post := by
  split
  case isTrue holds => exact yes holds
  case isFalse fails => exact no fails

/-- Only looking at the cursor. -/
theorem look {look : Cursor → α} (second : ∀ value, Takes tokens At (others value) Last) :
    Takes tokens At ((do return look (← get) : Parse α) >>= others) Last :=
  fun cursor result after inside here ran => second _ cursor result after inside here ran

theorem get {others : Cursor → Parse β} (second : ∀ cursor, Takes tokens At (others cursor) Last) :
    Takes tokens At (get >>= others) Last :=
  fun cursor result after inside here ran => second _ cursor result after inside here ran

/-- Where the reader stands is where the first token starts that it goes past. -/
theorem offset {others : Nat → Parse β} {Known : Nat → List Token → TokenKind → β → Prop}
    (second : ∀ start, Takes tokens At (others start) (Known start)) :
    Takes tokens At (offset >>= others) fun passed last result =>
      ∃ start, (∀ token ∈ passed.head?, token.span.start = start) ∧
        Known start passed last result := by
  intro cursor result after inside here ran
  obtain ⟨passed, passes, known⟩ := second _ cursor result after inside here (ran_offset ran)
  refine ⟨passed, passes, _, fun token member => ?_, known⟩
  have nonempty : passed ≠ [] := by
    rintro rfl
    cases member
  cases (passes.head? nonempty).symm.trans member
  rfl

/-- Looking at the place takes no token. -/
theorem spanFrom {start : Nat} {others : Span → Parse β}
    (second : ∀ stop, Takes tokens At (others ⟨start, stop⟩) Last) :
    Takes tokens At (spanFrom start >>= others) Last :=
  fun cursor result after inside here ran => second _ cursor result after inside here ran

/-- Looking at the kind ahead takes no token. -/
theorem kind {others : TokenKind → Parse β}
    (second : ∀ kind, At kind → Takes tokens (· = kind) (others kind) Last) :
    Takes tokens At (kind >>= others) Last :=
  fun cursor result after inside here ran => second _ here cursor result after inside rfl ran

/-- A reader that fails takes nothing. -/
theorem failAt (cause : Cause) (offset : Nat) :
    Takes tokens At (failAt cause offset : Parse α) Post :=
  fun _ _ _ _ _ ran => by cases ran

/-- The same for a failure at the current token. -/
theorem failHere (message : String) : Takes tokens At (failHere message : Parse α) Post :=
  fun _ _ _ _ _ ran => by cases ran

/-- The same for a reader without steps. -/
theorem giveUp : Takes tokens At (giveUp : Parse α) Post :=
  fun _ _ _ _ _ ran => by cases ran

/-- Going past a token. -/
theorem step {others : Token → Parse β} (goesOn : ∀ kind, At kind → kind ≠ .eof)
    (second : ∀ token, At token.kind → Takes tokens Anywhere (others token)
      fun later last result => Last (token :: later) last result) :
    Takes tokens At (advance >>= others) Last := by
  intro cursor result after inside here ran
  obtain ⟨token, middle, kind, passes, ran⟩ := ran_advance inside (goesOn _ here) ran
  obtain ⟨later, onwards, known⟩ :=
    second token (kind ▸ here) middle result after (passes.within inside) trivial ran
  exact ⟨token :: later, passes.trans onwards, known⟩

/-- A token that is asked for is taken. -/
theorem expectOr {others : Token → Parse β} {message : String} (real : expected ≠ .eof)
    (second : ∀ token, token.kind = expected → Takes tokens Anywhere (others token)
      fun later last result => Last (token :: later) last result) :
    Takes tokens At (expectOr expected message >>= others) Last := by
  intro cursor result after inside _ ran
  obtain ⟨token, middle, kind, passes, ran⟩ := ran_expectOr inside real ran
  obtain ⟨later, onwards, known⟩ :=
    second token kind middle result after (passes.within inside) trivial ran
  exact ⟨token :: later, passes.trans onwards, known⟩

/-- The same for a token that is asked for without a message of its own. -/
theorem expect {others : Token → Parse β} (real : expected ≠ .eof)
    (second : ∀ token, token.kind = expected → Takes tokens Anywhere (others token)
      fun later last result => Last (token :: later) last result) :
    Takes tokens At (expect expected >>= others) Last :=
  expectOr real second

/-- A token that is looked for is taken if it is there. -/
theorem eat {others : Bool → Parse β} (real : expected ≠ .eof)
    (eaten : ∀ token, token.kind = expected → Takes tokens Anywhere (others true)
      fun later last result => Last (token :: later) last result)
    (absent : Takes tokens (fun kind => At kind ∧ kind ≠ expected) (others false) Last) :
    Takes tokens At (eat expected >>= others) Last := by
  intro cursor result after inside here ran
  obtain ⟨token, middle, kind, passes, ran⟩ | ⟨other, ran⟩ := ran_eat inside real ran
  · obtain ⟨later, onwards, known⟩ :=
      eaten token kind middle result after (passes.within inside) trivial ran
    exact ⟨token :: later, passes.trans onwards, known⟩
  · exact absent cursor result after inside ⟨here, other⟩ ran

/-- All tokens of a kind are taken. -/
theorem takeAll {others : List String → Parse β} (real : expected ≠ .eof)
    (second : ∀ taken, (∀ token ∈ taken, token.kind = expected) →
      Takes tokens Anywhere (others (taken.map Token.value))
        fun later last result => Last (taken ++ later) last result) :
    Takes tokens At (takeAll expected >>= others) Last := by
  intro cursor result after inside _ ran
  obtain ⟨taken, middle, kinds, -, passes, ran⟩ := ran_takeAll inside real ran
  obtain ⟨later, onwards, known⟩ :=
    second taken kinds middle result after (passes.within inside) trivial ran
  exact ⟨taken ++ later, passes.trans onwards, known⟩

end Takes

/-- The reader only goes past tokens that neither open nor close a block, and gives a good
result. -/
abbrev Level (tokens : List Token) (At : TokenKind → Prop) (Good : α → Prop) (reader : Parse α) :
    Prop :=
  Takes tokens At reader fun passed _ value => Flat passed ∧ Good value

/-- The end is a border of a line. -/
theorem ne_eof_of_inside {kind : TokenKind} (inside : kind.isBorder = false) : kind ≠ .eof := by
  rintro rfl
  cases inside

namespace Level

variable {Good : α → Prop} {Fine : β → Prop}

theorem pure {value : α} (good : Good value) : Level tokens At Good (pure value : Parse α) :=
  Takes.pure fun _ _ => ⟨.nil, good⟩

/-- One reader after the other stays in the line. -/
theorem bind (first : Level tokens At Any reader)
    (second : ∀ value, Level tokens Anywhere Fine (others value)) :
    Level tokens At Fine (reader >>= others) :=
  Takes.bind first fun value _ _ read =>
    (second value).anywhere.mono fun _ _ _ known => ⟨read.1.append known.1, known.2⟩

/-- A result that is known takes nothing. -/
theorem known {value : α} (second : Level tokens At Fine (others value)) :
    Level tokens At Fine (Pure.pure value >>= others) :=
  Takes.known second

/-- Looking at the kind ahead stays in the line. -/
theorem kind {others : TokenKind → Parse β}
    (second : ∀ kind, Level tokens (· = kind) Fine (others kind)) :
    Level tokens At Fine (kind >>= others) :=
  Takes.kind fun kind _ => second kind

/-- Looking at the cursor stays in the line. -/
theorem look {look : Cursor → α} (second : ∀ value, Level tokens At Fine (others value)) :
    Level tokens At Fine ((do return look (← get) : Parse α) >>= others) :=
  Takes.look second

/-- Going past a token that is no border stays in the line. -/
theorem step {others : Token → Parse β} (inside : ∀ kind, At kind → kind.isBorder = false)
    (second : ∀ token, Level tokens Anywhere Fine (others token)) :
    Level tokens At Fine (advance >>= others) := by
  exact Takes.step (fun kind here => ne_eof_of_inside (inside kind here)) fun token here =>
    (second token).mono fun _ _ _ known => ⟨.cons (inside _ here) known.1, known.2⟩

/-- Asking for a token that is no border stays in the line. -/
theorem expectOr {others : Token → Parse β} {message : String} (inside : expected.isBorder = false)
    (second : ∀ token, Level tokens Anywhere Fine (others token)) :
    Level tokens At Fine (expectOr expected message >>= others) := by
  have real := ne_eof_of_inside inside
  exact Takes.expectOr real fun token kind =>
    (second token).mono fun _ _ _ known => ⟨.cons (kind ▸ inside) known.1, known.2⟩

/-- The same without a message of its own. -/
theorem expect {others : Token → Parse β} (inside : expected.isBorder = false)
    (second : ∀ token, Level tokens Anywhere Fine (others token)) :
    Level tokens At Fine (expect expected >>= others) :=
  expectOr inside second

/-- Looking for a token that is no border stays in the line. -/
theorem eat {others : Bool → Parse β} (inside : expected.isBorder = false)
    (second : ∀ eaten, Level tokens Anywhere Fine (others eaten)) :
    Level tokens At Fine (eat expected >>= others) := by
  have real := ne_eof_of_inside inside
  exact Takes.eat real
    (fun token kind =>
      (second true).mono fun _ _ _ known => ⟨.cons (kind ▸ inside) known.1, known.2⟩)
    (second false).anywhere

/-- Taking all tokens of such a kind stays in the line. -/
theorem takeAll {others : List String → Parse β} (inside : expected.isBorder = false)
    (second : ∀ taken, Level tokens Anywhere Fine (others taken)) :
    Level tokens At Fine (takeAll expected >>= others) := by
  have real := ne_eof_of_inside inside
  refine Takes.takeAll real fun taken kinds => (second _).mono fun _ _ _ known => ?_
  have flat : Flat taken := fun token member => kinds token member ▸ inside
  exact ⟨flat.append known.1, known.2⟩

/-- Both branches of a decision stay in the line. -/
theorem ite {condition : Prop} [Decidable condition] {first second : Parse α}
    (yes : Level tokens At Good first) (no : Level tokens At Good second) :
    Level tokens At Good (if condition then first else second) :=
  Takes.ite (fun _ => yes) fun _ => no

/-- A reader that takes only tokens with text stays in the line. -/
theorem of_visible {Post : List Token → TokenKind → α → Prop} (takes : Takes tokens At reader Post)
    (visible : ∀ passed next value, Post passed next value →
      ∀ token ∈ passed, Lexeme.isLayoutKind token.kind = false) : Level tokens At Any reader :=
  takes.mono fun _ _ _ holds => ⟨.of_visible (visible _ _ _ holds), trivial⟩

/-- An expression stays in its line. -/
theorem expr (fuel : Nat) (level : Power) : Level tokens At Any (readExpr fuel level) :=
  of_visible ((retraces tokens fuel).expr level).takes fun _ _ _ taken => taken.spans.plain

/-- A tuple without parentheses stays in its line. -/
theorem tuple (fuel : Nat) (level : Power) : Level tokens At Any (readTuple fuel level) :=
  of_visible ((retraces tokens fuel).tuple level).takes fun _ _ _ holds => holds.2.1.plain

/-- What follows a mark stays in its line. -/
theorem optional (fuel : Nat) (plain : expected.isPlain = true) :
    Level tokens At Any (readOptional fuel expected) :=
  of_visible ((retraces tokens fuel).optional expected plain).takes fun _ _ _ holds => holds.1.plain

/-- Parameters stay in their line. -/
theorem parameters (fuel : Nat) (usual : ParameterKind) :
    Level tokens At Any (readParameters fuel expected usual) :=
  of_visible ((retraces tokens fuel).parameters expected usual).takes
    fun _ _ _ holds => holds.1.plain

/-- Arguments stay in their line. -/
theorem arguments (fuel : Nat) : Level tokens At Any (readArguments fuel) := by
  intro cursor found after inside _ ran
  obtain ⟨inner, closer, passes, closes, closed, -⟩ :=
    (retraces tokens fuel).arguments cursor found after inside ran
  refine ⟨_, passes, (Flat.of_visible closed.plain).append (.single ?_), trivial⟩
  rw [closes]
  rfl

end Level

end Grammar

end DocSketch
