import DocSketch.Proofs.Grammar.Progress
import DocSketch.Proofs.Grammar.Reaching
import DocSketch.Proofs.Grammar.Restoration

/-!
# Spans that tokens frame

An expression starts where a token starts and stops where a token stops, and what it consists
of lies between the two.  Readers compute such spans from a saved start, from the spans of
operands or from the token that they have gone past last; what they need for it is where the
tokens ahead stand.

* `Span.Edged`: a span that starts and stops with tokens.
* `Expr.Framed`: a node with such a span, which encloses the parts of the node.
* `Cursor.Placed`: where the tokens ahead stand and which token was gone past last.
* `Grammar.Fits`: where a reader stops and what its result is, with a rule for every step.
-/

namespace DocSketch

/-- A span starts where one of the tokens starts, and stops where one of them stops. -/
structure Span.Edged (all : List Token) (span : Span) : Prop where
  starts : ∃ token ∈ all, token.span.start = span.start
  stops : ∃ token ∈ all, token.span.stop = span.stop

namespace Expr

variable {all : List Token} {lo hi bound middle start : Nat} {e : Expr}

/-- The span of a node starts and stops with tokens, and the parts of the node lie in it. -/
structure Framed (all : List Token) (e : Expr) : Prop where
  edged : e.span.Edged all
  ordered : e.span.start ≤ e.span.stop
  encloses : ∀ part ∈ e.parts, e.span.start ≤ part.span.start ∧ part.span.stop ≤ e.span.stop

/-- An expression whose nodes are framed lies between `lo` and `hi`. -/
structure Lies (all : List Token) (lo hi : Nat) (e : Expr) : Prop where
  lower : lo ≤ e.span.start
  upper : e.span.stop ≤ hi
  framed : e.Everywhere (Framed all)

/-- All of these expressions lie between `lo` and `hi`. -/
abbrev AllLie (all : List Token) (lo hi : Nat) (es : List Expr) : Prop :=
  ∀ e ∈ es, e.Lies all lo hi

namespace Lies

/-- What lies in a stretch has its parts in place. -/
theorem here (lies : e.Lies all lo hi) : e.Framed all := by
  obtain ⟨-, -, here, -⟩ := lies
  exact here

/-- What lies in a stretch leaves it in order. -/
theorem le (lies : e.Lies all lo hi) : lo ≤ hi :=
  lies.lower.trans (lies.here.ordered.trans lies.upper)

/-- A node lies in every longer stretch. -/
theorem widen (lies : e.Lies all lo hi) {low high : Nat} (lower : low ≤ lo) (upper : hi ≤ high) :
    e.Lies all low high :=
  ⟨lower.trans lies.lower, lies.upper.trans upper, lies.framed⟩

/-- A stretch may end later. -/
theorem raise (lies : e.Lies all lo hi) (le : hi ≤ bound) : e.Lies all lo bound :=
  lies.widen (Nat.le_refl _) le

/-- A stretch may start earlier. -/
theorem sink (lies : e.Lies all lo hi) (le : bound ≤ lo) : e.Lies all bound hi :=
  lies.widen le (Nat.le_refl _)

/-- The stretch may end with the node. -/
theorem ended (lies : e.Lies all lo hi) : e.Lies all lo e.span.stop :=
  ⟨lies.lower, Nat.le_refl _, lies.framed⟩

/-- The stretch may start with the node. -/
theorem started (lies : e.Lies all lo hi) : e.Lies all e.span.start hi :=
  ⟨Nat.le_refl _, lies.upper, lies.framed⟩

/-- A node that starts at a given place and stops with the token gone past last. -/
theorem spanned (starts : ∃ token ∈ all, token.span.start = start)
    (stops : ∃ token ∈ all, token.span.stop = hi) (lower : lo ≤ start) (ordered : start ≤ hi)
    (span : e.span = ⟨start, hi⟩) (parts : AllLie all start hi e.parts) :
    e.Lies all lo hi := by
  refine ⟨span ▸ lower, span ▸ Nat.le_refl _, .intro ⟨?_, ?_, ?_⟩ ?_⟩
  · exact span ▸ ⟨starts, stops⟩
  · exact span ▸ ordered
  · intro part member
    rw [span]
    exact ⟨(parts part member).lower, (parts part member).upper⟩
  · exact fun part member => (parts part member).framed

/-- A node over a single token. -/
theorem leaf {token : Token} (listed : token ∈ all) (after : lo ≤ token.span.start)
    (ordered : token.span.start ≤ token.span.stop) (span : e.span = token.span)
    (none : e.parts = []) : e.Lies all lo token.span.stop :=
  .spanned ⟨token, listed, rfl⟩ ⟨token, listed, rfl⟩ after ordered span fun part member => by
    rw [none] at member
    cases member

/-- A node that starts with a token and stops with an operand. -/
theorem prefixed {token : Token} {operand : Expr} (listed : token ∈ all)
    (after : lo ≤ token.span.start) (ordered : token.span.start ≤ token.span.stop)
    (lies : operand.Lies all bound hi) (beyond : token.span.stop ≤ bound)
    (span : e.span = ⟨token.span.start, operand.span.stop⟩)
    (parts : AllLie all token.span.start operand.span.stop e.parts) :
    e.Lies all lo hi := by
  have le : token.span.start ≤ operand.span.stop := ordered.trans (beyond.trans lies.ended.le)
  have stops : ∃ token ∈ all, token.span.stop = operand.span.stop := lies.here.edged.stops
  exact (spanned ⟨token, listed, rfl⟩ stops after le span parts).raise lies.upper

/-- A node that starts with an operand and stops with another one. -/
theorem joined {left right : Expr} (first : left.Lies all lo bound)
    (second : right.Lies all middle hi) (beyond : bound ≤ middle)
    (span : e.span = ⟨left.span.start, right.span.stop⟩)
    (parts : AllLie all left.span.start right.span.stop e.parts) :
    e.Lies all lo hi := by
  have le : left.span.start ≤ right.span.stop :=
    first.started.le.trans (beyond.trans second.ended.le)
  have starts : ∃ token ∈ all, token.span.start = left.span.start := first.here.edged.starts
  have stops : ∃ token ∈ all, token.span.stop = right.span.stop := second.here.edged.stops
  exact (spanned starts stops first.lower le span parts).raise second.upper

end Lies

namespace AllLie

variable {es others : List Expr}

theorem nil : AllLie all lo hi [] := fun _ member => by cases member

theorem cons (first : e.Lies all lo hi) (rest : AllLie all lo hi es) :
    AllLie all lo hi (e :: es) :=
  List.forall_mem_cons.mpr ⟨first, rest⟩

theorem append (first : AllLie all lo hi es) (second : AllLie all lo hi others) :
    AllLie all lo hi (es ++ others) :=
  List.forall_mem_append.mpr ⟨first, second⟩

/-- Expressions lie in every longer stretch. -/
theorem widen (lie : AllLie all lo hi es) {low high : Nat} (lower : low ≤ lo)
    (upper : hi ≤ high) : AllLie all low high es :=
  fun e member => (lie e member).widen lower upper

/-- A stretch of expressions may end later. -/
theorem raise (lie : AllLie all lo hi es) (le : hi ≤ bound) : AllLie all lo bound es :=
  lie.widen (Nat.le_refl _) le

/-- A stretch of expressions may start earlier. -/
theorem sink (lie : AllLie all lo hi es) (le : bound ≤ lo) : AllLie all bound hi es :=
  lie.widen le (Nat.le_refl _)

end AllLie

end Expr

/-- The tokens ahead of a cursor stand one after another from `lo` on, and once a reader has
begun to go past tokens, the previous one stops at `lo`. -/
structure Cursor.Placed (all : List Token) (begun : Bool) (lo : Nat) (cursor : Cursor) :
    Prop extends cursor.Sound where
  ahead : Token.Spread lo cursor.rest cursor.stop.span.start
  since : begun = true → cursor.previous.span.stop = lo
  previous : cursor.previous ∈ all
  last : cursor.stop ∈ all
  rest : ∀ token ∈ cursor.rest, token ∈ all

namespace Cursor.Placed

variable {all passed : List Token} {begun : Bool} {lo : Nat} {cursor after : Cursor}

/-- A cursor behind a token may be taken as one at the start. -/
theorem weaken (placed : cursor.Placed all true lo) : cursor.Placed all begun lo :=
  { placed with since := fun _ => placed.since rfl }

/-- A cursor may be taken as one that stands behind no token. -/
theorem free (placed : cursor.Placed all begun lo) : cursor.Placed all false lo :=
  { placed with since := Bool.noConfusion }

/-- The current token is one of the program. -/
theorem current_mem (placed : cursor.Placed all begun lo) : cursor.current ∈ all := by
  rw [Cursor.current]
  cases rest : cursor.rest with
  | nil => exact placed.last
  | cons token tokens => exact placed.rest token (rest ▸ List.mem_cons_self)

/-- The tokens ahead stand from the current one on. -/
theorem fromCurrent (placed : cursor.Placed all begun lo) :
    lo ≤ cursor.current.span.start ∧ cursor.Placed all false cursor.current.span.start := by
  have stands : cursor.Stands none lo := ⟨placed.ahead, fun _ member => by cases member⟩
  obtain ⟨le, current⟩ := stands.current
  exact ⟨le, { placed with ahead := current.ahead, since := Bool.noConfusion }⟩

/-- Behind some tokens the cursor stands where the last of them stops. -/
theorem beyond (placed : cursor.Placed all begun lo) (passes : cursor.Passes passed after)
    (moved : passed ≠ []) :
    lo ≤ after.previous.span.stop ∧ after.Placed all true after.previous.span.stop := by
  have ahead := placed.ahead
  rw [passes.rest, ← passes.stop] at ahead
  obtain ⟨own, behind⟩ := ahead.behind (passes.getLast? moved)
  have listed : ∀ token ∈ passed ++ after.rest, token ∈ all := passes.rest ▸ placed.rest
  exact ⟨own.le, {
    toSound := passes.sound placed.toSound
    ahead := behind
    since := fun _ => rfl
    previous := listed _ (List.mem_append_left _ (List.mem_of_getLast? (passes.getLast? moved)))
    last := passes.stop ▸ placed.last
    rest := fun token member => listed token (List.mem_append_right _ member) }⟩

/-- A real token lies ahead, and the cursor behind it stands at its end. -/
theorem advance (placed : cursor.Placed all begun lo) (real : cursor.kind ≠ .eof) :
    lo ≤ cursor.current.span.start ∧ cursor.current.span.start ≤ cursor.current.span.stop ∧
      cursor.advance.Placed all true cursor.current.span.stop := by
  have passes := placed.toSound.within.advance real
  obtain ⟨le, current⟩ := placed.fromCurrent
  obtain ⟨ordered, beyond⟩ := current.beyond passes (List.cons_ne_nil _ _)
  have last : cursor.advance.previous = cursor.current := passes.previous
  rw [last] at ordered beyond
  exact ⟨le, ordered, beyond⟩

/-- Tokens that may be there or not. -/
theorem passes (placed : cursor.Placed all begun lo) (passes : cursor.Passes passed after) :
    ∃ hi, lo ≤ hi ∧ after.Placed all begun hi := by
  by_cases moved : passed = []
  · subst moved
    refine ⟨lo, Nat.le_refl _, passes.sound placed.toSound, ?_, ?_, ?_, ?_, ?_⟩
    · have ahead := placed.ahead
      rwa [passes.rest, ← passes.stop] at ahead
    · rw [passes.previous]
      exact placed.since
    · rw [passes.previous]
      exact placed.previous
    · rw [passes.stop]
      exact placed.last
    · have listed := placed.rest
      rwa [passes.rest] at listed
  · obtain ⟨le, beyond⟩ := placed.beyond passes moved
    exact ⟨_, le, beyond.weaken⟩

/-- Going past any token, the end included, leaves the cursor in place. -/
theorem advances (placed : cursor.Placed all begun lo) :
    ∃ hi, lo ≤ hi ∧ cursor.advance.Placed all begun hi := by
  unfold Cursor.advance
  split
  case h_1 => exact ⟨lo, Nat.le_refl _, placed⟩
  case h_2 token rest ahead =>
    have passes : cursor.Passes [token] { cursor with previous := token, rest := rest } :=
      ⟨ahead, rfl, rfl, rfl⟩
    exact placed.passes passes

end Cursor.Placed

namespace Grammar

open Parse DocSketch.Expr

variable {α β : Type} {all : List Token} {At Other : TokenKind → Prop} {begun ended : Bool}
  {lo start : Nat} {reader : Parse α} {others : α → Parse β} {yes no : Parse α}
  {Post Weak : α → Nat → Prop} {Last : β → Nat → Prop} {expected : TokenKind}

/-- Where the reader stands before a token of one of the given kinds and the tokens ahead stand
from `lo` on, every run of it leaves tokens that stand from a later place on, and of that place
and the result the statement holds.  The two flags say whether the previous token is known to
stop where the tokens ahead begin, before and after. -/
def Fits (all : List Token) (At : TokenKind → Prop) (begun : Bool) (lo : Nat) (reader : Parse α)
    (ended : Bool) (Post : α → Nat → Prop) : Prop :=
  ∀ cursor value after, cursor.Placed all begun lo → At cursor.kind →
    reader cursor = .ok value after →
    ∃ hi, lo ≤ hi ∧ after.Placed all ended hi ∧ Post value hi

namespace Fits

theorem mono (fits : Fits all At begun lo reader ended Post)
    (weaker : ∀ value hi, lo ≤ hi → Post value hi → Weak value hi) :
    Fits all At begun lo reader ended Weak := by
  intro cursor value after placed here ran
  obtain ⟨hi, le, beyond, holds⟩ := fits cursor value after placed here ran
  exact ⟨hi, le, beyond, weaker value hi le holds⟩

/-- Fewer kinds of tokens to stand at. -/
theorem narrow (fits : Fits all At begun lo reader ended Post)
    (narrower : ∀ kind, Other kind → At kind) : Fits all Other begun lo reader ended Post :=
  fun cursor value after placed here => fits cursor value after placed (narrower _ here)

/-- A reader that fits everywhere fits at tokens of a kind. -/
theorem anywhere (fits : Fits all Anything begun lo reader ended Post) :
    Fits all At begun lo reader ended Post :=
  fits.narrow fun _ _ => trivial

/-- A reader that has gone past a token has gone past one or not. -/
theorem loosen (fits : Fits all At begun lo reader true Post) :
    Fits all At begun lo reader ended Post := by
  intro cursor value after placed here ran
  obtain ⟨hi, le, beyond, holds⟩ := fits cursor value after placed here ran
  exact ⟨hi, le, beyond.weaken, holds⟩

/-- A reader that goes past a token whether another has been gone past before or not. -/
theorem weaken (fits : Fits all Anything false lo reader true Post) :
    Fits all At begun lo reader ended Post := by
  intro cursor value after placed _ ran
  obtain ⟨hi, le, beyond, holds⟩ := fits cursor value after placed.free trivial ran
  exact ⟨hi, le, beyond.weaken, holds⟩

theorem pure {value : α} (holds : Post value lo) :
    Fits all At begun lo (pure value : Parse α) begun Post := by
  intro cursor result after placed _ ran
  cases ran
  exact ⟨lo, Nat.le_refl _, placed, holds⟩

/-- One reader after the other, each from where the last one stopped. -/
theorem bind {middle : Bool} (first : Fits all At begun lo reader middle Post)
    (second : ∀ value hi, lo ≤ hi → Post value hi →
      Fits all Anything middle hi (others value) ended Last) :
    Fits all At begun lo (reader >>= others) ended Last := by
  intro cursor result after placed here ran
  obtain ⟨value, middle, read, ran⟩ := ran_bind ran
  obtain ⟨hi, le, between, holds⟩ := first cursor value middle placed here read
  obtain ⟨bound, further, beyond, fine⟩ :=
    second value hi le holds middle result after between trivial ran
  exact ⟨bound, le.trans further, beyond, fine⟩

/-- Only looking at the cursor. -/
theorem look {value : Cursor → α} (looks : ∀ cursor, reader cursor = .ok (value cursor) cursor)
    (second : ∀ cursor : Cursor, cursor.Sound → At cursor.kind →
      Fits all (· = cursor.kind) begun lo (others (value cursor)) ended Last) :
    Fits all At begun lo (reader >>= others) ended Last := by
  intro cursor result after placed here ran
  obtain ⟨found, middle, read, ran⟩ := ran_bind ran
  rw [looks cursor] at read
  cases read
  exact second cursor placed.toSound here cursor result after placed rfl ran

theorem get {use : Cursor → Parse β}
    (second : ∀ cursor : Cursor, cursor.Sound → At cursor.kind →
      Fits all (· = cursor.kind) begun lo (use cursor) ended Last) :
    Fits all At begun lo (MonadState.get >>= use) ended Last :=
  look (fun _ => rfl) second

/-- Looking at the kind ahead takes no token. -/
theorem kind {use : TokenKind → Parse β}
    (second : ∀ kind, At kind → Fits all (· = kind) begun lo (use kind) ended Last) :
    Fits all At begun lo (kind >>= use) ended Last :=
  look (fun _ => rfl) fun cursor _ here => second cursor.kind here

/-- Asking whether an expression starts takes no token. -/
theorem atExpression {use : Bool → Parse β}
    (second : ∀ found, Fits all At begun lo (use found) ended Last) :
    Fits all At begun lo (atExpression >>= use) ended Last :=
  look (fun _ => rfl) fun _ _ here => (second _).narrow fun _ same => same ▸ here

/-- Asking whether a clause starts takes no token. -/
theorem atClause {use : Bool → Parse β}
    (second : ∀ found, Fits all At begun lo (use found) ended Last) :
    Fits all At begun lo (Grammar.atClause >>= use) ended Last :=
  look (fun _ => rfl) fun _ _ here => (second _).narrow fun _ same => same ▸ here

/-- A start that is not used for a span. -/
theorem someOffset {use : Nat → Parse β}
    (second : ∀ start, Fits all At begun lo (use start) ended Last) :
    Fits all At begun lo (offset >>= use) ended Last :=
  look (fun _ => rfl) fun _ _ here => (second _).narrow fun _ same => same ▸ here

/-- A span that is not used for an expression. -/
theorem someSpan {use : Span → Parse β}
    (second : ∀ span, Fits all At begun lo (use span) ended Last) :
    Fits all At begun lo (spanFrom start >>= use) ended Last :=
  look (fun _ => rfl) fun _ _ here => (second _).narrow fun _ same => same ▸ here

/-- The tokens ahead stand from the current one on. -/
theorem offset {use : Nat → Parse β}
    (second : ∀ start, (∃ token ∈ all, token.span.start = start) → lo ≤ start →
      Fits all At false start (use start) ended Last) :
    Fits all At begun lo (offset >>= use) ended Last := by
  intro cursor result after placed here ran
  obtain ⟨le, current⟩ := placed.fromCurrent
  obtain ⟨hi, further, beyond, holds⟩ :=
    second _ ⟨_, placed.current_mem, rfl⟩ le cursor result after current here (ran_offset ran)
  exact ⟨hi, le.trans further, beyond, holds⟩

/-- A span stops where the tokens ahead begin. -/
theorem spanFrom {use : Span → Parse β}
    (second : (∃ token ∈ all, token.span.stop = lo) →
      Fits all At true lo (use ⟨start, lo⟩) ended Last) :
    Fits all At true lo (spanFrom start >>= use) ended Last := by
  intro cursor result after placed here ran
  have stops := placed.since rfl
  change use ⟨start, cursor.previous.span.stop⟩ cursor = _ at ran
  rw [stops] at ran
  exact second ⟨_, placed.previous, stops⟩ cursor result after placed here ran

/-- Going past a token that is not the end of the file. -/
theorem advance {others : Token → Parse β} (real : ∀ kind, At kind → kind ≠ .eof)
    (second : ∀ token ∈ all, At token.kind → lo ≤ token.span.start →
      token.span.start ≤ token.span.stop →
      Fits all Anything true token.span.stop (others token) ended Last) :
    Fits all At begun lo (advance >>= others) ended Last := by
  intro cursor result after placed here ran
  obtain ⟨le, ordered, beyond⟩ := placed.advance (real _ here)
  obtain ⟨hi, further, finally', holds⟩ := second cursor.current placed.current_mem here le ordered
    cursor.advance result after beyond trivial ran
  exact ⟨hi, (le.trans ordered).trans further, finally', holds⟩

/-- Going past a token, if there is one. -/
theorem advances {others : Token → Parse β}
    (second : ∀ token hi, lo ≤ hi → Fits all Anything begun hi (others token) ended Last) :
    Fits all At begun lo (Parse.advance >>= others) ended Last := by
  intro cursor result after placed _ ran
  obtain ⟨hi, le, beyond⟩ := placed.advances
  obtain ⟨bound, further, finally', holds⟩ :=
    second cursor.current hi le cursor.advance result after beyond trivial ran
  exact ⟨bound, le.trans further, finally', holds⟩

/-- A token that is asked for lies ahead, and what is read next lies behind it. -/
theorem expectOr {others : Token → Parse β} (real : expected ≠ .eof) {message : String}
    (second : ∀ token ∈ all, lo ≤ token.span.start → token.span.start ≤ token.span.stop →
      Fits all Anything true token.span.stop (others token) ended Last) :
    Fits all At begun lo (expectOr expected message >>= others) ended Last := by
  intro cursor result after placed _ ran
  obtain ⟨token, middle, read, ran⟩ := ran_bind ran
  change (if cursor.kind = expected then Parse.advance else failHere message) cursor = _ at read
  by_cases here : cursor.kind = expected
  · rw [if_pos here] at read
    cases read
    obtain ⟨le, ordered, beyond⟩ := placed.advance (here ▸ real)
    obtain ⟨hi, further, finally', holds⟩ := second cursor.current placed.current_mem le ordered
      cursor.advance result after beyond trivial ran
    exact ⟨hi, (le.trans ordered).trans further, finally', holds⟩
  · rw [if_neg here] at read
    cases read

/-- The same for a token that is asked for without a message of its own. -/
theorem expect {others : Token → Parse β} (real : expected ≠ .eof)
    (second : ∀ token ∈ all, lo ≤ token.span.start → token.span.start ≤ token.span.stop →
      Fits all Anything true token.span.stop (others token) ended Last) :
    Fits all At begun lo (expect expected >>= others) ended Last :=
  expectOr real second

/-- A branch on whether a token has been gone past. -/
theorem ifEaten {yes no : Parse β} (real : expected ≠ .eof)
    (eaten : ∀ hi, lo ≤ hi → Fits all Anything true hi yes ended Last)
    (left : Fits all Anything begun lo no ended Last) :
    Fits all At begun lo (eat expected >>= fun eaten => if eaten = true then yes else no) ended
      Last := by
  intro cursor result after placed _ ran
  obtain ⟨token, middle, -, passes, ran⟩ | ⟨-, ran⟩ := ran_ifEaten placed.toSound.within real ran
  · obtain ⟨le, beyond⟩ := placed.beyond passes (List.cons_ne_nil _ _)
    obtain ⟨hi, further, finally', holds⟩ := eaten _ le middle result after beyond trivial ran
    exact ⟨hi, le.trans further, finally', holds⟩
  · exact left cursor result after placed trivial ran

/-- A token that may be there or not. -/
theorem eat {others : Bool → Parse β} (real : expected ≠ .eof)
    (second : ∀ eaten hi, lo ≤ hi → Fits all Anything begun hi (others eaten) ended Last) :
    Fits all At begun lo (eat expected >>= others) ended Last := by
  intro cursor result after placed _ ran
  obtain ⟨token, middle, -, passes, ran⟩ | ⟨-, ran⟩ := ran_eat placed.toSound.within real ran
  · obtain ⟨hi, le, beyond⟩ := placed.passes passes
    obtain ⟨bound, further, finally', holds⟩ :=
      second true hi le middle result after beyond trivial ran
    exact ⟨bound, le.trans further, finally', holds⟩
  · exact second false lo (Nat.le_refl _) cursor result after placed trivial ran

/-- All tokens of a kind that are taken lie one behind the other. -/
theorem takeAll {others : List String → Parse β} (real : expected ≠ .eof)
    (second : ∀ values hi, lo ≤ hi → Fits all Anything begun hi (others values) ended Last) :
    Fits all At begun lo (takeAll expected >>= others) ended Last := by
  intro cursor result after placed _ ran
  obtain ⟨taken, middle, -, -, passes, ran⟩ := ran_takeAll placed.toSound.within real ran
  obtain ⟨hi, le, beyond⟩ := placed.passes passes
  obtain ⟨bound, further, finally', holds⟩ :=
    second _ hi le middle result after beyond trivial ran
  exact ⟨bound, le.trans further, finally', holds⟩

/-- Both branches of a decision fit. -/
theorem ite {condition : Prop} [Decidable condition]
    (holds : condition → Fits all At begun lo yes ended Post)
    (fails : ¬condition → Fits all At begun lo no ended Post) :
    Fits all At begun lo (if condition then yes else no) ended Post := by
  split
  case isTrue here => exact holds here
  case isFalse here => exact fails here

/-- The end of a node that started before. -/
theorem close {build : Span → Expr} {bound : Nat}
    (starts : ∃ token ∈ all, token.span.start = start) (lower : bound ≤ start)
    (ordered : start ≤ lo) (span : ∀ span, (build span).span = span)
    (parts : AllLie all start lo (build ⟨start, lo⟩).parts) :
    Fits all At true lo (do return build (← Parse.spanFrom start)) true
      fun e hi => e.Lies all bound hi :=
  .spanFrom fun stops => .pure (.spanned starts stops lower ordered (span _) parts)

/-- A reader that goes past a token for certain. -/
theorem read (first : Fits all Anything false lo reader true Post)
    (second : ∀ value hi, lo ≤ hi → Post value hi →
      Fits all Anything true hi (others value) ended Last) :
    Fits all At begun lo (reader >>= others) ended Last :=
  .bind first.weaken second

/-- A result that is known without going on. -/
theorem known {value : α} (second : Fits all At begun lo (others value) ended Last) :
    Fits all At begun lo (Pure.pure value >>= others) ended Last :=
  fun cursor result after placed here ran => second cursor result after placed here ran

/-- A reader that fails has no result. -/
theorem failAt (cause : Cause) (offset : Nat) :
    Fits all At begun lo (failAt cause offset : Parse α) ended Post :=
  fun _ _ _ _ _ ran => by cases ran

/-- The same for a failure at the current token. -/
theorem failHere (message : String) :
    Fits all At begun lo (failHere message : Parse α) ended Post :=
  fun _ _ _ _ _ ran => by cases ran

/-- A reader without steps has no result. -/
theorem exhausted (gives : reader = giveUp) : Fits all At begun lo reader ended Post := by
  intro cursor value after _ _ ran
  rw [gives] at ran
  cases ran

end Fits

end Grammar

end DocSketch
