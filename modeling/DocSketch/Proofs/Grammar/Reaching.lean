import DocSketch.Proofs.Grammar.SimpleReaders
import DocSketch.Proofs.Token.Tiling

/-!
# Places that readers reach

The tokens of a text stand one after another.  A reader goes past some of them, and what it
gives stands between the place where it started and the tokens that it leaves.

* `Token.Spread`: tokens that stand one after another between two places.
* `Stmt.Settled`: the same for statements and all statements inside them.
* `Cursor.Stands`: where the tokens ahead of a cursor stand.
* `Grammar.Reaches`: where a reader can stop, with a rule for every step that it can take.
-/

namespace DocSketch

namespace Token

variable {lo hi bound : Nat} {tokens others : List Token} {token : Token}

/-- Tokens stand one after another between `lo` and `hi`. -/
inductive Spread : Nat → List Token → Nat → Prop
  | nil {lo hi : Nat} (ordered : lo ≤ hi) : Spread lo [] hi
  | cons {lo hi : Nat} {token : Token} {tokens : List Token} (after : lo ≤ token.span.start)
      (ordered : token.span.start ≤ token.span.stop) (others : Spread token.span.stop tokens hi) :
      Spread lo (token :: tokens) hi

namespace Spread

/-- Tokens are spread over a stretch in order. -/
theorem le (spread : Spread lo tokens hi) : lo ≤ hi := by
  induction spread with
  | nil ordered => exact ordered
  | cons after ordered _ ih => exact after.trans (ordered.trans ih)

/-- Tokens may be spread from an earlier place on. -/
theorem lower (spread : Spread lo tokens hi) (le : bound ≤ lo) : Spread bound tokens hi := by
  cases spread with
  | nil ordered => exact .nil (le.trans ordered)
  | cons after ordered others => exact .cons (le.trans after) ordered others

/-- Where tokens are cut in two, so is the stretch. -/
theorem split (spread : Spread lo (tokens ++ others) hi) :
    ∃ middle, Spread lo tokens middle ∧ Spread middle others hi := by
  induction tokens generalizing lo with
  | nil => exact ⟨lo, .nil (Nat.le_refl _), spread⟩
  | cons token tokens ih =>
      cases spread with
      | cons after ordered rest =>
          obtain ⟨middle, front, back⟩ := ih rest
          exact ⟨middle, .cons after ordered front, back⟩

/-- The tokens behind others are spread up to the end. -/
theorem drop (spread : Spread lo (tokens ++ others) hi) : Spread lo others hi := by
  obtain ⟨middle, front, back⟩ := spread.split
  exact back.lower front.le

theorem append {middle : Nat} (first : Spread lo tokens middle) (second : Spread middle others hi) :
    Spread lo (tokens ++ others) hi := by
  induction first with
  | nil ordered => exact second.lower ordered
  | cons after ordered _ ih => exact .cons after ordered (ih second)

/-- Tokens end where the last of them stops, and what follows stands behind it. -/
theorem behind (spread : Spread lo (tokens ++ others) hi) (last : tokens.getLast? = some token) :
    Spread lo tokens token.span.stop ∧ Spread token.span.stop others hi := by
  obtain ⟨front, rfl⟩ := List.getLast?_eq_some_iff.mp last
  rw [List.append_assoc] at spread
  obtain ⟨middle, early, late⟩ := spread.split
  cases late with
  | cons after ordered rest =>
      exact ⟨early.append (.cons after ordered (.nil (Nat.le_refl _))), rest⟩

/-- A span that starts with the first token and stops with the last one lies between the
same places. -/
theorem outlined {span : Span} (spread : Spread lo tokens hi)
    (outlines : Grammar.Outlines span tokens) :
    lo ≤ span.start ∧ span.start ≤ span.stop ∧ span.stop ≤ hi := by
  obtain ⟨first, begins, starts⟩ := Option.map_eq_some_iff.mp outlines.starts
  obtain ⟨last, ends, stops⟩ := Option.map_eq_some_iff.mp outlines.stops
  rw [← starts, ← stops]
  obtain ⟨rest, rfl⟩ := List.head?_eq_some_iff.mp begins
  have after : lo ≤ first.span.start := by
    cases spread with
    | cons after _ _ => exact after
  have own : Spread first.span.start ((first :: rest) ++ []) hi := by
    rw [List.append_nil]
    cases spread with
    | cons _ ordered others => exact .cons (Nat.le_refl _) ordered others
  obtain ⟨front, back⟩ := own.behind ends
  exact ⟨after, front.le, back.le⟩

end Spread

/-- Tokens that lie in a text stand one after another. -/
theorem Tiles.spread {offset : Nat} {chars : List Char} {stop : Token}
    (tiles : Tiles offset chars (tokens ++ [stop])) : Spread offset tokens stop.span.start := by
  generalize same : tokens ++ [stop] = all at tiles
  induction tiles generalizing tokens with
  | eof =>
      obtain ⟨rfl, last⟩ | ⟨-, none⟩ := List.append_eq_singleton_iff.mp same
      · cases last
        exact .nil (Nat.le_add_right _ _)
      · cases none
  | token _ _ starts stops others ih =>
      cases tokens with
      | nil =>
          cases same
          exact .nil (starts ▸ Nat.le_add_right _ _)
      | cons token tokens =>
          cases same
          exact .cons (starts ▸ Nat.le_add_right _ _) (stops ▸ Nat.le_add_right _ _) (ih rfl)

/-- The tokens of a text are spread up to the end token. -/
theorem scan_spread {text file : String} {stop : Token}
    (scanned : scan text file = .ok (tokens ++ [stop])) : Spread 0 tokens stop.span.start := by
  obtain ⟨added, same, tiles⟩ := Layout.scanFrom_tiles Layout.initial 0 text.toList scanned
  have all : added = tokens ++ [stop] := same.symm
  exact (all ▸ tiles).spread

end Token

namespace Stmt

variable {lo hi middle bound : Nat} {stmts others : List Stmt} {stmt : Stmt}

/-- Statements stand one after another between `lo` and `hi`, each with those inside it between
its own start and stop. -/
inductive Settled : Nat → List Stmt → Nat → Prop
  | nil {lo hi : Nat} (ordered : lo ≤ hi) : Settled lo [] hi
  | cons {lo hi : Nat} {stmt : Stmt} {stmts : List Stmt} (after : lo ≤ stmt.span.start)
      (inner : Settled stmt.span.start stmt.inner stmt.span.stop)
      (others : Settled stmt.span.stop stmts hi) : Settled lo (stmt :: stmts) hi

namespace Settled

/-- Statements settle a stretch in order. -/
theorem le (settled : Settled lo stmts hi) : lo ≤ hi := by
  induction settled with
  | nil ordered => exact ordered
  | cons after _ _ inner others => exact after.trans (inner.trans others)

/-- Statements settle a stretch from an earlier place on. -/
theorem lower (settled : Settled lo stmts hi) (le : bound ≤ lo) : Settled bound stmts hi := by
  cases settled with
  | nil ordered => exact .nil (le.trans ordered)
  | cons after inner others => exact .cons (le.trans after) inner others

/-- Statements settle a stretch up to a later place. -/
theorem upper (settled : Settled lo stmts hi) (le : hi ≤ bound) : Settled lo stmts bound := by
  induction settled with
  | nil ordered => exact .nil (ordered.trans le)
  | cons after inner _ _ ih => exact .cons after inner (ih le)

theorem append (first : Settled lo stmts middle) (second : Settled middle others hi) :
    Settled lo (stmts ++ others) hi := by
  induction first with
  | nil ordered => exact second.lower ordered
  | cons after inner _ _ ih => exact .cons after inner (ih second)

/-- Where statements are cut in two, so is the stretch. -/
theorem split (settled : Settled lo (stmts ++ others) hi) :
    ∃ middle, Settled lo stmts middle ∧ Settled middle others hi := by
  induction stmts generalizing lo with
  | nil => exact ⟨lo, .nil (Nat.le_refl _), settled⟩
  | cons stmt stmts ih =>
      cases settled with
      | cons after inner rest =>
          obtain ⟨middle, front, back⟩ := ih rest
          exact ⟨middle, .cons after inner front, back⟩

/-- Further bodies behind a body. -/
theorem join {body : List Stmt} {bodies : List (List Stmt)} (first : Settled lo body middle)
    (second : Settled middle bodies.flatten hi) : Settled lo (body :: bodies).flatten hi :=
  first.append second

/-- A statement without bodies. -/
theorem bare (after : lo ≤ stmt.span.start) (ordered : stmt.span.start ≤ stmt.span.stop)
    (simple : stmt.inner = []) : Settled lo [stmt] stmt.span.stop := by
  refine .cons after ?_ (.nil (Nat.le_refl _))
  rw [simple]
  exact .nil ordered

/-- A statement with the statements inside it. -/
theorem single (after : lo ≤ stmt.span.start)
    (inner : Settled stmt.span.start stmt.suites.flatten stmt.span.stop) :
    Settled lo [stmt] stmt.span.stop := by
  rw [← inner_eq_flatten] at inner
  exact .cons after inner (.nil (Nat.le_refl _))

/-- Statements end where the last of them stops. -/
theorem tighten (settled : Settled lo stmts hi) (last : stmts.getLast? = some stmt) :
    Settled lo stmts stmt.span.stop ∧ stmt.span.stop ≤ hi := by
  induction settled with
  | nil => cases last
  | @cons lo hi first stmts after inner others _ ih =>
      cases stmts with
      | nil =>
          cases last
          exact ⟨.cons after inner (.nil (Nat.le_refl _)), others.le⟩
      | cons second stmts =>
          rw [List.getLast?_cons_cons] at last
          exact ⟨.cons after inner (ih last).1, (ih last).2⟩

end Settled

end Stmt

/-- The tokens ahead of a cursor stand one after another from `lo` on.  A statement that has
begun at the given place has been read up to the previous token. -/
structure Cursor.Stands (begun : Option Nat) (lo : Nat) (cursor : Cursor) : Prop where
  ahead : Token.Spread lo cursor.rest cursor.stop.span.start
  since : ∀ start ∈ begun, start ≤ cursor.previous.span.stop ∧
    Token.Spread cursor.previous.span.stop cursor.rest cursor.stop.span.start

namespace Cursor.Stands

variable {begun : Option Nat} {lo hi bound : Nat} {cursor after : Cursor} {passed : List Token}

/-- What a cursor has begun may be forgotten. -/
theorem free (stands : cursor.Stands begun lo) : cursor.Stands none lo :=
  ⟨stands.ahead, fun _ member => by cases member⟩

/-- A cursor may be taken as one that stands further ahead. -/
theorem lower (stands : cursor.Stands begun lo) (le : bound ≤ lo) : cursor.Stands begun bound :=
  ⟨stands.ahead.lower le, stands.since⟩

/-- Going past tokens changes nothing. -/
theorem passes (stands : cursor.Stands begun lo) (passes : cursor.Passes passed after) :
    after.Stands begun lo := by
  obtain ⟨ahead, since⟩ := stands
  rw [passes.rest, ← passes.stop] at ahead since
  refine ⟨ahead.drop, fun start member => ?_⟩
  obtain ⟨le, behind⟩ := since start member
  by_cases moved : passed = []
  · rw [passes.previous]
    cases moved
    exact ⟨le, behind⟩
  · obtain ⟨further, rest⟩ := behind.behind (passes.getLast? moved)
    exact ⟨le.trans further.le, rest⟩

/-- A statement begins with the tokens that are gone past. -/
theorem begins (stands : cursor.Stands begun lo) (passes : cursor.Passes passed after)
    (moved : passed ≠ []) : after.Stands (some lo) lo := by
  have ahead := stands.ahead
  rw [passes.rest, ← passes.stop] at ahead
  refine ⟨ahead.drop, fun start member => ?_⟩
  cases member
  obtain ⟨further, rest⟩ := ahead.behind (passes.getLast? moved)
  exact ⟨further.le, rest⟩

/-- The current token is the first one ahead. -/
theorem current (stands : cursor.Stands begun lo) :
    lo ≤ cursor.current.span.start ∧ cursor.Stands begun cursor.current.span.start := by
  obtain ⟨ahead, since⟩ := stands
  rw [Cursor.current]
  cases rest : cursor.rest with
  | nil =>
      rw [rest] at ahead
      refine ⟨ahead.le, ?_, since⟩
      rw [rest]
      exact .nil (Nat.le_refl _)
  | cons token tokens =>
      rw [rest] at ahead
      cases ahead with
      | cons after ordered others =>
          refine ⟨after, ?_, since⟩
          rw [rest]
          exact .cons (Nat.le_refl _) ordered others

end Cursor.Stands

namespace Grammar

open Parse Token Stmt

variable {α β : Type} {tokens : List Token} {At Other : TokenKind → Prop} {begun : Option Nat}
  {lo start bound : Nat} {reader : Parse α} {others : α → Parse β} {Post Weak : α → Nat → Prop}
  {Last : β → Nat → Prop} {expected : TokenKind}

/-- Where the reader stands before a token of one of the given kinds and the tokens ahead stand
from `lo` on, every run of it leaves tokens that stand from a later place on, and of that place
and the result the statement holds.  A statement may have begun before. -/
def Reaches (tokens : List Token) (At : TokenKind → Prop) (begun : Option Nat) (lo : Nat)
    (reader : Parse α) (Post : α → Nat → Prop) : Prop :=
  ∀ cursor value after, cursor.Within tokens → At cursor.kind → cursor.Stands begun lo →
    reader cursor = .ok value after →
    ∃ passed hi, cursor.Passes passed after ∧ after.Stands none hi ∧ Post value hi

/-- The reader gives statements that stand one after another among the tokens it goes past. -/
abbrev Places (tokens : List Token) (At : TokenKind → Prop) (stmts : α → List Stmt)
    (reader : Parse α) : Prop :=
  ∀ lo, Reaches tokens At none lo reader fun value hi => Settled lo (stmts value) hi

/-- Asking for a token takes one. -/
theorem expectOr_takes {message : String} (real : expected ≠ .eof) :
    Takes tokens At (expectOr expected message) fun passed _ _ => passed ≠ [] := by
  rw [← bind_pure (expectOr expected message)]
  exact .expectOr real fun _ _ => .pure fun _ _ => List.cons_ne_nil _ _

/-- The same without a message of its own. -/
theorem expect_takes (real : expected ≠ .eof) :
    Takes tokens At (expect expected) fun passed _ _ => passed ≠ [] :=
  expectOr_takes real

/-- Looking for a token takes one or none. -/
theorem eat_takes (real : expected ≠ .eof) :
    Takes tokens At (eat expected) fun _ _ _ => True := by
  rw [← bind_pure (eat expected)]
  exact .eat real (fun _ _ => .pure fun _ _ => trivial) (.pure fun _ _ => trivial)

/-- Going past a token takes it. -/
theorem advance_takes : Takes tokens At advance fun _ _ _ => True := by
  intro cursor token after _ _ ran
  cases ran
  unfold Cursor.advance
  split
  case h_1 => exact ⟨[], .none cursor, trivial⟩
  case h_2 token rest ahead => exact ⟨[token], ⟨ahead, rfl, rfl, rfl⟩, trivial⟩

namespace Reaches

theorem mono (reaches : Reaches tokens At begun lo reader Post)
    (weaker : ∀ value hi, Post value hi → Weak value hi) :
    Reaches tokens At begun lo reader Weak := by
  intro cursor value after inside here stands ran
  obtain ⟨passed, hi, passes, beyond, holds⟩ := reaches cursor value after inside here stands ran
  exact ⟨passed, hi, passes, beyond, weaker _ _ holds⟩

/-- Fewer kinds of tokens to stand at. -/
theorem narrow (reaches : Reaches tokens At begun lo reader Post)
    (narrower : ∀ kind, Other kind → At kind) : Reaches tokens Other begun lo reader Post :=
  fun cursor value after inside here => reaches cursor value after inside (narrower _ here)

/-- A reader that reaches from everywhere reaches from a kind. -/
theorem anywhere (reaches : Reaches tokens Anywhere begun lo reader Post) :
    Reaches tokens At begun lo reader Post :=
  reaches.narrow fun _ _ => trivial

/-- What is known without a statement that has begun. -/
theorem inside (reaches : Reaches tokens At none lo reader Post) :
    Reaches tokens At begun lo reader Post :=
  fun cursor value after within here stands =>
    reaches cursor value after within here stands.free

/-- A reader may start from an earlier place. -/
theorem lower (reaches : Reaches tokens At begun bound reader Post) (le : bound ≤ lo) :
    Reaches tokens At begun lo reader Post :=
  fun cursor value after within here stands =>
    reaches cursor value after within here (stands.lower le)

theorem pure {value : α} (holds : Post value lo) :
    Reaches tokens At begun lo (pure value : Parse α) Post := by
  intro cursor result after _ _ stands ran
  cases ran
  exact ⟨[], lo, .none cursor, stands.free, holds⟩

/-- A run that goes on behind the given tokens. -/
theorem goOn {cursor middle after : Cursor} {passed : List Token} {value : α}
    (reaches : Reaches tokens Anywhere begun lo reader Post) (within : cursor.Within tokens)
    (passes : cursor.Passes passed middle) (stands : middle.Stands begun lo)
    (ran : reader middle = .ok value after) :
    ∃ passed hi, cursor.Passes passed after ∧ after.Stands none hi ∧ Post value hi := by
  obtain ⟨later, hi, onwards, beyond, holds⟩ :=
    reaches middle value after (passes.within within) trivial stands ran
  exact ⟨passed ++ later, hi, passes.trans onwards, beyond, holds⟩

/-- One reader after the other, each from the place the last one reached. -/
theorem bind (first : Reaches tokens At begun lo reader Post)
    (second : ∀ value hi, Post value hi → Reaches tokens Anywhere begun hi (others value) Last) :
    Reaches tokens At begun lo (reader >>= others) Last := by
  intro cursor result after within here stands ran
  obtain ⟨value, middle, read, ran⟩ := ran_bind ran
  obtain ⟨passed, hi, passes, beyond, holds⟩ := first cursor value middle within here stands read
  have since : middle.Stands begun hi := ⟨beyond.ahead, (stands.passes passes).since⟩
  exact (second value hi holds).goOn within passes since ran

/-- Tokens that are skipped leave the place where it is. -/
theorem ofTakes {Skipped : List Token → TokenKind → α → Prop}
    (takes : Takes tokens At reader Skipped) :
    Reaches tokens At begun lo reader fun _ hi => hi = lo := by
  intro cursor value after within here stands ran
  obtain ⟨passed, passes, -⟩ := takes cursor value after within here ran
  exact ⟨passed, lo, passes, (stands.passes passes).free, rfl⟩

/-- Statements that are read in a statement. -/
theorem place {stmts : α → List Stmt} (places : Places tokens At stmts reader)
    (second : ∀ value hi, Settled lo (stmts value) hi →
      Reaches tokens Anywhere begun hi (others value) Last) :
    Reaches tokens At begun lo (reader >>= others) Last :=
  .bind (places lo).inside second

/-- Tokens of which nothing has to be known. -/
theorem skip {Skipped : List Token → TokenKind → α → Prop}
    (takes : Takes tokens At reader Skipped)
    (second : ∀ value, Reaches tokens Anywhere begun lo (others value) Last) :
    Reaches tokens At begun lo (reader >>= others) Last :=
  .bind (ofTakes takes) fun value _ same => same ▸ second value

/-- The first tokens of a statement. -/
theorem begin (takes : Takes tokens At reader fun passed _ _ => passed ≠ [])
    (first : Reaches tokens At begun lo reader Post)
    (second : ∀ value hi, Post value hi →
      Reaches tokens Anywhere (some lo) hi (others value) Last) :
    Reaches tokens At begun lo (reader >>= others) Last := by
  intro cursor result after within here stands ran
  obtain ⟨value, middle, read, ran⟩ := ran_bind ran
  obtain ⟨passed, hi, passes, beyond, holds⟩ := first cursor value middle within here stands read
  obtain ⟨tokens, same, moved⟩ := takes cursor value middle within here read
  have since : middle.Stands (some lo) hi := ⟨beyond.ahead, (stands.begins same moved).since⟩
  exact (second value hi holds).goOn within passes since ran

/-- The first tokens of a statement, of which nothing has to be known. -/
theorem beginSkip (takes : Takes tokens At reader fun passed _ _ => passed ≠ [])
    (second : ∀ value, Reaches tokens Anywhere (some lo) lo (others value) Last) :
    Reaches tokens At begun lo (reader >>= others) Last :=
  .begin takes (ofTakes takes) fun value _ same => same ▸ second value

/-- A statement that begins with the current token. -/
theorem step {others : Token → Parse β} (goesOn : ∀ kind, At kind → kind ≠ .eof)
    (second : ∀ token, lo ≤ token.span.start →
      Reaches tokens Anywhere (some token.span.start) token.span.start (others token) Last) :
    Reaches tokens At begun lo (advance >>= others) Last := by
  intro cursor result after within here stands ran
  have passes := within.advance (goesOn _ here)
  obtain ⟨le, current⟩ := stands.current
  have begins := current.begins passes (List.cons_ne_nil _ _)
  exact (second cursor.current le).goOn within passes begins ran

/-- Looking at the kind ahead reaches no further. -/
theorem kind {others : TokenKind → Parse β}
    (second : ∀ kind, At kind → Reaches tokens (· = kind) begun lo (others kind) Last) :
    Reaches tokens At begun lo (kind >>= others) Last :=
  fun cursor result after within here stands ran =>
    second _ here cursor result after within rfl stands ran

/-- Only looking at the cursor. -/
theorem look {look : Cursor → α}
    (second : ∀ value, Reaches tokens At begun lo (others value) Last) :
    Reaches tokens At begun lo ((do return look (← get) : Parse α) >>= others) Last :=
  fun cursor result after within here stands ran =>
    second _ cursor result after within here stands ran

theorem get {others : Cursor → Parse β}
    (second : ∀ cursor, Reaches tokens At begun lo (others cursor) Last) :
    Reaches tokens At begun lo (get >>= others) Last :=
  fun cursor result after within here stands ran =>
    second _ cursor result after within here stands ran

/-- A result that is known without going on. -/
theorem known {value : α} (second : Reaches tokens At begun lo (others value) Last) :
    Reaches tokens At begun lo (Pure.pure value >>= others) Last :=
  fun cursor result after within here stands ran =>
    second cursor result after within here stands ran

/-- The tokens ahead stand from the current one on. -/
theorem offset {others : Nat → Parse β}
    (second : ∀ start, lo ≤ start → Reaches tokens At begun start (others start) Last) :
    Reaches tokens At begun lo (offset >>= others) Last := by
  intro cursor result after within here stands ran
  obtain ⟨le, current⟩ := stands.current
  exact second _ le cursor result after within here current (ran_offset ran)

/-- The statement that has begun stops before the tokens ahead. -/
theorem spanFrom {others : Span → Parse β}
    (second : ∀ stop, start ≤ stop →
      Reaches tokens At (some start) stop (others ⟨start, stop⟩) Last) :
    Reaches tokens At (some start) lo (spanFrom start >>= others) Last := by
  intro cursor result after within here stands ran
  obtain ⟨ordered, ahead⟩ := stands.since start rfl
  exact second _ ordered cursor result after within here ⟨ahead, stands.since⟩ ran

/-- Both branches of a decision reach as far. -/
theorem ite {condition : Prop} [Decidable condition] {first second : Parse α}
    (yes : condition → Reaches tokens At begun lo first Post)
    (no : ¬condition → Reaches tokens At begun lo second Post) :
    Reaches tokens At begun lo (if condition then first else second) Post := by
  split
  case isTrue holds => exact yes holds
  case isFalse fails => exact no fails

/-- A reader that fails has no result. -/
theorem failHere (message : String) :
    Reaches tokens At begun lo (failHere message : Parse α) Post :=
  fun _ _ _ _ _ _ ran => by cases ran

/-- A reader without steps has no result. -/
theorem giveUp : Reaches tokens At begun lo (giveUp : Parse α) Post :=
  fun _ _ _ _ _ _ ran => by cases ran

end Reaches

/-- The bodies of a statement end where the last statement in them stops. -/
theorem lastStop?_eq (bodies : List (List Stmt)) :
    lastStop? bodies = bodies.flatten.getLast?.map fun stmt => stmt.span.stop := by
  induction bodies with
  | nil => rfl
  | cons body bodies ih =>
      rw [lastStop?, List.reverse_cons, List.findSome?_append, ← lastStop?, ih, List.flatten_cons,
        List.getLast?_append, List.findSome?_singleton]
      cases bodies.flatten.getLast? <;> rfl

/-- A compound statement stops where its bodies end. -/
theorem compoundSpan_reaches {bodies : List (List Stmt)} {others : Span → Parse β}
    (settled : Settled start bodies.flatten lo)
    (second : ∀ stop, Settled start bodies.flatten stop →
      Reaches tokens At (some start) stop (others ⟨start, stop⟩) Last) :
    Reaches tokens At (some start) lo (compoundSpan start bodies >>= others) Last := by
  rw [compoundSpan, lastStop?_eq]
  cases last : bodies.flatten.getLast? with
  | some stmt =>
      obtain ⟨tight, le⟩ := settled.tighten last
      exact .known ((second _ tight).lower le)
  | none =>
      rw [List.getLast?_eq_none_iff] at last
      rw [last] at second
      exact .spanFrom fun stop ordered => second stop (.nil ordered)

end Grammar

end DocSketch
