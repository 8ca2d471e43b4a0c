import DocSketch.Proofs.Grammar.Progress
import DocSketch.Proofs.Grammar.Spelling

/-!
# Readers that run side by side

Two cursors stand before tokens that are spelled alike, up to a place where an expression ends
for both.  A reader of expressions that succeeds at the first one succeeds at the second one,
and gives the same up to places.

* `TokenKind.isIdle`: tokens that no reader of expressions goes past.
* `Parse.Mirroring`: relations between cursors that going past the same tokens keeps.
* `Parse.Mirrors`: what is said of two readers, with a rule for every step.
-/

namespace DocSketch

/-- Kinds of tokens that end a line or a statement; no expression goes past them. -/
def TokenKind.isIdle : TokenKind → Bool
  | .newline | .indent | .dedent | .semicolon | .eof => true
  | _ => false

namespace TokenKind

variable {kind other : TokenKind}

/-- No expression starts with layout. -/
theorem opening?_of_isIdle (idle : kind.isIdle = true) : kind.opening? = none := by
  cases kind <;> first | rfl | cases idle

/-- No expression goes on with layout. -/
theorem joining?_of_isIdle (idle : kind.isIdle = true) : kind.joining? = none := by
  cases kind <;> first | rfl | cases idle

/-- Layout is not a real token. -/
theorem ne_of_isIdle (idle : kind.isIdle = true) (real : other.isIdle = false) : kind ≠ other := by
  rintro rfl
  rw [idle] at real
  cases real

end TokenKind

namespace Cursor

variable {cursor : Cursor}

/-- What an expression starts with is told by the kind ahead. -/
theorem Sound.opening?_eq (sound : cursor.Sound) : cursor.opening? = cursor.kind.opening? := by
  rw [opening?, sound.full]
  rfl

/-- What an expression goes on with is told by the kind ahead. -/
theorem Sound.joining?_eq (sound : cursor.Sound) : cursor.joining? = cursor.kind.joining? := by
  rw [joining?, sound.full]
  rfl

/-- Expressions start with real tokens. -/
theorem Sound.real_of_opening {form : Opening} (sound : cursor.Sound)
    (opens : cursor.opening? = some form) : cursor.kind.isIdle = false := by
  rw [sound.opening?_eq] at opens
  cases idle : cursor.kind.isIdle with
  | false => rfl
  | true =>
      rw [TokenKind.opening?_of_isIdle idle] at opens
      cases opens

/-- Expressions go on with real tokens. -/
theorem Sound.real_of_joining {entry : Power × Joining} (sound : cursor.Sound)
    (joins : cursor.joining? = some entry) : cursor.kind.isIdle = false := by
  rw [sound.joining?_eq] at joins
  cases idle : cursor.kind.isIdle with
  | false => rfl
  | true =>
      rw [TokenKind.joining?_of_isIdle idle] at joins
      cases joins

/-- The token after the current one is the current one of the cursor behind it. -/
theorem Sound.peek_one (sound : cursor.Sound) (real : cursor.kind ≠ .eof) :
    cursor.peek 1 = cursor.advance.kind := by
  obtain ⟨file, isBare, previous, rest, stop⟩ := cursor
  cases rest with
  | nil => exact absurd sound.closed real
  | cons token rest => cases rest <;> rfl

end Cursor

namespace Parse

variable {α β γ δ : Type}

section Outcomes

variable {cursor next : Cursor} {expected : TokenKind} {values : List String}

/-- A token of the kind that is looked for is gone past. -/
theorem eat_of_eq (here : cursor.kind = expected) :
    eat expected cursor = .ok true cursor.advance := by
  change (if cursor.kind = expected then _ else _ : Parse Bool) cursor = _
  rw [if_pos here]
  rfl

/-- A token of another kind is left where it is. -/
theorem eat_of_ne (there : cursor.kind ≠ expected) : eat expected cursor = .ok false cursor := by
  change (if cursor.kind = expected then _ else _ : Parse Bool) cursor = _
  rw [if_neg there]
  rfl

/-- No token is taken where another kind is ahead. -/
theorem takeAll_of_ne (there : cursor.kind ≠ expected) :
    takeAll expected cursor = .ok [] cursor := by
  obtain ⟨file, isBare, previous, rest, stop⟩ := cursor
  change EStateM.Result.ok ((rest.takeWhile (·.kind == expected)).map Token.value)
    (Cursor.mk file isBare ((rest.takeWhile (·.kind == expected)).getLastD previous)
      (rest.dropWhile (·.kind == expected)) stop) = _
  cases rest with
  | nil => rfl
  | cons token rest =>
      have fails : ¬(token.kind == expected) = true := fun found => there (eq_of_beq found)
      rw [List.takeWhile_cons, List.dropWhile_cons, if_neg fails, if_neg fails]
      rfl

/-- A token that is taken comes before those taken behind it. -/
theorem takeAll_of_eq (real : cursor.kind ≠ cursor.stop.kind) (here : cursor.kind = expected)
    (ran : takeAll expected cursor.advance = .ok values next) :
    takeAll expected cursor = .ok (cursor.current.value :: values) next := by
  obtain ⟨file, isBare, previous, rest, stop⟩ := cursor
  cases rest with
  | nil => exact absurd rfl real
  | cons token rest =>
      have holds : (token.kind == expected) = true := beq_iff_eq.mpr here
      change EStateM.Result.ok (((token :: rest).takeWhile (·.kind == expected)).map Token.value)
        (Cursor.mk file isBare (((token :: rest).takeWhile (·.kind == expected)).getLastD previous)
          ((token :: rest).dropWhile (·.kind == expected)) stop) = _
      rw [List.takeWhile_cons, List.dropWhile_cons, if_pos holds, if_pos holds,
        List.getLastD_cons, List.map_cons]
      cases ran
      rfl

end Outcomes

/-- At related cursors, if the first reader succeeds, so does the second one; the cursors behind
them are related, and the results look the same. -/
def Mirrors (Before After : Cursor → Cursor → Prop) (view : α → γ) (reader other : Parse α) :
    Prop :=
  ∀ cursor cursor' value next, Before cursor cursor' → reader cursor = .ok value next →
    ∃ value' next', other cursor' = .ok value' next' ∧ After next next' ∧ view value = view value'

/-- Related cursors of which the first one is such a cursor. -/
def Facing (Such : Cursor → Prop) (R : Cursor → Cursor → Prop) (cursor other : Cursor) : Prop :=
  R cursor other ∧ Such cursor

/-- Related cursors before a token that a reader of expressions can go past. -/
abbrev Midway (R : Cursor → Cursor → Prop) : Cursor → Cursor → Prop :=
  Facing (·.kind.isIdle = false) R

/-- A token of the kind `expected` stands at both cursors or at none; it is spelled alike, and the
cursors behind it are related in another way. -/
structure Crosses (Before : Cursor → Cursor → Prop) (expected : TokenKind)
    (After : Cursor → Cursor → Prop) : Prop where
  kind_iff : ∀ {cursor other : Cursor}, Before cursor other →
    (cursor.kind = expected ↔ other.kind = expected)
  spelled : ∀ {cursor other : Cursor}, Before cursor other → cursor.kind = expected →
    cursor.current.spelling = other.current.spelling
  behind : ∀ {cursor other : Cursor}, Before cursor other → cursor.kind = expected →
    After cursor.advance other.advance

/-- Crossing from fewer pairs of cursors. -/
theorem Crosses.narrow {Before After Other : Cursor → Cursor → Prop} {expected : TokenKind}
    (crosses : Crosses Before expected After)
    (narrower : ∀ {cursor other : Cursor}, Other cursor other → Before cursor other) :
    Crosses Other expected After where
  kind_iff related := crosses.kind_iff (narrower related)
  spelled related := crosses.spelled (narrower related)
  behind related := crosses.behind (narrower related)

/-- A relation between cursors before tokens that are spelled alike, unless both stand where an
expression ends; going past such a token keeps it. -/
structure Mirroring (R : Cursor → Cursor → Prop) : Prop where
  sound : ∀ {cursor other : Cursor}, R cursor other → cursor.Sound ∧ other.Sound
  current : ∀ {cursor other : Cursor}, R cursor other →
    cursor.kind.isIdle = true ∧ other.kind.isIdle = true ∨
      cursor.current.spelling = other.current.spelling
  advance : ∀ {cursor other : Cursor}, R cursor other → cursor.kind.isIdle = false →
    R cursor.advance other.advance

namespace Mirroring

variable {R : Cursor → Cursor → Prop} {cursor other : Cursor} (mirroring : Mirroring R)

include mirroring

/-- What is told by the kind of a token, and fails where expressions end, is the same at both. -/
theorem test_eq (related : R cursor other) {α : Type} {test : TokenKind → α} {value : α}
    (idles : ∀ kind : TokenKind, kind.isIdle = true → test kind = value) :
    test cursor.kind = test other.kind := by
  rcases mirroring.current related with ⟨idle, idle'⟩ | same
  · rw [idles _ idle, idles _ idle']
  · exact congrArg (test ∘ Prod.fst) same

/-- Related cursors see the same real kinds. -/
theorem kind_iff (related : R cursor other) {expected : TokenKind}
    (real : expected.isIdle = false) : cursor.kind = expected ↔ other.kind = expected := by
  have none : ∀ kind : TokenKind, kind.isIdle = true → (kind = expected) = False :=
    fun _ idle => eq_false (TokenKind.ne_of_isIdle idle real)
  exact iff_of_eq (mirroring.test_eq related none)

/-- Cursors at real tokens see the same spelling. -/
theorem spelling_eq (midway : Midway R cursor other) :
    cursor.current.spelling = other.current.spelling := by
  obtain ⟨related, real⟩ := midway
  rcases mirroring.current related with ⟨idle, -⟩ | same
  · rw [idle] at real
    cases real
  · exact same

/-- Related cursors see the same start of an expression. -/
theorem opening?_eq (related : R cursor other) : cursor.opening? = other.opening? := by
  rw [(mirroring.sound related).1.opening?_eq, (mirroring.sound related).2.opening?_eq]
  exact mirroring.test_eq related fun _ => TokenKind.opening?_of_isIdle

/-- Related cursors see the same way to go on. -/
theorem joining?_eq (related : R cursor other) : cursor.joining? = other.joining? := by
  rw [(mirroring.sound related).1.joining?_eq, (mirroring.sound related).2.joining?_eq]
  exact mirroring.test_eq related fun _ => TokenKind.joining?_of_isIdle

/-- A token and the one after it are told in the same way at both cursors. -/
theorem pair_iff (related : R cursor other) {first second : TokenKind}
    (real : first.isIdle = false) (real' : second.isIdle = false) :
    (cursor.kind = first ∧ cursor.peek 1 = second) ↔
      (other.kind = first ∧ other.peek 1 = second) := by
  have begins := mirroring.kind_iff related real
  by_cases here : cursor.kind = first
  · have plain : cursor.kind.isIdle = false := here ▸ real
    have plain' : other.kind.isIdle = false := begins.mp here ▸ real
    have left := (mirroring.sound related).1.peek_one (TokenKind.ne_of_isIdle rfl plain).symm
    have right := (mirroring.sound related).2.peek_one (TokenKind.ne_of_isIdle rfl plain').symm
    rw [left, right, ← begins, mirroring.kind_iff (mirroring.advance related plain) real']
  · have there : other.kind ≠ first := fun found => here (begins.mpr found)
    exact ⟨fun found => absurd found.1 here, fun found => absurd found.1 there⟩

/-- Related cursors stand at clauses together. -/
theorem atClause_iff (related : R cursor other) :
    (cursor.kind = .forKw ∨ cursor.kind = .asyncKw ∧ cursor.peek 1 = .forKw) ↔
      (other.kind = .forKw ∨ other.kind = .asyncKw ∧ other.peek 1 = .forKw) :=
  or_congr (mirroring.kind_iff related rfl) (mirroring.pair_iff related rfl rfl)

/-- Real tokens are crossed together. -/
theorem crosses {expected : TokenKind} (real : expected.isIdle = false) :
    Crosses R expected R where
  kind_iff related := mirroring.kind_iff related real
  spelled related here := mirroring.spelling_eq ⟨related, (congrArg _ here).trans real⟩
  behind related here := mirroring.advance related (here ▸ real)

end Mirroring

namespace Mirrors

variable {Before Middle After Other : Cursor → Cursor → Prop} {view : α → γ}
  {sight : β → δ} {reader other : Parse α} {others others' : α → Parse β}
  {yes no yes' no' : Parse β} {expected : TokenKind} {Such : Cursor → Prop}

/-- Fewer pairs of cursors to start from. -/
theorem narrow (mirrors : Mirrors Before After view reader other)
    (narrower : ∀ {cursor cursor' : Cursor}, Other cursor cursor' → Before cursor cursor') :
    Mirrors Other After view reader other :=
  fun cursor cursor' value next related => mirrors cursor cursor' value next (narrower related)

/-- More pairs of cursors to end with. -/
theorem widen (mirrors : Mirrors Before After view reader other)
    (wider : ∀ {cursor cursor' : Cursor}, After cursor cursor' → Other cursor cursor') :
    Mirrors Before Other view reader other := by
  intro cursor cursor' value next related ran
  obtain ⟨value', next', ran', behind, alike⟩ := mirrors cursor cursor' value next related ran
  exact ⟨value', next', ran', wider behind, alike⟩

/-- What is known of the current token may be forgotten. -/
theorem facing (mirrors : Mirrors Before After view reader other) :
    Mirrors (Facing Such Before) After view reader other :=
  mirrors.narrow And.left

/-- A reader that needs a token to go past is behind a test for one. -/
theorem before (mirrors : Mirrors (Midway Before) After view reader other)
    (real : expected.isIdle = false) :
    Mirrors (Facing (·.kind = expected) Before) After view reader other :=
  mirrors.narrow fun facing => ⟨facing.1, (congrArg _ facing.2).trans real⟩

/-- A reader that needs a token to go past is at a cursor that is known. -/
theorem here {cursor : Cursor} (mirrors : Mirrors (Midway Before) After view reader other)
    (real : cursor.kind.isIdle = false) :
    Mirrors (Facing (· = cursor) Before) After view reader other :=
  mirrors.narrow fun facing => ⟨facing.1, facing.2 ▸ real⟩

theorem pure {value value' : α} (alike : view value = view value') :
    Mirrors Before Before view (pure value) (pure value') := by
  intro cursor cursor' found next related ran
  cases ran
  exact ⟨value', cursor', rfl, related, alike⟩

/-- One pair of readers after the other. -/
theorem bind (first : Mirrors Before Middle view reader other)
    (second : ∀ value value', view value = view value' →
      Mirrors Middle After sight (others value) (others' value')) :
    Mirrors Before After sight (reader >>= others) (other >>= others') := by
  intro cursor cursor' result next related ran
  obtain ⟨value, middle, read, ran⟩ := ran_bind ran
  obtain ⟨value', middle', read', between, alike⟩ :=
    first cursor cursor' value middle related read
  obtain ⟨result', next', ran', behind, alike'⟩ :=
    second value value' alike middle middle' result next between ran
  refine ⟨result', next', ?_, behind, alike'⟩
  change EStateM.bind other others' cursor' = _
  rw [EStateM.bind, read']
  exact ran'

/-- A value that is at hand. -/
theorem supply {value value' : α}
    (second : Mirrors Before After sight (others value) (others' value')) :
    Mirrors Before After sight (Pure.pure value >>= others) (Pure.pure value' >>= others') :=
  second

/-- A reader that only looks. -/
theorem look {value value' : Cursor → α}
    (looks : ∀ cursor, reader cursor = .ok (value cursor) cursor)
    (looks' : ∀ cursor, other cursor = .ok (value' cursor) cursor)
    (second : ∀ cursor cursor' : Cursor, Before cursor cursor' →
      Mirrors (Facing (· = cursor) Before) After sight (others (value cursor))
        (others' (value' cursor'))) :
    Mirrors Before After sight (reader >>= others) (other >>= others') := by
  intro cursor cursor' result next related ran
  obtain ⟨found, middle, read, ran⟩ := ran_bind ran
  rw [looks cursor] at read
  cases read
  obtain ⟨result', next', ran', behind, alike'⟩ :=
    second cursor cursor' related cursor cursor' result next ⟨related, rfl⟩ ran
  refine ⟨result', next', ?_, behind, alike'⟩
  change EStateM.bind other others' cursor' = _
  rw [EStateM.bind, looks' cursor']
  exact ran'

theorem get {use use' : Cursor → Parse β}
    (second : ∀ cursor cursor' : Cursor, Before cursor cursor' →
      Mirrors (Facing (· = cursor) Before) After sight (use cursor) (use' cursor')) :
    Mirrors Before After sight (MonadState.get >>= use) (MonadState.get >>= use') :=
  look (fun _ => rfl) (fun _ => rfl) second

/-- Both readers look at the kinds ahead. -/
theorem kind {use use' : TokenKind → Parse β}
    (second : ∀ cursor cursor' : Cursor, Before cursor cursor' →
      Mirrors (Facing (· = cursor) Before) After sight (use cursor.kind) (use' cursor'.kind)) :
    Mirrors Before After sight (kind >>= use) (Parse.kind >>= use') :=
  look (fun _ => rfl) (fun _ => rfl) second

/-- Places that are read may differ. -/
theorem offset {use use' : Nat → Parse β}
    (second : ∀ start start', Mirrors Before After sight (use start) (use' start')) :
    Mirrors Before After sight (offset >>= use) (Parse.offset >>= use') :=
  look (fun _ => rfl) (fun _ => rfl) fun _ _ _ => (second _ _).facing

/-- Spans that are read may differ. -/
theorem spanFrom {start start' : Nat} {use use' : Span → Parse β}
    (second : ∀ span span', Mirrors Before After sight (use span) (use' span')) :
    Mirrors Before After sight (spanFrom start >>= use) (Parse.spanFrom start' >>= use') :=
  look (fun _ => rfl) (fun _ => rfl) fun _ _ _ => (second _ _).facing

/-- Decisions that come out alike. -/
theorem ite {condition condition' : Prop} [Decidable condition] [Decidable condition']
    (same : condition ↔ condition') (holds : condition → Mirrors Before After sight yes yes')
    (fails : ¬condition → Mirrors Before After sight no no') :
    Mirrors Before After sight (if condition then yes else no)
      (if condition' then yes' else no') := by
  by_cases here : condition
  · rw [if_pos here, if_pos (same.mp here)]
    exact holds here
  · rw [if_neg here, if_neg fun there => here (same.mpr there)]
    exact fails here

/-- A reader that fails has no result to compare. -/
theorem failAt (cause : Cause) (offset : Nat) :
    Mirrors Before After view (failAt cause offset) other :=
  fun _ _ _ _ _ ran => by cases ran

/-- The same for a failure at the current token. -/
theorem failHere (message : String) : Mirrors Before After view (failHere message) other :=
  fun _ _ _ _ _ ran => by cases ran

/-- A reader without steps has no result to compare. -/
theorem exhausted (gives : reader = giveUp) : Mirrors Before After view reader other := by
  intro cursor cursor' value next _ ran
  rw [gives] at ran
  cases ran

section Crossing

variable (crosses : Crosses Before expected Middle)

include crosses

/-- Going past a token that is known to be ahead. -/
theorem step :
    Mirrors (Facing (·.kind = expected) Before) Middle Token.spelling advance advance := by
  rintro cursor cursor' token next ⟨related, here⟩ ran
  cases ran
  exact ⟨_, _, rfl, crosses.behind related here, crosses.spelled related here⟩

/-- A branch on the kind of the current token. -/
theorem ifKind (holds : Mirrors (Facing (·.kind = expected) Before) After sight yes yes')
    (fails : Mirrors (Facing (·.kind ≠ expected) Before) After sight no no') :
    Mirrors Before After sight (Parse.kind >>= fun kind => if kind = expected then yes else no)
      (Parse.kind >>= fun kind => if kind = expected then yes' else no') := by
  refine .kind fun cursor cursor' related => .ite (crosses.kind_iff related) (fun here => ?_)
    fun there => ?_
  · exact holds.narrow fun facing => ⟨facing.1, facing.2 ▸ here⟩
  · exact fails.narrow fun facing => ⟨facing.1, facing.2 ▸ there⟩

/-- A token that is asked for has the same spelling in both. -/
theorem expectOr (message : String) :
    Mirrors Before Middle Token.spelling (expectOr expected message)
      (Parse.expectOr expected message) :=
  ifKind crosses (step crosses) (.failHere message)

/-- The same for a token that is asked for without a message of its own. -/
theorem expect : Mirrors Before Middle Token.spelling (expect expected) (Parse.expect expected) :=
  expectOr crosses _

/-- A token that is looked for is found in both or in neither. -/
theorem eat : Mirrors Before (fun next next' => Before next next' ∨ Middle next next') id
    (eat expected) (Parse.eat expected) := by
  refine ifKind crosses (.bind (step crosses) fun _ _ _ => ?_) ?_
  · exact (pure rfl).widen .inr
  · exact ((pure rfl).widen .inl).facing

/-- A branch on whether a token has been gone past. -/
theorem ifEaten (eaten : Mirrors Middle After sight yes yes')
    (left : Mirrors (Facing (·.kind ≠ expected) Before) After sight no no') :
    Mirrors Before After sight
      (Parse.eat expected >>= fun eaten => if eaten = true then yes else no)
      (Parse.eat expected >>= fun eaten => if eaten = true then yes' else no') := by
  intro cursor cursor' result next related ran
  obtain ⟨found, middle, read, ran⟩ := ran_bind ran
  by_cases here : cursor.kind = expected
  · rw [eat_of_eq here] at read
    cases read
    obtain ⟨result', next', ran', rest⟩ :=
      eaten _ _ result next (crosses.behind related here) ran
    refine ⟨result', next', ?_, rest⟩
    change EStateM.bind (Parse.eat expected) _ cursor' = _
    rw [EStateM.bind, eat_of_eq ((crosses.kind_iff related).mp here)]
    exact ran'
  · rw [eat_of_ne here] at read
    cases read
    obtain ⟨result', next', ran', rest⟩ := left _ _ result next ⟨related, here⟩ ran
    refine ⟨result', next', ?_, rest⟩
    change EStateM.bind (Parse.eat expected) _ cursor' = _
    rw [EStateM.bind, eat_of_ne fun found => here ((crosses.kind_iff related).mpr found)]
    exact ran'

end Crossing

/-- All tokens of one kind are gone past on both sides. -/
theorem takeAll {R : Cursor → Cursor → Prop} (crosses : Crosses R expected R)
    (real : expected ≠ .eof)
    (sound : ∀ {cursor other : Cursor}, R cursor other → cursor.Sound ∧ other.Sound) :
    Mirrors R R id (takeAll expected) (Parse.takeAll expected) := by
  intro cursor
  induction size : cursor.rest.length using Nat.strongRecOn generalizing cursor with
  | ind left ih =>
      intro cursor' values next related ran
      by_cases here : cursor.kind = expected
      · have there := (crosses.kind_iff related).mp here
        have inside : cursor.kind ≠ cursor.stop.kind := by
          rw [here, (sound related).1.closed]
          exact real
        have inside' : cursor'.kind ≠ cursor'.stop.kind := by
          rw [there, (sound related).2.closed]
          exact real
        have shorter : cursor.advance.rest.length < left := by
          rw [← size]
          obtain ⟨file, isBare, previous, rest, stop⟩ := cursor
          cases rest with
          | nil => exact absurd rfl inside
          | cons token rest => exact Nat.lt_succ_self _
        obtain ⟨values', next', ran', behind, same⟩ :=
          ih _ shorter _ rfl _ _ _ (crosses.behind related here) rfl
        subst same
        rw [takeAll_of_eq inside here rfl] at ran
        cases ran
        refine ⟨_, next', takeAll_of_eq inside' there ran', behind, ?_⟩
        exact congrArg (· :: _) (congrArg Prod.snd (crosses.spelled related here))
      · have there : cursor'.kind ≠ expected := fun found =>
          here ((crosses.kind_iff related).mpr found)
        rw [takeAll_of_ne here] at ran
        cases ran
        exact ⟨[], cursor', takeAll_of_ne there, related, rfl⟩

section Mirroring

variable {R : Cursor → Cursor → Prop} (mirroring : Mirroring R)

include mirroring

/-- At a real token, both readers go past the same spelling. -/
theorem advance : Mirrors (Midway R) R Token.spelling advance Parse.advance := by
  intro cursor cursor' token next midway ran
  cases ran
  exact ⟨_, _, rfl, mirroring.advance midway.1 midway.2, mirroring.spelling_eq midway⟩

/-- Going past a token before another one. -/
theorem advanceToward {cursor : Cursor} (real : cursor.kind.isIdle = false)
    (real' : cursor.advance.kind.isIdle = false) :
    Mirrors (Facing (· = cursor) R) (Midway R) Token.spelling Parse.advance Parse.advance := by
  rintro here cursor' token next ⟨related, rfl⟩ ran
  cases ran
  exact ⟨_, _, rfl, ⟨mirroring.advance related real, real'⟩,
    mirroring.spelling_eq ⟨related, real⟩⟩

/-- A token that may be there or not. -/
theorem eats (real : expected.isIdle = false) :
    Mirrors R R id (Parse.eat expected) (Parse.eat expected) :=
  (eat (mirroring.crosses real)).widen (Or.elim · id id)

/-- Both readers see whether an expression starts. -/
theorem ifExpression (holds : Mirrors R After sight yes yes')
    (fails : Mirrors R After sight no no') :
    Mirrors R After sight (atExpression >>= fun found => if found = true then yes else no)
      (atExpression >>= fun found => if found = true then yes' else no') := by
  refine look (fun _ => rfl) (fun _ => rfl) fun cursor cursor' related => ?_
  rw [mirroring.opening?_eq related]
  exact .ite Iff.rfl (fun _ => holds.facing) fun _ => fails.facing

/-- Both readers see whether a clause starts. -/
theorem ifClause (holds : Mirrors R After sight yes yes') (fails : Mirrors R After sight no no') :
    Mirrors R After sight (Grammar.atClause >>= fun found => if found = true then yes else no)
      (Grammar.atClause >>= fun found => if found = true then yes' else no') := by
  refine look (fun _ => rfl) (fun _ => rfl) fun cursor cursor' related => ?_
  rw [decide_eq_decide.mpr (mirroring.atClause_iff related)]
  exact .ite Iff.rfl (fun _ => holds.facing) fun _ => fails.facing

end Mirroring

end Mirrors

end Parse

end DocSketch
