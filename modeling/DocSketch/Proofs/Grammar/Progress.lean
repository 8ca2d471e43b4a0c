import DocSketch.Proofs.Grammar.Runs

/-!
# Progress of readers

A reader goes on in the list of tokens or stays where it is, whether it succeeds or fails.
Where few enough tokens are left, the bound on how deeply readers call each other does not
matter: the reader does not give up, and a larger bound changes nothing.

* `Cursor.Sound`: a cursor in a list that the end of a file closes.
* `Parse.Ends`: what is said of a reader and of the same reader with a larger bound.
* `Parse.Ends.bind`: readers one after the other; the tokens that the first one goes past
  are no longer left for the second one.
-/

namespace DocSketch

/-- The tables of the grammar are in use, and the end of a file closes the tokens. -/
structure Cursor.Sound (cursor : Cursor) : Prop where
  full : cursor.isBare = false
  closed : cursor.stop.kind = .eof

namespace Cursor

variable {cursor next : Cursor} {passed : List Token}

/-- A cursor stands among the tokens it has ahead. -/
theorem Sound.within (sound : cursor.Sound) : cursor.Within cursor.rest :=
  ⟨sound.full, sound.closed, [], rfl⟩

/-- A cursor stays sound as it goes past tokens. -/
theorem Passes.sound (passes : cursor.Passes passed next) (sound : cursor.Sound) : next.Sound :=
  ⟨passes.isBare.trans sound.full, passes.stop ▸ sound.closed⟩

/-- Tokens that are gone past are no longer ahead. -/
theorem Passes.length (passes : cursor.Passes passed next) :
    cursor.rest.length = passed.length + next.rest.length := by
  rw [passes.rest, List.length_append]

/-- A cursor at the start of tokens is sound. -/
theorem sound_ofTokens (file : String) (tokens : List Token) :
    (ofTokens file false tokens).Sound := by
  unfold ofTokens
  split
  · split
    case isTrue ended => exact ⟨rfl, ended⟩
    case isFalse => exact ⟨rfl, rfl⟩
  · exact ⟨rfl, rfl⟩

end Cursor

namespace Parse

variable {α β : Type}

/-- The outcome of a reader that goes past some tokens ahead, and on success past at least
`least` of them. -/
def GoesOn (cursor : Cursor) (least : α → Nat) : EStateM.Result Fault Cursor α → Prop
  | .ok value next => ∃ passed, cursor.Passes passed next ∧ least value ≤ passed.length
  | .error _ next => ∃ passed, cursor.Passes passed next

/-- The outcome of a reader whose bound is exceeded. -/
def GaveUp : EStateM.Result Fault Cursor α → Prop
  | .ok _ _ => False
  | .error fault _ => ∃ text, fault.cause = .unexpectedToken text

/-- At tokens of the given kinds the reader goes on; with less than `size` tokens ahead it does
not give up, and `other`, the same reader with a larger bound, has the same outcome. -/
def Ends (size : Nat) (At : TokenKind → Prop) (least : α → Nat) (reader other : Parse α) : Prop :=
  ∀ cursor : Cursor, cursor.Sound → At cursor.kind →
    GoesOn cursor least (reader cursor) ∧
      (cursor.rest.length < size → other cursor = reader cursor ∧ ¬GaveUp (reader cursor))

/-- Any token may be ahead. -/
abbrev Anything (_ : TokenKind) : Prop := True

variable {size more : Nat} {At Here : TokenKind → Prop} {least fewer : α → Nat} {count : β → Nat}
  {reader other : Parse α} {yes no yes' no' : Parse β} {others others' : α → Parse β}
  {expected : TokenKind}

namespace Ends

theorem mono (ends : Ends more Here fewer reader other) (smaller : size ≤ more)
    (narrower : ∀ kind, At kind → Here kind) (weaker : ∀ value, least value ≤ fewer value) :
    Ends size At least reader other := by
  intro cursor sound here
  obtain ⟨goes, same⟩ := ends cursor sound (narrower _ here)
  refine ⟨?_, fun short => same (Nat.lt_of_lt_of_le short smaller)⟩
  cases outcome : reader cursor with
  | error fault next =>
      rw [outcome] at goes
      exact goes
  | ok value next =>
      rw [outcome] at goes
      obtain ⟨passed, passes, enough⟩ := goes
      exact ⟨passed, passes, Nat.le_trans (weaker value) enough⟩

/-- A reader that ends everywhere ends at tokens of a kind. -/
theorem anywhere (ends : Ends size Anything least reader other) : Ends size At least reader other :=
  ends.mono (Nat.le_refl _) (fun _ _ => trivial) fun _ => Nat.le_refl _

/-- An outcome at which the cursor has not moved and the bound does not matter. -/
theorem stays (same : ∀ cursor : Cursor, cursor.Sound → At cursor.kind →
      other cursor = reader cursor ∧
        ((∃ value, reader cursor = .ok value cursor ∧ least value = 0) ∨
          ∃ fault, reader cursor = .error fault cursor ∧
            ∀ text, fault.cause ≠ .unexpectedToken text)) :
    Ends size At least reader other := by
  intro cursor sound here
  obtain ⟨equal, ⟨value, outcome, none⟩ | ⟨fault, outcome, decided⟩⟩ := same cursor sound here
  · refine ⟨?_, fun _ => ⟨equal, ?_⟩⟩
    · rw [outcome]
      exact ⟨[], .none cursor, Nat.le_of_eq none⟩
    · rw [outcome]
      exact id
  · refine ⟨?_, fun _ => ⟨equal, ?_⟩⟩
    · rw [outcome]
      exact ⟨[], .none cursor⟩
    · rw [outcome]
      exact fun ⟨text, cause⟩ => decided text cause

theorem pure {value : α} (none : least value = 0) : Ends size At least (pure value) (pure value) :=
  stays fun _ _ _ => ⟨rfl, .inl ⟨value, rfl, none⟩⟩

/-- A failure that does not come from missing steps is no matter of steps. -/
theorem failAt {cause : Cause} (decided : ∀ text, cause ≠ .unexpectedToken text) (offset : Nat) :
    Ends size At least (failAt cause offset) (failAt cause offset) :=
  stays fun _ _ _ => ⟨rfl, .inr ⟨_, rfl, decided⟩⟩

/-- The same for a failure at the current token. -/
theorem failHere (message : String) : Ends size At least (failHere message) (failHere message) :=
  stays fun _ _ _ => ⟨rfl, .inr ⟨_, rfl, fun _ => Cause.noConfusion⟩⟩

/-- With no bound left nothing is said but that the cursor stays. -/
theorem giveUp : Ends 0 At least giveUp other :=
  fun cursor _ _ => ⟨⟨[], .none cursor⟩, fun short => absurd short (Nat.not_lt_zero _)⟩

/-- What the first reader takes need not be gone past by the second one. -/
theorem bind (first : Ends size At least reader other)
    (second : ∀ value, Ends (size - least value) Anything (fun result => count result - least value)
      (others value) (others' value)) :
    Ends size At count (reader >>= others) (other >>= others') := by
  intro cursor sound here
  obtain ⟨goes, same⟩ := first cursor sound here
  change GoesOn cursor count (EStateM.bind reader others cursor) ∧
    (_ → EStateM.bind other others' cursor = EStateM.bind reader others cursor ∧
      ¬GaveUp (EStateM.bind reader others cursor))
  unfold EStateM.bind
  cases outcome : reader cursor with
  | error fault next =>
      rw [outcome] at goes same
      refine ⟨goes, fun short => ?_⟩
      obtain ⟨equal, decided⟩ := same short
      rw [equal]
      exact ⟨rfl, decided⟩
  | ok value middle =>
      rw [outcome] at goes same
      obtain ⟨passed, passes, enough⟩ := goes
      obtain ⟨then', rest⟩ := second value middle (passes.sound sound) trivial
      have lengths := passes.length
      refine ⟨?_, fun short => ?_⟩
      · dsimp only
        cases result : others value middle with
        | error fault next =>
            rw [result] at then'
            obtain ⟨later, goes⟩ := then'
            exact ⟨passed ++ later, passes.trans goes⟩
        | ok found next =>
            rw [result] at then'
            obtain ⟨later, goes, more⟩ := then'
            refine ⟨passed ++ later, passes.trans goes, ?_⟩
            rw [List.length_append]
            dsimp only at more
            omega
      · rw [(same short).1]
        exact rest (by omega)

/-- Readers of which the first one goes past a token for certain. -/
theorem step (first : Ends size At (fun _ => 1) reader other)
    (second : ∀ value, Ends (size - 1) Anything (fun result => count result - 1) (others value)
      (others' value)) : Ends size At count (reader >>= others) (other >>= others') :=
  first.bind second

/-- Readers of which the first one may stay where it is. -/
theorem andThen (first : Ends size At (fun _ => 0) reader other)
    (second : ∀ value, Ends size Anything count (others value) (others' value)) :
    Ends size At count (reader >>= others) (other >>= others') :=
  first.bind second

/-- A reader that only looks. -/
theorem look {value : Cursor → α} (looks : ∀ cursor, reader cursor = .ok (value cursor) cursor)
    (second : ∀ cursor : Cursor, At cursor.kind →
      Ends size (· = cursor.kind) count (others (value cursor)) (others' (value cursor))) :
    Ends size At count (reader >>= others) (reader >>= others') := by
  intro cursor sound here
  change GoesOn cursor count (EStateM.bind reader others cursor) ∧
    (_ → EStateM.bind reader others' cursor = EStateM.bind reader others cursor ∧
      ¬GaveUp (EStateM.bind reader others cursor))
  unfold EStateM.bind
  rw [looks cursor]
  exact second cursor here cursor sound rfl

theorem get {use use' : Cursor → Parse β}
    (second : ∀ cursor : Cursor, At cursor.kind →
      Ends size (· = cursor.kind) count (use cursor) (use' cursor)) :
    Ends size At count (MonadState.get >>= use) (MonadState.get >>= use') :=
  look (fun _ => rfl) second

/-- Looking at the kind ahead takes no step. -/
theorem kind {use use' : TokenKind → Parse β}
    (second : ∀ kind, At kind → Ends size (· = kind) count (use kind) (use' kind)) :
    Ends size At count (kind >>= use) (Parse.kind >>= use') :=
  look (fun _ => rfl) fun cursor here => second cursor.kind here

/-- Looking at the place takes no step. -/
theorem offset {use use' : Nat → Parse β}
    (second : ∀ start, Ends size At count (use start) (use' start)) :
    Ends size At count (offset >>= use) (Parse.offset >>= use') :=
  look (fun _ => rfl) fun _ here => (second _).mono (Nat.le_refl _) (fun _ same => same ▸ here)
    fun _ => Nat.le_refl _

theorem spanFrom {start : Nat} {use use' : Span → Parse β}
    (second : ∀ span, Ends size At count (use span) (use' span)) :
    Ends size At count (spanFrom start >>= use) (Parse.spanFrom start >>= use') :=
  look (fun _ => rfl) fun _ here => (second _).mono (Nat.le_refl _) (fun _ same => same ▸ here)
    fun _ => Nat.le_refl _

/-- Asking whether an expression starts takes no step. -/
theorem atExpression {use use' : Bool → Parse β}
    (second : ∀ found, Ends size At count (use found) (use' found)) :
    Ends size At count (atExpression >>= use) (Parse.atExpression >>= use') :=
  look (fun _ => rfl) fun _ here => (second _).mono (Nat.le_refl _) (fun _ same => same ▸ here)
    fun _ => Nat.le_refl _

/-- Asking whether a clause starts takes no step. -/
theorem atClause {use use' : Bool → Parse β}
    (second : ∀ found, Ends size At count (use found) (use' found)) :
    Ends size At count (Grammar.atClause >>= use) (Grammar.atClause >>= use') :=
  look (fun _ => rfl) fun _ here => (second _).mono (Nat.le_refl _) (fun _ same => same ▸ here)
    fun _ => Nat.le_refl _

/-- Going past a token that is not the end of the file. -/
theorem advance (real : ∀ kind, At kind → kind ≠ .eof) :
    Ends size At (fun _ => 1) advance Parse.advance := by
  intro cursor sound here
  exact ⟨⟨[cursor.current], sound.within.advance (real _ here), Nat.le_refl _⟩,
    fun _ => ⟨rfl, id⟩⟩

/-- Going past a token, if there is one. -/
theorem advances : Ends size At (fun _ => 0) Parse.advance Parse.advance := by
  rintro ⟨file, isBare, previous, rest, stop⟩ sound _
  refine ⟨?_, fun _ => ⟨rfl, id⟩⟩
  cases rest with
  | nil => exact ⟨[], .none _, Nat.le_refl _⟩
  | cons token rest => exact ⟨[token], ⟨rfl, rfl, rfl, rfl⟩, Nat.zero_le _⟩

/-- Asking for a token takes one if it succeeds. -/
theorem expectOr (real : expected ≠ .eof) (message : String) :
    Ends size At (fun _ => 1) (expectOr expected message) (Parse.expectOr expected message) := by
  intro cursor sound _
  by_cases here : cursor.kind = expected
  · have moved : Parse.expectOr expected message cursor = .ok cursor.current cursor.advance := by
      change (if cursor.kind = expected then Parse.advance else Parse.failHere message) cursor = _
      rw [if_pos here]
      rfl
    rw [moved]
    exact ⟨⟨[cursor.current], sound.within.advance (here ▸ real), Nat.le_refl _⟩,
      fun _ => ⟨rfl, id⟩⟩
  · have failed : Parse.expectOr expected message cursor =
        (Parse.failHere message : Parse Token) cursor := by
      change (if cursor.kind = expected then Parse.advance else Parse.failHere message) cursor = _
      rw [if_neg here]
    rw [failed]
    have fails : Ends size Anything (fun _ => 1) (Parse.failHere message : Parse Token) _ :=
      failHere message
    exact fails cursor sound trivial

theorem expect (real : expected ≠ .eof) :
    Ends size At (fun _ => 1) (expect expected) (Parse.expect expected) := expectOr real _

/-- Looking for a token takes one if it is there. -/
theorem eat (real : expected ≠ .eof) :
    Ends size At Bool.toNat (eat expected) (Parse.eat expected) := by
  intro cursor sound _
  by_cases here : cursor.kind = expected
  · have moved : Parse.eat expected cursor = .ok true cursor.advance := by
      change (if cursor.kind = expected then _ else _ : Parse Bool) cursor = _
      rw [if_pos here]
      rfl
    rw [moved]
    exact ⟨⟨[cursor.current], sound.within.advance (here ▸ real), Nat.le_refl _⟩,
      fun _ => ⟨rfl, id⟩⟩
  · have stayed : Parse.eat expected cursor = .ok false cursor := by
      change (if cursor.kind = expected then _ else _ : Parse Bool) cursor = _
      rw [if_neg here]
      rfl
    rw [stayed]
    exact ⟨⟨[], .none cursor, Nat.le_refl _⟩, fun _ => ⟨rfl, id⟩⟩

/-- A token that may be there or not. -/
theorem eats (real : expected ≠ .eof) :
    Ends size At (fun _ => 0) (Parse.eat expected) (Parse.eat expected) :=
  (eat real).mono (Nat.le_refl _) (fun _ here => here) fun _ => Nat.zero_le _

theorem takeAll : Ends size At (fun _ => 0) (takeAll expected) (Parse.takeAll expected) := by
  intro cursor sound _
  refine ⟨⟨cursor.rest.takeWhile (·.kind == expected), ⟨?_, rfl, rfl, rfl⟩, Nat.zero_le _⟩,
    fun _ => ⟨rfl, id⟩⟩
  exact List.takeWhile_append_dropWhile.symm

/-- A branch on whether a token has been gone past. -/
theorem ifEaten (real : expected ≠ .eof)
    (eaten : Ends (size - 1) Anything (fun result => count result - 1) yes yes')
    (left : Ends size Anything count no no') :
    Ends size At count (Parse.eat expected >>= fun eaten => if eaten = true then yes else no)
      (Parse.eat expected >>= fun eaten => if eaten = true then yes' else no') := by
  refine (eat real).bind fun found => ?_
  cases found with
  | true => exact eaten
  | false => exact left

/-- Both branches of a decision end. -/
theorem ite {condition : Prop} [Decidable condition] {reader' other' : Parse α}
    (holds : condition → Ends size At least reader other)
    (fails : ¬condition → Ends size At least reader' other') :
    Ends size At least (if condition then reader else reader')
      (if condition then other else other') := by
  split
  case isTrue here => exact holds here
  case isFalse here => exact fails here

end Ends

end Parse

end DocSketch
