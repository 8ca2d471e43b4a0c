import DocSketch.Proofs.Grammar.Spelling

/-!
# Runs of readers

A reader that succeeds has gone past some tokens.  The statements here take such a run
apart, one step after the other.

* `Cursor.Passes`: going from one cursor to another past given tokens.
* `Cursor.Within`: a cursor in the tokens of a source.
* `Parse.ran_bind`: the two parts of a run of two readers, with a form for every step that
  a reader can take.
-/

namespace DocSketch

namespace Cursor

/-- Going past the given tokens leads from one cursor to the other. -/
structure Passes (cursor : Cursor) (passed : List Token) (next : Cursor) : Prop where
  rest : cursor.rest = passed ++ next.rest
  previous : next.previous = passed.getLastD cursor.previous
  isBare : next.isBare = cursor.isBare
  stop : next.stop = cursor.stop

/-- The cursor stands in the given tokens, which the end of a file closes. -/
structure Within (tokens : List Token) (cursor : Cursor) : Prop where
  full : cursor.isBare = false
  closed : cursor.stop.kind = .eof
  suffix : ∃ front, tokens = front ++ cursor.rest

variable {tokens passed later : List Token} {cursor middle next : Cursor} {token : Token}

/-- Staying goes past no token. -/
theorem Passes.none (cursor : Cursor) : cursor.Passes [] cursor := ⟨rfl, rfl, rfl, rfl⟩

theorem Passes.trans (first : cursor.Passes passed middle) (second : middle.Passes later next) :
    cursor.Passes (passed ++ later) next where
  rest := by rw [first.rest, second.rest, List.append_assoc]
  previous := by
    rw [second.previous, first.previous, List.getLastD_eq_getLast?, List.getLastD_eq_getLast?,
      List.getLastD_eq_getLast?, List.getLast?_append, Option.getD_or]
  isBare := second.isBare.trans first.isBare
  stop := second.stop.trans first.stop

/-- The token passed last is the previous one. -/
theorem Passes.getLast? (passes : cursor.Passes passed next) (nonempty : passed ≠ []) :
    passed.getLast? = some next.previous := by
  rw [passes.previous, List.getLastD_eq_getLast?]
  obtain ⟨last, found⟩ := List.getLast?_isSome.mpr nonempty |> Option.isSome_iff_exists.mp
  rw [found]
  rfl

/-- The first token passed is the current one. -/
theorem Passes.head? (passes : cursor.Passes passed next) (nonempty : passed ≠ []) :
    passed.head? = some cursor.current := by
  rw [Cursor.current, passes.rest]
  cases passed with
  | nil => exact absurd rfl nonempty
  | cons => rfl

/-- What was ahead is the first token that is gone past. -/
theorem Passes.kind_eq (passes : cursor.Passes passed next) :
    cursor.kind = Parse.ahead (passed.map Token.kind) next.kind := by
  unfold Cursor.kind Cursor.current
  rw [passes.rest, ← passes.stop]
  exact Parse.kind_ahead passed next.rest next.stop

/-- Tokens that are gone past are led by what was ahead. -/
theorem Passes.lead (passes : cursor.Passes passed next) :
    Parse.lead (passed.map Token.spelling) next.kind = cursor.kind := by
  rw [passes.kind_eq]
  cases passed <;> rfl

/-- A cursor stays among the tokens as it goes past them. -/
theorem Passes.within (passes : cursor.Passes passed next) (inside : cursor.Within tokens) :
    next.Within tokens where
  full := passes.isBare.trans inside.full
  closed := passes.stop ▸ inside.closed
  suffix := by
    obtain ⟨front, split⟩ := inside.suffix
    exact ⟨front ++ passed, by rw [split, passes.rest, List.append_assoc]⟩

/-- A cursor before a token other than the end of the file can go past it. -/
theorem Within.advance (inside : cursor.Within tokens) (goesOn : cursor.kind ≠ .eof) :
    cursor.Passes [cursor.current] cursor.advance := by
  obtain ⟨file, isBare, previous, rest, stop⟩ := cursor
  cases rest with
  | nil => exact absurd inside.closed goesOn
  | cons token rest => exact ⟨rfl, rfl, rfl, rfl⟩

/-- What an expression starts with is told by the kind ahead. -/
theorem Within.opening? (inside : cursor.Within tokens) :
    cursor.opening? = cursor.kind.opening? := by
  rw [Cursor.opening?, inside.full]
  rfl

/-- What an expression goes on with is told by the kind ahead. -/
theorem Within.joining? (inside : cursor.Within tokens) :
    cursor.joining? = cursor.kind.joining? := by
  rw [Cursor.joining?, inside.full]
  rfl

end Cursor

namespace Parse

variable {α β : Type} {reader : Parse α} {others : α → Parse β} {yes no : Parse β}
  {tokens : List Token} {cursor next : Cursor} {value : β} {expected : TokenKind}

/-- A run of two readers is a run of each. -/
theorem ran_bind (ran : (reader >>= others) cursor = .ok value next) :
    ∃ first middle, reader cursor = .ok first middle ∧ others first middle = .ok value next := by
  change EStateM.bind reader others cursor = _ at ran
  unfold EStateM.bind at ran
  cases step : reader cursor with
  | ok first middle =>
      rw [step] at ran
      exact ⟨first, middle, rfl, ran⟩
  | error fault middle =>
      rw [step] at ran
      cases ran

/-- Going past a real token takes it. -/
theorem ran_advance {others : Token → Parse β} (inside : cursor.Within tokens)
    (goesOn : cursor.kind ≠ .eof) (ran : (advance >>= others) cursor = .ok value next) :
    ∃ token middle, token.kind = cursor.kind ∧ cursor.Passes [token] middle ∧
      others token middle = .ok value next :=
  ⟨cursor.current, cursor.advance, rfl, inside.advance goesOn, ran⟩

/-- Looking at the place takes no token. -/
theorem ran_offset {others : Nat → Parse β} (ran : (offset >>= others) cursor = .ok value next) :
    others cursor.current.span.start cursor = .ok value next := ran

/-- All tokens of one kind are gone past. -/
theorem ran_takeAll {others : List String → Parse β} (inside : cursor.Within tokens)
    (real : expected ≠ .eof) (ran : (takeAll expected >>= others) cursor = .ok value next) :
    ∃ taken middle, (∀ token ∈ taken, token.kind = expected) ∧ middle.kind ≠ expected ∧
      cursor.Passes taken middle ∧ others (taken.map Token.value) middle = .ok value next := by
  refine ⟨cursor.rest.takeWhile (·.kind == expected), _, fun token member => ?_, ?_, ?_, ran⟩
  · exact eq_of_beq (List.all_eq_true.mp List.all_takeWhile token member)
  · intro here
    change ((cursor.rest.dropWhile (·.kind == expected)).headD cursor.stop).kind = expected at here
    cases others : cursor.rest.dropWhile (·.kind == expected) with
    | nil =>
        rw [others] at here
        exact real (here.symm.trans inside.closed)
    | cons token rest =>
        rw [others] at here
        have differs := List.head?_dropWhile_not (·.kind == expected) cursor.rest
        rw [others] at differs
        exact absurd (beq_iff_eq.mpr here) (by simpa using differs)
  · exact ⟨List.takeWhile_append_dropWhile.symm, rfl, rfl, rfl⟩

/-- Asking for a token takes one of that kind. -/
theorem ran_expectOr {others : Token → Parse β} {message : String} (inside : cursor.Within tokens)
    (real : expected ≠ .eof)
    (ran : (expectOr expected message >>= others) cursor = .ok value next) :
    ∃ token middle, token.kind = expected ∧ cursor.Passes [token] middle ∧
      others token middle = .ok value next := by
  obtain ⟨token, middle, read, ran⟩ := ran_bind ran
  by_cases here : cursor.kind = expected
  · have moved : advance cursor = .ok token middle := by
      rw [← read]
      change _ = (if cursor.kind = expected then advance else failHere message) cursor
      rw [if_pos here]
    cases moved
    exact ⟨cursor.current, cursor.advance, here, inside.advance (here ▸ real), ran⟩
  · have failed : (failHere message : Parse Token) cursor = .ok token middle := by
      rw [← read]
      change _ = (if cursor.kind = expected then advance else failHere message) cursor
      rw [if_neg here]
    cases failed

/-- Looking for a token takes one of that kind, or none is ahead. -/
theorem ran_eat {others : Bool → Parse β} (inside : cursor.Within tokens) (real : expected ≠ .eof)
    (ran : (eat expected >>= others) cursor = .ok value next) :
    (∃ token middle, token.kind = expected ∧ cursor.Passes [token] middle ∧
        others true middle = .ok value next) ∨
      cursor.kind ≠ expected ∧ others false cursor = .ok value next := by
  obtain ⟨eaten, middle, read, ran⟩ := ran_bind ran
  by_cases here : cursor.kind = expected
  · have moved : eat expected cursor = .ok true cursor.advance := by
      change (if cursor.kind = expected then _ else _ : Parse Bool) cursor = _
      rw [if_pos here]
      rfl
    cases moved.symm.trans read
    exact .inl ⟨cursor.current, cursor.advance, here, inside.advance (here ▸ real), ran⟩
  · have stayed : eat expected cursor = .ok false cursor := by
      change (if cursor.kind = expected then _ else _ : Parse Bool) cursor = _
      rw [if_neg here]
      rfl
    cases stayed.symm.trans read
    exact .inr ⟨here, ran⟩

/-- A branch on whether a token has been gone past. -/
theorem ran_ifEaten (inside : cursor.Within tokens) (real : expected ≠ .eof)
    (ran : (eat expected >>= fun eaten => if eaten = true then yes else no) cursor =
      .ok value next) :
    (∃ token middle, token.kind = expected ∧ cursor.Passes [token] middle ∧
        yes middle = .ok value next) ∨
      cursor.kind ≠ expected ∧ no cursor = .ok value next := by
  obtain ⟨token, middle, here, passes, ran⟩ | ⟨other, ran⟩ := ran_eat inside real ran
  · exact .inl ⟨token, middle, here, passes, ran⟩
  · exact .inr ⟨other, ran⟩

/-- A branch on the current kind. -/
theorem ran_ifKind {test : TokenKind → Prop} [DecidablePred test]
    (ran : (kind >>= fun kind => if test kind then yes else no) cursor = .ok value next) :
    test cursor.kind ∧ yes cursor = .ok value next ∨
      ¬test cursor.kind ∧ no cursor = .ok value next := by
  change (if test cursor.kind then yes else no) cursor = _ at ran
  split at ran
  case isTrue holds => exact .inl ⟨holds, ran⟩
  case isFalse fails => exact .inr ⟨fails, ran⟩

/-- A branch on whether an expression starts here. -/
theorem ran_ifExpression (inside : cursor.Within tokens)
    (ran : (atExpression >>= fun found => if found = true then yes else no) cursor =
      .ok value next) :
    (∃ form, cursor.kind.opening? = some form) ∧ yes cursor = .ok value next ∨
      cursor.kind.opening? = none ∧ no cursor = .ok value next := by
  change (if cursor.opening?.isSome = true then yes else no) cursor = _ at ran
  rw [inside.opening?] at ran
  cases opens : cursor.kind.opening? with
  | none =>
      rw [opens] at ran
      exact .inr ⟨rfl, ran⟩
  | some form =>
      rw [opens] at ran
      exact .inl ⟨⟨form, rfl⟩, ran⟩

/-- A branch on whether a clause starts here. -/
theorem ran_ifClause
    (ran : (Grammar.atClause >>= fun found => if found = true then yes else no) cursor =
      .ok value next) :
    (cursor.kind = .forKw ∨ cursor.kind = .asyncKw ∧ cursor.peek 1 = .forKw) ∧
        yes cursor = .ok value next ∨
      ¬(cursor.kind = .forKw ∨ cursor.kind = .asyncKw ∧ cursor.peek 1 = .forKw) ∧
        no cursor = .ok value next := by
  by_cases found : cursor.kind = .forKw ∨ cursor.kind = .asyncKw ∧ cursor.peek 1 = .forKw
  · refine .inl ⟨found, ?_⟩
    change (if decide _ = true then yes else no) cursor = _ at ran
    rwa [decide_eq_true found] at ran
  · refine .inr ⟨found, ?_⟩
    change (if decide _ = true then yes else no) cursor = _ at ran
    rwa [decide_eq_false found] at ran

end Parse

end DocSketch
