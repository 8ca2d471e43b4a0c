import DocSketch.Proofs.Grammar.RetracedDisplays

/-!
# Operands and operators are read again

An expression starts with an operand, and then every operator makes a new one of it.  Both
steps keep that the tokens gone past so far are read again as the expression so far.

* `Grammar.expr_retrace`, `Grammar.joins_retrace`: what holds along the loop over operators.
* `Grammar.opening_retrace`: one case for each form that starts an expression.
* `Grammar.joining_retrace`: one case for each form that goes on with one.
-/

namespace DocSketch

namespace Grammar

open Parse Token Lexeme

variable {tokens passed early : List Token} {fuel : Nat} {level own : Power} {e left : Expr}
  {cursor after : Cursor} {form : Opening} {join : Joining} {kind : TokenKind}

/-- An expression is read again as an operand of its level. -/
theorem expr_retrace (ih : Retraces tokens fuel) (level : Power) :
    Runs tokens (readExpr (fuel + 1) level) (Taken tokens level) := by
  intro cursor e after inside ran
  rw [readExpr, get_bind, inside.opening?] at ran
  cases opens : cursor.kind.opening? with
  | none =>
      rw [opens] at ran
      cases ran
  | some form =>
      rw [opens] at ran
      obtain ⟨left, second, read, ran⟩ := ran_bind ran
      obtain ⟨passed, moved, spans, sound, again⟩ := ih.opening form _ _ _ inside opens read
      have operand : Operand level passed second.kind left := .ofPasses spans moved opens again
      exact ih.joins level left cursor passed second e after inside moved operand sound ran

/-- What goes on from an operand is read again. -/
theorem joins_retrace (ih : Retraces tokens fuel) (level : Power) (left : Expr) (start : Cursor)
    (early : List Token) (cursor : Cursor) (e : Expr) (after : Cursor)
    (inside : start.Within tokens) (passes : start.Passes early cursor)
    (operand : Operand level early cursor.kind left) (sound : Sound tokens left)
    (ran : readJoins (fuel + 1) level left cursor = .ok e after) :
    ∃ passed, start.Passes passed after ∧ Taken tokens level passed after.kind e := by
  have inside' := passes.within inside
  rw [readJoins, get_bind, inside'.joining?] at ran
  cases joins : cursor.kind.joining? with
  | none =>
      rw [joins] at ran
      cases ran
      exact ⟨early, passes, operand, .of_none joins, sound⟩
  | some entry =>
      obtain ⟨own, form⟩ := entry
      rw [joins] at ran
      dsimp only at ran
      by_cases loose : own ≤ level
      · rw [if_pos loose] at ran
        cases ran
        refine ⟨early, passes, operand, fun other form' again => ?_, sound⟩
        rw [joins] at again
        cases again
        exact loose
      · rw [if_neg loose] at ran
        obtain ⟨joined, second, read, ran⟩ := ran_bind ran
        obtain ⟨token, late, moved, owns, parts, again⟩ :=
          ih.joining form own left early _ _ _ inside' joins operand.spans sound read
        have here : cursor.kind = token.kind := moved.kind_eq
        rw [here] at operand joins
        have operand' : Operand level (early ++ token :: late) second.kind joined :=
          operand.joined owns.spans joins (Nat.not_le.mp loose) again
        have sound' := operand'.sound owns inside (passes.trans moved) parts
        exact ih.joins level joined start _ second e after inside (passes.trans moved) operand'
          sound' ran

/-- Only displays start with a bracket. -/
theorem isPlain_of_opening? (opens : kind.opening? = some form)
    (unbracketed : form ≠ .group ∧ form ≠ .list ∧ form ≠ .curly) : kind.isPlain = true := by
  cases kind <;> cases opens <;> first | rfl | simp at unbracketed

/-- The run of a reader that goes past a token which is not a bracket. -/
theorem ran_plain {α : Type} {value : α} {others : Token → Parse α} (inside : cursor.Within tokens)
    (opens : cursor.kind.opening? = some form)
    (unbracketed : form ≠ .group ∧ form ≠ .list ∧ form ≠ .curly)
    (ran : (advance >>= others) cursor = .ok value after) :
    ∃ token middle, token.kind.isPlain = true ∧ cursor.Passes [token] middle ∧
      others token middle = .ok value after := by
  have real : cursor.kind ≠ .eof := by
    intro ended
    rw [ended] at opens
    cases opens
  obtain ⟨token, middle, here, step, ran⟩ := ran_advance inside real ran
  exact ⟨token, middle, here ▸ isPlain_of_opening? opens unbracketed, step, ran⟩

/-- A new node at the start of an expression is read again. -/
theorem retraces_opening (owns : Owns passed e) (inside : cursor.Within tokens)
    (passes : cursor.Passes passed after) (opens : cursor.kind.opening? = some form)
    (parts : SoundAll tokens e.parts)
    (again : ∀ fuel, 8 * passed.length ≤ fuel + 2 →
      Spells (readOpening (fuel + 1) form) (passed.map Token.spelling) (Meets after.kind)
        (·.unspanned = e.unspanned)) :
    RetracesOpening tokens form cursor e after := by
  have rereads : ∀ fuel, 8 * passed.length ≤ fuel + 1 →
      Spells (readOpening fuel form) (passed.map Token.spelling) (Meets after.kind)
        (·.unspanned = e.unspanned) := by
    intro fuel enough
    have long : 0 < passed.length := List.length_pos_iff.mpr owns.spans.ne_nil
    obtain ⟨fuel, rfl⟩ : ∃ less, fuel = less + 1 := ⟨fuel - 1, by omega⟩
    exact again fuel (by omega)
  have sound := sound_of_opening owns inside passes opens rereads parts
  exact ⟨passed, passes, owns.spans, sound, rereads⟩

/-- A number is read again. -/
theorem number_retrace (inside : cursor.Within tokens) (opens : cursor.kind.opening? = some .number)
    (ran : readNumber cursor = .ok e after) : RetracesOpening tokens .number cursor e after := by
  rw [readNumber] at ran
  obtain ⟨token, second, plain, step, ran⟩ := ran_plain inside opens (by simp) ran
  by_cases empty : token.value.isEmpty = true
  · rw [if_pos empty] at ran
    cases ran
  · rw [if_neg empty] at ran
    cases ran
    have owns : Owns [token] (.number token.span (numberKind token.value) token.value) :=
      .ofTokens (.single plain) ⟨rfl, rfl⟩
    refine retraces_opening owns inside step opens soundAll_nil fun fuel _ => ?_
    rw [readOpening, readNumber]
    refine .step .advance fun other spelled => ?_
    have value : other.value = token.value := congrArg Prod.snd spelled
    rw [value, if_neg empty]
    exact .pure rfl

/-- All tokens of one kind are gone past again, if another one follows them. -/
theorem spells_takeAll {taken : List Token} (all : ∀ token ∈ taken, token.kind = kind) :
    Spells (takeAll kind) (taken.map Token.spelling) (· ≠ kind) (· = taken.map Token.value) := by
  intro others spelled file previous more stop other
  have kinds : ∀ token ∈ others, (token.kind == kind) = true := by
    intro token member
    have listed : token.spelling ∈ taken.map Token.spelling := spelled ▸ List.mem_map_of_mem member
    obtain ⟨origin, found, same⟩ := List.mem_map.mp listed
    exact beq_iff_eq.mpr ((congrArg Prod.fst same).symm.trans (all origin found))
  have none : more.takeWhile (·.kind == kind) = [] ∧ more.dropWhile (·.kind == kind) = more := by
    cases more with
    | nil => exact ⟨rfl, rfl⟩
    | cons token more =>
        have differs : ¬(token.kind == kind) = true := fun same => other (eq_of_beq same)
        exact ⟨List.takeWhile_cons_of_neg differs, List.dropWhile_cons_of_neg differs⟩
  refine ⟨others.map Token.value, others.getLastD previous, ?_, ?_⟩
  · change EStateM.Result.ok _ _ = _
    simp only [List.takeWhile_append_of_pos kinds, List.dropWhile_append_of_pos kinds, none.1,
      none.2, List.append_nil]
  · have texts := congrArg (List.map Prod.snd) spelled
    rw [List.map_map, List.map_map] at texts
    exact texts

/-- A string is read again. -/
theorem string_retrace (inside : cursor.Within tokens) (opens : cursor.kind.opening? = some .string)
    (ran : readString cursor = .ok e after) : RetracesOpening tokens .string cursor e after := by
  rw [readString] at ran
  obtain ⟨token, second, plain, step, ran⟩ := ran_plain inside opens (by simp) ran
  obtain ⟨taken, third, all, ends, moved, ran⟩ := ran_takeAll (step.within inside) (by decide) ran
  cases ran
  have passes : cursor.Passes (token :: taken) after := step.trans moved
  have closed : Closed (token :: taken) :=
    .cons plain (.of_forall fun other member => by rw [all other member]; rfl)
  refine retraces_opening (.ofPasses closed passes rfl) inside passes opens soundAll_nil
    fun fuel _ => ?_
  rw [readOpening, readString]
  refine .step .advance fun other spelled => ?_
  have value : other.value = token.value := congrArg Prod.snd spelled
  have taken := (spells_takeAll all).mono
    (fun kind (meets : Meets after.kind kind) => meets.ne ends (by decide)) fun _ same => same
  refine .last taken fun others same => ?_
  rw [same, value]
  exact .spanned fun _ => rfl

/-- An operator before its operand. -/
theorem unary_retrace (ih : Retraces tokens fuel) (inside : cursor.Within tokens)
    (opens : cursor.kind.opening? = some form)
    (unbracketed : form ≠ .group ∧ form ≠ .list ∧ form ≠ .curly)
    {build : Token → Expr → Expr}
    (reads : ∀ fuel, readOpening (fuel + 1) form = (do
      let token ← advance
      let operand ← readExpr fuel level
      return build token operand))
    (span : ∀ token operand, (build token operand).span = ⟨token.span.start, operand.span.stop⟩)
    (parts : ∀ token operand, (build token operand).parts = [operand])
    (same : ∀ token operand token' operand', token.spelling = token'.spelling →
      operand.unspanned = operand'.unspanned →
      (build token operand).unspanned = (build token' operand').unspanned)
    (ran : readOpening (fuel + 1) form cursor = .ok e after) :
    RetracesOpening tokens form cursor e after := by
  rw [reads] at ran
  obtain ⟨token, second, plain, step, ran⟩ := ran_plain inside opens unbracketed ran
  obtain ⟨operand, third, read, ran⟩ := ran_bind ran
  obtain ⟨own, moved, taken⟩ := ih.expr _ _ _ _ (step.within inside) read
  cases ran
  have owns : Owns ([token] ++ own) (build token operand) := by
    refine .ofLast (.cons plain taken.spans.toClosed) taken.spans ?_ ?_ ?_
    · rw [parts]
      exact List.mem_singleton_self operand
    · rw [span]
      rfl
    · rw [span]
  refine retraces_opening owns inside (step.trans moved) opens ?_ fun fuel enough => ?_
  · rw [parts]
    exact soundAll_cons taken.sound soundAll_nil
  · simp only [List.length_cons, List.length_append] at enough
    rw [reads]
    refine .step .advance fun other spelled => ?_
    refine .last (taken.reads (by omega)) fun read alike => .pure ?_
    exact same other read token operand spelled alike

/-- A `yield` is read again, with a value or without. -/
theorem yield_retrace (ih : Retraces tokens fuel) (inside : cursor.Within tokens)
    (opens : cursor.kind.opening? = some .yield)
    (ran : readOpening (fuel + 1) .yield cursor = .ok e after) :
    RetracesOpening tokens .yield cursor e after := by
  rw [readOpening] at ran
  obtain ⟨token, second, plain, step, ran⟩ := ran_plain inside opens (by simp) ran
  have inside' := step.within inside
  obtain ⟨word, third, here, step', ran⟩ | ⟨other, ran⟩ := ran_ifEaten inside' (by decide) ran
  · obtain ⟨value, fourth, read, ran⟩ := ran_bind ran
    obtain ⟨own, moved, taken⟩ := ih.expr _ _ _ _ (step'.within inside') read
    cases ran
    have passes : cursor.Passes (token :: word :: own) after := step.trans (step'.trans moved)
    have closed : Closed (token :: word :: own) :=
      .cons plain (.cons (here ▸ rfl) taken.spans.toClosed)
    refine retraces_opening (.ofPasses closed passes rfl) inside passes opens
      (soundAll_cons taken.sound soundAll_nil) fun fuel enough => ?_
    simp only [List.length_cons] at enough
    rw [readOpening]
    refine .step .advance fun _ _ => .ifEaten here ?_
    refine .last (taken.reads (by omega)) fun read same => .spanned fun _ => ?_
    simp only [Expr.unspanned, Expr.unspannedOption, same]
  obtain ⟨⟨form, starts⟩, ran⟩ | ⟨bare, ran⟩ := ran_ifExpression inside' ran
  · obtain ⟨value, third, read, ran⟩ := ran_bind ran
    obtain ⟨own, moved, nonempty, again, sound⟩ := ih.tuple _ _ _ _ inside' read
    cases ran
    have passes : cursor.Passes (token :: own) after := step.trans moved
    refine retraces_opening (.ofPasses (.cons plain again.toClosed) passes rfl) inside passes opens
      (soundAll_cons sound soundAll_nil) fun fuel enough => ?_
    simp only [List.length_cons] at enough
    rw [readOpening]
    refine .step .advance fun _ _ =>
      .ifUneaten (fun kind _ => ?_) (ifExpression (fun kind _ => ?_) ?_)
    · rwa [lead_of_passes moved nonempty]
    · rw [lead_of_passes moved nonempty, starts]
      rfl
    refine .last (again.reads fuel (by omega)) fun read same => .spanned fun _ => ?_
    simp only [Expr.unspanned, Expr.unspannedOption, same]
  · cases ran
    refine retraces_opening (.ofPasses (.single plain) step rfl) inside step opens soundAll_nil
      fun fuel _ => ?_
    rw [readOpening]
    refine .step .advance fun _ _ =>
      .ifUneaten (fun kind meets => ?_) (ifNotExpression (fun kind meets => ?_) ?_)
    · exact meets.ne other (by decide)
    · rcases meets with rfl | rfl
      · exact bare
      · rfl
    exact .spanned fun _ => rfl

/-- A lambda is read again and stops with its body. -/
theorem lambda_retrace (ih : Retraces tokens fuel) (inside : cursor.Within tokens)
    (opens : cursor.kind.opening? = some .lambda)
    (ran : readOpening (fuel + 1) .lambda cursor = .ok e after) :
    RetracesOpening tokens .lambda cursor e after := by
  rw [readOpening] at ran
  obtain ⟨token, second, plain, step, ran⟩ := ran_plain inside opens (by simp) ran
  obtain ⟨parameters, third, read, ran⟩ := ran_bind ran
  obtain ⟨names, named, again, sound⟩ := ih.parameters _ _ _ _ _ (step.within inside) read
  have inside' := named.within (step.within inside)
  obtain ⟨colon, fourth, mark, step', ran⟩ := ran_expectOr inside' (by decide) ran
  obtain ⟨body, fifth, read, ran⟩ := ran_bind ran
  obtain ⟨own, moved, taken⟩ := ih.expr _ _ _ _ (step'.within inside') read
  cases ran
  have passes : cursor.Passes ((token :: (names ++ [colon])) ++ own) after := by
    rw [List.cons_append, List.append_assoc]
    exact step.trans (named.trans (step'.trans moved))
  have closed : Closed ((token :: (names ++ [colon])) ++ own) :=
    (Closed.cons plain (again.toClosed.append (.single (mark ▸ rfl)))).append taken.spans.toClosed
  have last : body ∈ Expr.parts (.lambda ⟨token.span.start, body.span.stop⟩ parameters body) :=
    List.mem_append_right _ List.mem_cons_self
  refine retraces_opening (.ofLast closed taken.spans last rfl rfl) inside passes opens ?_
    fun fuel enough => ?_
  · intro part member
    obtain inner | last := List.mem_append.mp member
    · obtain ⟨parameter, listed, member⟩ := List.mem_flatMap.mp inner
      exact sound parameter listed part member
    · rw [List.mem_singleton.mp last]
      exact taken.sound
  · simp only [List.length_cons, List.length_append] at enough
    simp only [List.map_cons, List.map_append, List.cons_append, List.append_assoc]
    rw [readOpening]
    refine .step .advance fun _ _ => ?_
    refine .bind (again.reads fuel (by omega)) (fun read same => ?_) fun _ _ => ?_
    · refine .step (.expect mark) fun _ _ => ?_
      refine .last (taken.reads (by omega)) fun body same' => .pure ?_
      simp only [Expr.unspanned, same, same']
    · exact step'.kind_eq.symm

/-- What stands in brackets is read again. -/
theorem display_retrace {reader : Nat → Parse Expr}
    (display : RetracesDisplay tokens kind reader fuel) (inside : cursor.Within tokens)
    (here : cursor.kind = kind) (reads : ∀ fuel, readOpening (fuel + 1) form = reader fuel)
    (ran : readOpening (fuel + 1) form cursor = .ok e after) :
    RetracesOpening tokens form cursor e after := by
  rw [reads] at ran
  obtain ⟨passed, passes, spans, sound, again⟩ := display cursor e after inside here ran
  refine ⟨passed, passes, spans, sound, fun fuel enough => ?_⟩
  have long : 0 < passed.length := List.length_pos_iff.mpr spans.ne_nil
  obtain ⟨fuel, rfl⟩ : ∃ less, fuel = less + 1 := ⟨fuel - 1, by omega⟩
  rw [reads]
  exact (again fuel (by omega)).mono (fun _ _ => trivial) fun _ same => same

/-- The kind of the bracket that starts a display. -/
theorem kind_of_display (opens : kind.opening? = some form) :
    (form = .group → kind = .openParen) ∧ (form = .list → kind = .openBracket) ∧
      (form = .curly → kind = .openCurly) := by
  cases kind <;> cases opens <;> simp

/-- Every start of an expression is read again. -/
theorem opening_retrace (ih : Retraces tokens fuel) (form : Opening) (cursor : Cursor) (e : Expr)
    (after : Cursor) (inside : cursor.Within tokens) (opens : cursor.kind.opening? = some form)
    (ran : readOpening (fuel + 1) form cursor = .ok e after) :
    RetracesOpening tokens form cursor e after := by
  cases form with
  | number =>
      rw [readOpening] at ran
      exact number_retrace inside opens ran
  | string =>
      rw [readOpening] at ran
      exact string_retrace inside opens ran
  | identifier =>
      rw [readOpening] at ran
      obtain ⟨token, second, plain, step, ran⟩ := ran_plain inside opens (by simp) ran
      cases ran
      have owns : Owns [token] (.symbol token.span token.value) :=
        .ofTokens (.single plain) ⟨rfl, rfl⟩
      refine retraces_opening owns inside step opens soundAll_nil fun fuel _ => ?_
      rw [readOpening]
      refine .step .advance fun other spelled => .pure ?_
      have value : other.value = token.value := congrArg Prod.snd spelled
      rw [value]
      rfl
  | constant value =>
      rw [readOpening] at ran
      obtain ⟨token, second, plain, step, ran⟩ := ran_plain inside opens (by simp) ran
      cases ran
      have owns : Owns [token] (.constant token.span value) :=
        .ofTokens (.single plain) ⟨rfl, rfl⟩
      refine retraces_opening owns inside step opens soundAll_nil fun fuel _ => ?_
      rw [readOpening]
      exact .step .advance fun _ _ => .pure rfl
  | unary level =>
      refine unary_retrace ih inside opens (by simp) (fun _ => by rw [readOpening])
        (fun _ _ => rfl) (fun _ _ => rfl) (fun token operand token' operand' spelled same => ?_) ran
      simp only [Expr.unspanned, same, Token.unspanned_eq spelled]
  | star =>
      refine unary_retrace ih inside opens (by simp) (fun _ => by rw [readOpening])
        (fun _ _ => rfl) (fun _ _ => rfl) (fun token operand token' operand' spelled same => ?_) ran
      have kind : token.kind = token'.kind := congrArg Prod.fst spelled
      simp only [Expr.unspanned, same, kind]
  | group =>
      exact display_retrace ih.group inside ((kind_of_display opens).1 rfl)
        (fun _ => by rw [readOpening]) ran
  | list =>
      exact display_retrace ih.list inside ((kind_of_display opens).2.1 rfl)
        (fun _ => by rw [readOpening]) ran
  | curly =>
      exact display_retrace ih.curly inside ((kind_of_display opens).2.2 rfl)
        (fun _ => by rw [readOpening]) ran
  | lambda => exact lambda_retrace ih inside opens ran
  | yield => exact yield_retrace ih inside opens ran

/-- Only calls and subscripts go on with a bracket. -/
theorem isPlain_of_joining? (joins : kind.joining? = some (own, join))
    (unbracketed : join ≠ .call ∧ join ≠ .subscript) : kind.isPlain = true := by
  cases kind <;> cases joins <;> first | rfl | simp at unbracketed

/-- Calls and subscripts go on with their brackets. -/
theorem kind_of_bracket (joins : kind.joining? = some (own, join)) :
    (join = .call → kind = .openParen) ∧ (join = .subscript → kind = .openBracket) := by
  cases kind <;> cases joins <;> simp

/-- What goes on from an operand takes the token that joins them. -/
theorem ran_joining {α : Type} {value : α} {others : Token → Parse α}
    (inside : cursor.Within tokens) (joins : cursor.kind.joining? = some (own, join))
    (ran : (advance >>= others) cursor = .ok value after) :
    ∃ token middle, token.kind.joining? = some (own, join) ∧ cursor.Passes [token] middle ∧
      others token middle = .ok value after := by
  have real : cursor.kind ≠ .eof := by
    intro ended
    rw [ended] at joins
    cases joins
  obtain ⟨token, middle, here, step, ran⟩ := ran_advance inside real ran
  exact ⟨token, middle, here ▸ joins, step, ran⟩

/-- A new node that goes on with `left` is read again. -/
theorem retraces_joining {token : Token} {late : List Token}
    (passes : cursor.Passes (token :: late) after) (owns : Owns (early ++ token :: late) e)
    (parts : SoundAll tokens e.parts)
    (again : ∀ fuel read, 8 * late.length + 6 ≤ fuel → read.unspanned = left.unspanned →
      Spells (readJoining (fuel + 1) join own read) (token.spelling :: late.map Token.spelling)
        (Meets after.kind) (·.unspanned = e.unspanned)) :
    RetracesJoining tokens join own left early cursor e after := by
  refine ⟨token, late, passes, owns, parts, fun fuel read enough same => ?_⟩
  rw [List.length_cons] at enough
  obtain ⟨fuel, rfl⟩ : ∃ less, fuel = less + 1 := ⟨fuel - 1, by omega⟩
  exact again fuel read (by omega) same

/-- An operator of one word or two between its operands. -/
theorem retraces_operation {token operator : Token} {words others : List Token} {operand : Expr}
    {right : Power} (spans : Spans early left) (sound : Sound tokens left)
    (passes : cursor.Passes (token :: (words ++ others)) after) (closed : Closed (token :: words))
    (taken : Taken tokens right others after.kind operand)
    (again : ∀ fuel read, 8 * (words ++ others).length + 6 ≤ fuel →
      read.unspanned = left.unspanned →
      Spells (readJoining (fuel + 1) join own read)
        (token.spelling :: (words.map Token.spelling ++ others.map Token.spelling))
        (Meets after.kind)
        (·.unspanned = .binary default left.unspanned operator.unspanned operand.unspanned)) :
    RetracesJoining tokens join own left early cursor
      (.binary ⟨left.span.start, operand.span.stop⟩ left operator operand) after := by
  have whole : Closed (early ++ ((token :: words) ++ others)) :=
    spans.toClosed.append (closed.append taken.spans.toClosed)
  have ends : left ∈ [left, operand] ∧ operand ∈ [left, operand] := by simp
  refine retraces_joining passes (.ofBoth whole spans taken.spans ends rfl rfl)
    (soundAll_cons sound (soundAll_cons taken.sound soundAll_nil)) fun fuel read enough same => ?_
  rw [List.map_append, Expr.unspanned]
  exact again fuel read enough same

/-- An operation is read again. -/
theorem binary_retrace (ih : Retraces tokens fuel) {right : Power} (inside : cursor.Within tokens)
    (joins : cursor.kind.joining? = some (own, .binary right)) (spans : Spans early left)
    (sound : Sound tokens left)
    (ran : readJoining (fuel + 1) (.binary right) own left cursor = .ok e after) :
    RetracesJoining tokens (.binary right) own left early cursor e after := by
  rw [readJoining] at ran
  obtain ⟨token, second, mark, step, ran⟩ := ran_joining inside joins ran
  obtain ⟨operand, third, read, ran⟩ := ran_bind ran
  obtain ⟨others, moved, taken⟩ := ih.expr _ _ _ _ (step.within inside) read
  cases ran
  have passes : cursor.Passes (token :: ([] ++ others)) after := step.trans moved
  have plain : Closed [token] := .single (isPlain_of_joining? mark (by simp))
  refine retraces_operation spans sound passes plain taken fun fuel read enough same => ?_
  rw [List.nil_append] at enough
  rw [readJoining]
  refine .step .advance fun other spelled => ?_
  refine .last (taken.reads (by omega)) fun read same' => .pure ?_
  simp only [Expr.unspanned, same, same', Token.unspanned_eq spelled]

/-- A test of identity is read again, negated or not. -/
theorem identity_retrace (ih : Retraces tokens fuel) (inside : cursor.Within tokens)
    (joins : cursor.kind.joining? = some (own, .identity)) (spans : Spans early left)
    (sound : Sound tokens left)
    (ran : readJoining (fuel + 1) .identity own left cursor = .ok e after) :
    RetracesJoining tokens .identity own left early cursor e after := by
  rw [readJoining] at ran
  obtain ⟨token, second, mark, step, ran⟩ := ran_joining inside joins ran
  have plain : token.kind.isPlain = true := isPlain_of_joining? mark (by simp)
  have inside' := step.within inside
  obtain ⟨word, third, here, step', ran⟩ | ⟨other, ran⟩ := ran_eat inside' (by decide) ran
  · obtain ⟨operand, fourth, read, ran⟩ := ran_bind ran
    obtain ⟨others, moved, taken⟩ := ih.expr _ _ _ _ (step'.within inside') read
    cases ran
    have passes : cursor.Passes (token :: ([word] ++ others)) after :=
      step.trans (step'.trans moved)
    refine retraces_operation spans sound passes (.cons plain (.single (here ▸ rfl))) taken
      fun fuel read enough same => ?_
    rw [List.length_append] at enough
    rw [readJoining]
    refine .step .advance fun other spelled => .step (.eat here) fun negated isTrue => ?_
    refine .last (taken.reads (by omega)) fun read same' => .pure ?_
    have kind : other.kind = token.kind := congrArg Prod.fst spelled
    simp only [Expr.unspanned, same, same', isTrue, if_true, Token.unspanned, kind]
  · obtain ⟨operand, third, read, ran⟩ := ran_bind ran
    obtain ⟨others, moved, taken⟩ := ih.expr _ _ _ _ inside' read
    cases ran
    have passes : cursor.Passes (token :: ([] ++ others)) after := step.trans moved
    refine retraces_operation spans sound passes (.single plain) taken ?_
    intro fuel read enough same
    rw [List.nil_append] at enough
    rw [readJoining]
    refine .step .advance fun word spelled => ?_
    refine .look .uneaten (fun negated isFalse => ?_) fun kind _ => ?_
    · refine .last (taken.reads (by omega)) fun read same' => .pure ?_
      simp [Expr.unspanned, same, same', isFalse, Token.unspanned_eq spelled]
    · change lead (others.map Token.spelling) kind ≠ .notKw
      rwa [lead_of_passes moved taken.spans.ne_nil]

/-- A negated test of membership is read again. -/
theorem exclusion_retrace (ih : Retraces tokens fuel) (inside : cursor.Within tokens)
    (joins : cursor.kind.joining? = some (own, .exclusion)) (spans : Spans early left)
    (sound : Sound tokens left)
    (ran : readJoining (fuel + 1) .exclusion own left cursor = .ok e after) :
    RetracesJoining tokens .exclusion own left early cursor e after := by
  rw [readJoining] at ran
  obtain ⟨token, second, mark, step, ran⟩ := ran_joining inside joins ran
  have plain : token.kind.isPlain = true := isPlain_of_joining? mark (by simp)
  have inside' := step.within inside
  obtain ⟨word, third, here, step', ran⟩ := ran_expectOr inside' (by decide) ran
  obtain ⟨operand, fourth, read, ran⟩ := ran_bind ran
  obtain ⟨others, moved, taken⟩ := ih.expr _ _ _ _ (step'.within inside') read
  cases ran
  have passes : cursor.Passes (token :: ([word] ++ others)) after :=
    step.trans (step'.trans moved)
  refine retraces_operation spans sound passes (.cons plain (.single (here ▸ rfl))) taken
    fun fuel read enough same => ?_
  rw [List.length_append] at enough
  rw [readJoining]
  refine .step .advance fun _ _ => .step (.expectOr here _) fun other spelled => ?_
  refine .last (taken.reads (by omega)) fun read same' => .pure ?_
  have kind : other.kind = word.kind := congrArg Prod.fst spelled
  simp only [Expr.unspanned, same, same', Token.unspanned, kind]

/-- A choice is read again. -/
theorem ternary_retrace (ih : Retraces tokens fuel) (inside : cursor.Within tokens)
    (joins : cursor.kind.joining? = some (own, .ternary)) (spans : Spans early left)
    (sound : Sound tokens left)
    (ran : readJoining (fuel + 1) .ternary own left cursor = .ok e after) :
    RetracesJoining tokens .ternary own left early cursor e after := by
  rw [readJoining] at ran
  obtain ⟨token, second, mark, step, ran⟩ := ran_joining inside joins ran
  have plain : token.kind.isPlain = true := isPlain_of_joining? mark (by simp)
  have inside' := step.within inside
  obtain ⟨test, third, read, ran⟩ := ran_bind ran
  obtain ⟨middle, moved, tested⟩ := ih.expr _ _ _ _ inside' read
  have inside' := moved.within inside'
  obtain ⟨word, fourth, here, step', ran⟩ := ran_expectOr inside' (by decide) ran
  obtain ⟨orelse, fifth, read, ran⟩ := ran_bind ran
  obtain ⟨others, went, taken⟩ := ih.expr _ _ _ _ (step'.within inside') read
  cases ran
  have passes : cursor.Passes (token :: ((middle ++ [word]) ++ others)) after := by
    rw [List.append_assoc]
    exact step.trans (moved.trans (step'.trans went))
  have closed : Closed (early ++ (token :: (middle ++ [word]) ++ others)) := by
    refine spans.toClosed.append (Closed.append (.cons plain ?_) taken.spans.toClosed)
    exact tested.spans.toClosed.append (.single (here ▸ rfl))
  have ends : left ∈ [left, test, orelse] ∧ orelse ∈ [left, test, orelse] := by simp
  refine retraces_joining passes (.ofBoth closed spans taken.spans ends rfl rfl)
    (soundAll_cons sound (soundAll_cons tested.sound (soundAll_cons taken.sound soundAll_nil)))
    fun fuel read enough same => ?_
  simp only [List.length_append, List.length_cons] at enough
  simp only [List.map_append, List.map_cons, List.append_assoc, List.cons_append,
    List.nil_append]
  rw [readJoining]
  refine .step .advance fun _ _ => ?_
  refine .bind (tested.reads (by omega)) (fun test same' => ?_) fun kind _ => ?_
  · refine .step (.expect here) fun _ _ => ?_
    refine .last (taken.reads (by omega)) fun orelse same'' => .pure ?_
    simp only [Expr.unspanned, same, same', same'']
  · exact .inl step'.kind_eq.symm

/-- An attribute is read again. -/
theorem member_retrace (inside : cursor.Within tokens)
    (joins : cursor.kind.joining? = some (own, .member)) (spans : Spans early left)
    (sound : Sound tokens left)
    (ran : readJoining (fuel + 1) .member own left cursor = .ok e after) :
    RetracesJoining tokens .member own left early cursor e after := by
  rw [readJoining] at ran
  obtain ⟨token, second, mark, step, ran⟩ := ran_joining inside joins ran
  have plain : token.kind.isPlain = true := isPlain_of_joining? mark (by simp)
  obtain ⟨property, third, here, step', ran⟩ := ran_expectOr (step.within inside) (by decide) ran
  cases ran
  have closed : Closed (early ++ [token, property]) :=
    spans.toClosed.append (.cons plain (.single (here ▸ rfl)))
  have passes : cursor.Passes [token, property] after := step.trans step'
  refine retraces_joining passes (.ofFirst closed spans List.mem_cons_self rfl rfl)
    (soundAll_cons sound soundAll_nil) fun fuel read _ same => ?_
  rw [readJoining]
  refine .step .advance fun _ _ => .step (.expectOr here _) fun other spelled => .pure ?_
  have value : other.value = property.value := congrArg Prod.snd spelled
  simp only [Expr.unspanned, same, value]

/-- A node that goes on with brackets of its own. -/
theorem retraces_brackets {opener closer : Token} {inner : List Token} (spans : Spans early left)
    (passes : cursor.Passes (opener :: (inner ++ [closer])) after)
    (opens : opener.kind.isOpening = true) (closes : closer.kind.isClosing = true)
    (closed : Closed inner) (first : left ∈ e.parts)
    (span : e.span = after.spanFrom left.span.start) (parts : SoundAll tokens e.parts)
    (again : ∀ fuel read, 8 * inner.length + 14 ≤ fuel → read.unspanned = left.unspanned →
      Spells (readJoining (fuel + 1) join own read)
        (opener.spelling :: (inner.map Token.spelling ++ [closer.spelling])) (Meets after.kind)
        (·.unspanned = e.unspanned)) :
    RetracesJoining tokens join own left early cursor e after := by
  have owns : Owns (early ++ opener :: (inner ++ [closer])) e := by
    refine .ofFirst (spans.toClosed.append (closed.enclosed opens closes)) spans first ?_ ?_
    · rw [span]
      rfl
    · rw [span, passes.getLast? (List.cons_ne_nil _ _)]
      rfl
  refine retraces_joining passes owns parts fun fuel read enough same => ?_
  simp only [List.length_append, List.length_cons, List.length_nil] at enough
  rw [List.map_append]
  exact again fuel read (by omega) same

/-- A call is read again. -/
theorem call_retrace (ih : Retraces tokens fuel) (inside : cursor.Within tokens)
    (joins : cursor.kind.joining? = some (own, .call)) (spans : Spans early left)
    (sound : Sound tokens left)
    (ran : readJoining (fuel + 1) .call own left cursor = .ok e after) :
    RetracesJoining tokens .call own left early cursor e after := by
  rw [readJoining] at ran
  obtain ⟨token, second, mark, step, ran⟩ := ran_joining inside joins ran
  have opens : token.kind = .openParen := (kind_of_bracket mark).1 rfl
  obtain ⟨⟨arguments, keywords⟩, third, read, ran⟩ := ran_bind ran
  obtain ⟨inner, closer, moved, closes, closed, soundAll, again⟩ :=
    ih.arguments _ _ _ (step.within inside) read
  cases ran
  have passes : cursor.Passes (token :: (inner ++ [closer])) after := step.trans moved
  refine retraces_brackets spans passes (opens ▸ rfl) (closes ▸ rfl) closed List.mem_cons_self rfl
    (soundAll_cons sound soundAll) fun fuel read enough same => ?_
  rw [readJoining]
  refine .step .advance fun _ _ => ?_
  refine .last ((again fuel (by omega)).mono (fun _ _ => trivial) fun _ same => same)
    fun found same' => .spanned fun _ => ?_
  simp only [Expr.unspanned, same, same'.1, same'.2]

/-- The items of a subscript are a node of their own, which is read again in parentheses if
none of them is a slice. -/
theorem sound_index {items rest : List Token} {first : Expr} {others : List Expr}
    (inside : cursor.Within tokens) (passes : cursor.Passes (items ++ rest) after)
    (nonempty : items ≠ []) (closed : Closed (items ++ rest)) (sound : Sound tokens first)
    (soundAll : SoundAll tokens others)
    (taken : first.isSlice = false → Taken tokens .default items .comma first)
    (begins : lead (rest.map Token.spelling) .closeParen = .comma)
    (elements : others.any Expr.isSlice = false →
      Again rest 4 (· = .closeParen) (readElements · .closeParen)
        (Expr.unspannedAll · = Expr.unspannedAll others)) :
    Sound tokens
      (.sequence (after.spanFrom cursor.current.span.start) .tuple (first :: others)) := by
  have owns : Owns (items ++ rest)
      (.sequence (after.spanFrom cursor.current.span.start) .tuple (first :: others)) := by
    have filled : items ++ rest ≠ [] := by simp [nonempty]
    refine .ofTokens closed ⟨?_, ?_⟩
    · rw [passes.head? filled]
      rfl
    · rw [passes.getLast? filled]
      rfl
  refine .intro (owns.restored inside passes fun unsliced fuel enough => ?_)
    (soundAll_cons sound soundAll)
  rw [Expr.isSliced, List.any_cons, Bool.or_eq_false_iff] at unsliced
  exact readGroup_elements (taken unsliced.1).toOperand begins (elements unsliced.2) rfl (by omega)

/-- A subscript is read again, with one item or several. -/
theorem subscript_retrace (ih : Retraces tokens fuel) (inside : cursor.Within tokens)
    (joins : cursor.kind.joining? = some (own, .subscript)) (spans : Spans early left)
    (sound : Sound tokens left)
    (ran : readJoining (fuel + 1) .subscript own left cursor = .ok e after) :
    RetracesJoining tokens .subscript own left early cursor e after := by
  rw [readJoining] at ran
  obtain ⟨token, second, mark, step, ran⟩ := ran_joining inside joins ran
  have opens : token.kind = .openBracket := (kind_of_bracket mark).2 rfl
  have ran := ran_offset ran
  obtain ⟨first, third, read, ran⟩ := ran_bind ran
  obtain ⟨items, moved, nonempty, item, soundItem, taken⟩ :=
    ih.sliceItem _ _ _ (step.within inside) read
  have inside' := moved.within (step.within inside)
  dsimp only at ran
  obtain ⟨comma, ran⟩ | ⟨single, ran⟩ := ran_ifKind ran
  -- Several items are a tuple with the span from the first item to the bracket.
  · obtain ⟨others, fourth, read, ran⟩ := ran_bind ran
    obtain ⟨rest, went, later⟩ := ih.sliceItems _ _ _ inside' read
    obtain ⟨closer, fifth, closes, step', ran⟩ := ran_expectOr (went.within inside') (by decide) ran
    have ends : fourth.kind = .closeBracket := step'.kind_eq.trans closes
    obtain ⟨again, soundAll, elements⟩ := later ends
    -- A comma is ahead, so more than nothing is read behind the first item.
    have filled : rest ≠ [] := by
      rintro rfl
      cases (went.kind_eq.symm.trans comma).symm.trans ends
    have follows : ∀ kind, lead (rest.map Token.spelling) kind = .comma := fun kind =>
      (lead_of_passes went filled kind).trans comma
    cases ran
    rw [comma] at item taken
    have index := sound_index (step.within inside) (moved.trans went) nonempty
      (item.toClosed.append again.toClosed) soundItem soundAll taken (follows _) elements
    have passes : cursor.Passes (token :: ((items ++ rest) ++ [closer])) after := by
      rw [List.append_assoc]
      exact step.trans (moved.trans (went.trans step'))
    refine retraces_brackets spans passes (opens ▸ rfl) (closes ▸ rfl)
      (item.toClosed.append again.toClosed) List.mem_cons_self rfl
      (soundAll_cons sound (soundAll_cons index soundAll_nil)) fun fuel read enough same => ?_
    rw [List.length_append] at enough
    rw [readJoining, List.map_append, List.append_assoc]
    refine .step .advance fun _ _ => .located fun start => ?_
    refine .bind (item.reads fuel (by omega)) (fun read' sameFirst => ?_) fun kind _ => ?_
    · dsimp only
      refine .ifKind (fun kind _ => ?_) (.bind (again.reads fuel (by omega)) (fun reads sames => ?_)
        fun _ _ => closes)
      · rw [lead_append, follows]
      refine .placed fun span => ?_
      rw [pure_bind]
      refine .step (.expect closes) fun _ _ => .spanned fun _ => ?_
      simp only [Expr.unspanned, Expr.unspannedAll, same, sameFirst, sames]
    · rw [lead_append, follows]
  · obtain ⟨closer, fourth, closes, step', ran⟩ := ran_expectOr inside' (by decide) ran
    cases ran
    have passes : cursor.Passes (token :: (items ++ [closer])) after :=
      step.trans (moved.trans step')
    refine retraces_brackets spans passes (opens ▸ rfl) (closes ▸ rfl) item.toClosed
      List.mem_cons_self rfl
      (soundAll_cons sound (soundAll_cons soundItem soundAll_nil)) fun fuel read enough same => ?_
    rw [readJoining]
    refine .step .advance fun _ _ => .located fun start => ?_
    refine .bind (item.reads fuel (by omega)) (fun read' sameIndex => ?_) fun _ _ =>
      step'.kind_eq.symm
    dsimp only
    refine .ifNotKind (fun kind _ => by simp [Token.spelling, closes]) ?_
    rw [pure_bind]
    refine .step (.expect closes) fun _ _ => .spanned fun _ => ?_
    simp only [Expr.unspanned, same, sameIndex]

/-- Every way to go on from an operand is read again. -/
theorem joining_retrace (ih : Retraces tokens fuel) (form : Joining) (own : Power) (left : Expr)
    (early : List Token) (cursor : Cursor) (e : Expr) (after : Cursor)
    (inside : cursor.Within tokens) (joins : cursor.kind.joining? = some (own, form))
    (spans : Spans early left) (sound : Sound tokens left)
    (ran : readJoining (fuel + 1) form own left cursor = .ok e after) :
    RetracesJoining tokens form own left early cursor e after := by
  cases form with
  | binary right => exact binary_retrace ih inside joins spans sound ran
  | identity => exact identity_retrace ih inside joins spans sound ran
  | exclusion => exact exclusion_retrace ih inside joins spans sound ran
  | ternary => exact ternary_retrace ih inside joins spans sound ran
  | call => exact call_retrace ih inside joins spans sound ran
  | subscript => exact subscript_retrace ih inside joins spans sound ran
  | member => exact member_retrace inside joins spans sound ran

end Grammar

end DocSketch
