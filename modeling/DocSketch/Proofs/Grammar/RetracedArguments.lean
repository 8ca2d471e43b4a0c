import DocSketch.Proofs.Grammar.RetracedOperators

/-!
# Arguments, items and parameters are read again

* `Grammar.arguments_retrace`: the arguments of a call.
* `Grammar.sliceItem_retrace`: an item of a subscript.
* `Grammar.parameters_retrace`: the parameters of a function or a lambda.
-/

namespace DocSketch

namespace Grammar

open Parse Token Lexeme

variable {tokens passed : List Token} {fuel : Nat} {e : Expr} {cursor after : Cursor}

/-- Wherever the same tokens are ahead, a reader that looks at them sees the same kinds. -/
theorem spells_get {α : Type} {use : Cursor → Parse α} {Next : TokenKind → Prop}
    {Good : α → Prop} {text : List Spelling} (passes : cursor.Passes passed after)
    (some : passed ≠ []) (spelled : passed.map Token.spelling = text)
    (spells : ∀ other : Cursor, other.kind = cursor.kind →
      (∀ n < passed.length, other.peek n = cursor.peek n) → Spells (use other) text Next Good) :
    Spells (get >>= use) text Next Good := by
  subst spelled
  refine .get fun other peeks => ?_
  have same : ∀ n < passed.length, other.peek n = cursor.peek n := by
    intro n inside
    have found : passed[n]? = .some passed[n] := List.getElem?_eq_getElem inside
    have ahead : (passed ++ after.rest)[n]? = .some passed[n] := by
      rw [List.getElem?_append_left inside, found]
    rw [peeks n passed[n].spelling (by rw [List.getElem?_map, found]; rfl), Cursor.peek,
      passes.rest, List.getD_eq_getElem?_getD, ahead]
    rfl
  have kind := same 0 (List.length_pos_iff.mpr some)
  rw [peek_zero, peek_zero] at kind
  exact spells other kind same

/-- Behind one token, the next one is ahead. -/
theorem peek_one {token : Token} (step : cursor.Passes [token] after) :
    cursor.peek 1 = after.kind := by
  rw [← peek_zero, Cursor.peek, Cursor.peek, step.rest, ← step.stop]
  rfl

/-- More arguments start with a comma, or there are none. -/
theorem divides_of_more {found : List Expr × List (Keyword Expr)} (inside : cursor.Within tokens)
    (ran : readMoreArguments fuel cursor = .ok found after) : Divides cursor.kind := by
  cases fuel with
  | zero =>
      rw [readMoreArguments] at ran
      cases ran
  | succ fuel =>
      rw [readMoreArguments] at ran
      obtain ⟨comma, second, here, step, -⟩ | ⟨-, ran⟩ := ran_ifEaten inside (by decide) ran
      · have ahead : cursor.kind = .comma := step.kind_eq.trans here
        exact ahead ▸ divides_comma
      · obtain ⟨closer, second, here, step, -⟩ := ran_expectOr inside (by decide) ran
        have ahead : cursor.kind = .closeParen := step.kind_eq.trans here
        exact ahead ▸ divides_closing rfl

/-- Further arguments are read again. -/
theorem moreArguments_retrace (ih : Retraces tokens fuel) :
    RetracesArguments tokens readMoreArguments (fuel + 1) := by
  intro cursor found after inside ran
  rw [readMoreArguments] at ran
  obtain ⟨comma, second, here, step, ran⟩ | ⟨other, ran⟩ := ran_ifEaten inside (by decide) ran
  · obtain ⟨inner, closer, went, closes, closed, sound, again⟩ :=
      ih.arguments _ _ _ (step.within inside) ran
    refine ⟨comma :: inner, closer, step.trans went, closes, .cons (here ▸ rfl) closed, sound,
      fun fuel enough => ?_⟩
    rw [List.length_cons] at enough
    obtain ⟨fuel, rfl⟩ : ∃ less, fuel = less + 1 := ⟨fuel - 1, by omega⟩
    rw [readMoreArguments]
    exact .ifEaten here (again fuel (by omega))
  · obtain ⟨closer, second, closes, step, ran⟩ := ran_expectOr inside (by decide) ran
    cases ran
    refine ⟨[], closer, step, closes, .nil, soundAll_nil, fun fuel enough => ?_⟩
    obtain ⟨fuel, rfl⟩ : ∃ less, fuel = less + 1 := ⟨fuel - 1, by omega⟩
    rw [readMoreArguments]
    refine .ifUneaten (fun _ _ => by simp [Token.spelling, closes]) ?_
    exact .step (.expect closes) fun _ _ => .pure ⟨rfl, rfl⟩

/-- An argument is read again, generators included. -/
theorem argument_retrace (ih : Retraces tokens fuel) :
    Runs tokens (readArgument (fuel + 1)) fun passed next e =>
      passed ≠ [] ∧
        Again passed 4 (fun kind => Meets next kind ∧ kind ≠ .asyncKw) readArgument
          (·.unspanned = e.unspanned) ∧
        Sound tokens e := by
  intro cursor e after inside ran
  rw [readArgument] at ran
  obtain ⟨first, second, read, ran⟩ := ran_bind ran
  obtain ⟨own, moved, taken⟩ := ih.expr _ _ _ _ inside read
  have long : 0 < own.length := List.length_pos_iff.mpr taken.spans.ne_nil
  obtain ⟨found, ran⟩ | ⟨absent, ran⟩ := ran_ifClause ran
  · obtain ⟨clauses, third, read, ran⟩ := ran_bind ran
    obtain ⟨rest, went, begins, again, sound⟩ := ih.clauses _ _ _ (moved.within inside) read
    have begins := begins found
    have nonempty : rest ≠ [] := by
      rintro rfl
      cases begins
    cases ran
    have owns : Owns (own ++ rest) (.comprehension (after.spanFrom first.span.start) .generator
        first none clauses) := by
      refine .ofFirst (taken.spans.toClosed.append again.toClosed) taken.spans
        List.mem_cons_self rfl ?_
      rw [went.getLast? nonempty]
      rfl
    have closes : Again rest 4 (· = .closeParen) readClauses
        (Expr.unspannedClauses · = Expr.unspannedClauses clauses) :=
      again.mono fun kind here => ⟨here ▸ .closed _, here ▸ by decide⟩
    have restored := owns.restored inside (moved.trans went) fun _ fuel enough =>
      readGroup_clauses taken.toOperand taken.stops begins (lead_of_passes went nonempty _) closes
        rfl (by omega)
    refine ⟨own ++ rest, moved.trans went, by simp [nonempty],
      .step owns.toClosed fun fuel enough => ?_, .intro restored
        (sound_comprehension_parts taken.sound (fun _ member => by cases member) sound)⟩
    rw [List.length_append] at enough
    rw [readArgument, List.map_append]
    refine .bind (taken.reads (by omega)) (fun read same => ?_) fun kind _ =>
      .inl (lead_of_passes went nonempty kind)
    rw [← List.append_nil (rest.map Token.spelling)]
    refine ifBegins begins ?_
    rw [List.append_nil]
    refine .last (again.reads fuel (by omega)) fun read same' => .spanned fun _ => ?_
    simp only [Expr.unspanned, Expr.unspannedOption, same, same']
  · cases ran
    refine ⟨own, moved, taken.spans.ne_nil, .step taken.spans.toClosed fun fuel enough => ?_,
      taken.sound⟩
    rw [readArgument]
    refine .last ((taken.reads (by omega)).mono (fun _ allowed => allowed.1) fun _ same => same)
      fun read same => ifNotClause (fun kind allowed => ⟨?_, allowed.2⟩) (.pure same)
    exact allowed.1.ne (fun here => absent (.inl here)) (by decide)

/-- A keyword argument among others. -/
theorem soundAll_keyword {arguments : List Expr} {keyword : Keyword Expr}
    {keywords : List (Keyword Expr)} (own : Sound tokens keyword.value)
    (others : SoundAll tokens (arguments ++ keywords.map Keyword.value)) :
    SoundAll tokens (arguments ++ (keyword :: keywords).map Keyword.value) := by
  obtain ⟨positional, named⟩ := List.forall_mem_append.mp others
  exact List.forall_mem_append.mpr ⟨positional, soundAll_cons own named⟩

/-- The value of an argument with a name or two stars, and the arguments after it. -/
def finishKeyword (fuel : Nat) (name : Option String) :
    Parse (List Expr × List (Keyword Expr)) := do
  let value ← readExpr fuel .default
  let (arguments, keywords) ← readMoreArguments fuel
  return (arguments, ⟨name, value⟩ :: keywords)

/-- The value of a keyword argument and those behind it are read again. -/
theorem finishKeyword_retrace (ih : Retraces tokens fuel) (name : Option String) :
    RetracesArguments tokens (finishKeyword · name) fuel := by
  intro cursor found after inside ran
  dsimp only [finishKeyword] at ran
  obtain ⟨value, second, read, ran⟩ := ran_bind ran
  obtain ⟨own, moved, taken⟩ := ih.expr _ _ _ _ inside read
  obtain ⟨⟨arguments, keywords⟩, third, read, ran⟩ := ran_bind ran
  obtain ⟨inner, closer, went, closes, closed, sound, again⟩ :=
    ih.moreArguments _ _ _ (moved.within inside) read
  cases ran
  have passes : cursor.Passes ((own ++ inner) ++ [closer]) after := by
    rw [List.append_assoc]
    exact moved.trans went
  refine ⟨own ++ inner, closer, passes, closes, taken.spans.toClosed.append closed,
    soundAll_keyword taken.sound sound, fun fuel enough => ?_⟩
  rw [List.length_append] at enough
  rw [List.map_append, List.append_assoc]
  refine .bind (taken.reads (by omega)) (fun read same => ?_) fun kind _ =>
    .inl (lead_closed went kind)
  refine .last (again fuel (by omega)) fun found same' => .pure ⟨same'.1, ?_⟩
  simp only [Expr.unspannedKeywords, same, same'.2]

/-- An argument without a name, and the arguments after it. -/
def readPositional : Nat → Parse (List Expr × List (Keyword Expr))
  | 0 => giveUp
  | fuel + 1 => do
    let argument ← readArgument fuel
    let (arguments, keywords) ← readMoreArguments fuel
    return (argument :: arguments, keywords)

/-- A positional argument and those behind it are read again. -/
theorem positional_retrace (ih : Retraces tokens fuel) :
    RetracesArguments tokens readPositional (fuel + 1) := by
  intro cursor found after inside ran
  rw [readPositional] at ran
  obtain ⟨argument, second, read, ran⟩ := ran_bind ran
  obtain ⟨own, moved, nonempty, item, soundItem⟩ := ih.argument _ _ _ inside read
  obtain ⟨⟨arguments, keywords⟩, third, read, ran⟩ := ran_bind ran
  have divides := divides_of_more (moved.within inside) read
  obtain ⟨inner, closer, went, ends, closed, sound, again⟩ :=
    ih.moreArguments _ _ _ (moved.within inside) read
  cases ran
  have passes : cursor.Passes ((own ++ inner) ++ [closer]) after := by
    rw [List.append_assoc]
    exact moved.trans went
  refine ⟨own ++ inner, closer, passes, ends, item.toClosed.append closed,
    soundAll_cons soundItem sound, fun fuel enough => ?_⟩
  have long : 0 < own.length := List.length_pos_iff.mpr nonempty
  rw [List.length_append] at enough
  obtain ⟨fuel, rfl⟩ : ∃ less, fuel = less + 1 := ⟨fuel - 1, by omega⟩
  rw [readPositional, List.map_append, List.append_assoc]
  refine .bind (item.reads fuel (by omega)) (fun read same => ?_) fun kind _ => ?_
  · refine .last (again fuel (by omega)) fun found same' => .pure ⟨?_, same'.2⟩
    simp only [Expr.unspannedAll, same, same'.1]
  · rw [lead_closed went]
    exact ⟨.refl _, divides.noClause.2⟩

/-- Arguments of every form are read again. -/
theorem arguments_retrace (ih : Retraces tokens fuel) :
    RetracesArguments tokens readArguments (fuel + 1) := by
  intro cursor found after inside ran
  rw [readArguments, get_bind] at ran
  by_cases closes : cursor.kind = .closeParen
  · rw [if_pos closes] at ran
    obtain ⟨closer, second, here, step, ran⟩ := ran_advance inside (closes ▸ by decide) ran
    cases ran
    refine ⟨[], closer, step, here.trans closes, .nil, soundAll_nil, fun fuel enough => ?_⟩
    obtain ⟨fuel, rfl⟩ : ∃ less, fuel = less + 1 := ⟨fuel - 1, by omega⟩
    rw [readArguments]
    refine spells_get step (List.cons_ne_nil _ _) rfl fun other sees _ => ?_
    rw [sees, if_pos closes]
    exact .step .advance fun _ _ => .pure ⟨rfl, rfl⟩
  rw [if_neg closes] at ran
  by_cases unpacks : cursor.kind = .power
  · rw [if_pos unpacks] at ran
    obtain ⟨stars, second, here, step, ran⟩ := ran_advance inside (unpacks ▸ by decide) ran
    have plain : stars.kind.isPlain = true := by rw [here, unpacks]; rfl
    obtain ⟨inner, closer, went, ends, closed, sound, again⟩ :=
      finishKeyword_retrace ih none _ _ _ (step.within inside) ran
    refine ⟨stars :: inner, closer, step.trans went, ends, .cons plain closed, sound,
      fun fuel enough => ?_⟩
    rw [List.length_cons] at enough
    obtain ⟨fuel, rfl⟩ : ∃ less, fuel = less + 1 := ⟨fuel - 1, by omega⟩
    rw [readArguments]
    refine spells_get (step.trans went) (List.cons_ne_nil _ _) (by simp) fun other sees _ => ?_
    rw [sees, if_neg closes, if_pos unpacks]
    exact .step .advance fun _ _ => again fuel (by omega)
  rw [if_neg unpacks] at ran
  by_cases named : cursor.kind = .identifier ∧ cursor.peek 1 = .assignment
  · rw [if_pos named] at ran
    obtain ⟨name, second, here, step, ran⟩ := ran_advance inside (named.1 ▸ by decide) ran
    have ahead : second.kind = .assignment := (peek_one step).symm.trans named.2
    obtain ⟨equals, third, here', step', ran⟩ :=
      ran_advance (step.within inside) (ahead ▸ by decide) ran
    have plain : name.kind.isPlain = true := by rw [here, named.1]; rfl
    have plain' : equals.kind.isPlain = true := by rw [here', ahead]; rfl
    obtain ⟨inner, closer, went, ends, closed, sound, again⟩ :=
      finishKeyword_retrace ih (some name.value) _ _ _ (step'.within (step.within inside)) ran
    refine ⟨name :: equals :: inner, closer, step.trans (step'.trans went), ends,
      .cons plain (.cons plain' closed), sound, fun fuel enough => ?_⟩
    simp only [List.length_cons] at enough
    obtain ⟨fuel, rfl⟩ : ∃ less, fuel = less + 1 := ⟨fuel - 1, by omega⟩
    rw [readArguments]
    refine spells_get (step.trans (step'.trans went)) (List.cons_ne_nil _ _) (by simp)
      fun other sees peeks => ?_
    rw [sees, peeks 1 (by simp), if_neg closes, if_neg unpacks, if_pos named]
    refine .step .advance fun read spelled => .step .advance fun _ _ => ?_
    have value : read.value = name.value := congrArg Prod.snd spelled
    rw [value]
    exact again fuel (by omega)
  · rw [if_neg named] at ran
    obtain ⟨inner, closer, went, ends, closed, sound, again⟩ :=
      positional_retrace ih _ _ _ inside ran
    -- Otherwise the parenthesis that closes the call would come first.
    have nonempty : inner ≠ [] := by
      rintro rfl
      exact closes (went.kind_eq.trans ends)
    have two : 1 < (inner ++ [closer]).length := by
      rw [List.length_append]
      exact Nat.lt_add_of_pos_left (List.length_pos_iff.mpr nonempty)
    refine ⟨inner, closer, went, ends, closed, sound, fun fuel enough => ?_⟩
    obtain ⟨fuel, rfl⟩ : ∃ less, fuel = less + 1 := ⟨fuel - 1, by omega⟩
    rw [readArguments]
    refine spells_get went (by simp) (by simp) fun other sees peeks => ?_
    rw [sees, peeks 1 two, if_neg closes, if_neg unpacks, if_neg named]
    exact again (fuel + 1) enough

/-- Whether an expression is a slice decides whether it can stand in parentheses. -/
theorem isSliced_of_isSlice (slices : e.isSlice = true) : e.isSliced = true := by
  cases e with
  | slice => rfl
  | _ => cases slices

/-- Nothing is said about the text of a slice. -/
theorem sound_of_isSlice (slices : e.isSlice = true) (parts : SoundAll tokens e.parts) :
    Sound tokens e := by
  refine .intro (fun unsliced => ?_) parts
  rw [isSliced_of_isSlice slices] at unsliced
  cases unsliced

/-- A part of a slice is read again, or missing again. -/
theorem slicePart_retrace (ih : Retraces tokens fuel) :
    Runs tokens (readSlicePart (fuel + 1)) fun passed next part =>
      Again passed 4 (· = next) readSlicePart
          (Expr.unspannedOption · = Expr.unspannedOption part) ∧
        SoundAll tokens part.toList := by
  intro cursor part after inside ran
  rw [readSlicePart] at ran
  obtain ⟨ends, ran⟩ | ⟨goesOn, ran⟩ := ran_ifKind ran
  · cases ran
    refine ⟨[], .none cursor, .step .nil fun fuel enough => ?_, soundAll_nil⟩
    rw [readSlicePart]
    exact .ifKind (fun kind same => same ▸ ends) (.pure rfl)
  · obtain ⟨value, second, read, ran⟩ := ran_bind ran
    obtain ⟨own, moved, taken⟩ := ih.expr _ _ _ _ inside read
    cases ran
    refine ⟨own, moved, .step taken.spans.toClosed fun fuel enough => ?_,
      soundAll_cons taken.sound soundAll_nil⟩
    rw [readSlicePart]
    refine .ifNotKind (fun kind _ => ?_) ?_
    · rwa [lead_of_passes moved taken.spans.ne_nil]
    refine .last ((taken.reads (by omega)).mono (fun _ same => .inl same) fun _ same => same)
      fun read same => .pure ?_
    exact congrArg some same

/-- A slice is read again from its first colon on. -/
theorem slice_retrace (ih : Retraces tokens fuel) (start : Nat) (lower : Option Expr)
    (cursor : Cursor) (e : Expr) (after : Cursor) (inside : cursor.Within tokens)
    (here : cursor.kind = .colon) (known : SoundAll tokens lower.toList)
    (ran : readSlice (fuel + 1) start lower cursor = .ok e after) :
    ∃ passed, cursor.Passes passed after ∧ passed ≠ [] ∧ Closed passed ∧ e.isSlice = true ∧
      SoundAll tokens e.parts ∧
      ∀ fuel start again, 8 * passed.length ≤ fuel →
        Expr.unspannedOption again = Expr.unspannedOption lower →
        Spells (readSlice fuel start again) (passed.map Token.spelling) (· = after.kind)
          (·.unspanned = e.unspanned) := by
  rw [readSlice] at ran
  obtain ⟨colon, second, mark, step, ran⟩ := ran_advance inside (here ▸ by decide) ran
  have plain : colon.kind.isPlain = true := by rw [mark, here]; rfl
  obtain ⟨upper, third, read, ran⟩ := ran_bind ran
  obtain ⟨own, moved, again, sound⟩ := ih.slicePart _ _ _ (step.within inside) read
  have inside' := moved.within (step.within inside)
  dsimp only at ran
  obtain ⟨colon', fourth, mark', step', ran⟩ | ⟨other, ran⟩ := ran_ifEaten inside' (by decide) ran
  · obtain ⟨last, fifth, read, ran⟩ := ran_bind ran
    obtain ⟨own', went, again', sound'⟩ := ih.slicePart _ _ _ (step'.within inside') read
    cases ran
    refine ⟨colon :: (own ++ colon' :: own'), step.trans (moved.trans (step'.trans went)),
      List.cons_ne_nil _ _, ?_, rfl, ?_, fun fuel start low enough same => ?_⟩
    · exact .cons plain (again.toClosed.append (.cons (mark' ▸ rfl) again'.toClosed))
    · exact List.forall_mem_append.mpr ⟨List.forall_mem_append.mpr ⟨known, sound⟩, sound'⟩
    · simp only [List.length_cons, List.length_append] at enough
      obtain ⟨fuel, rfl⟩ : ∃ less, fuel = less + 1 := ⟨fuel - 1, by omega⟩
      rw [readSlice, List.map_cons, List.map_append, List.map_cons]
      refine .step .advance fun _ _ => ?_
      refine .bind (again.reads fuel (by omega)) (fun read sameUpper => ?_) fun _ _ =>
        step'.kind_eq.symm
      dsimp only
      refine .ifEaten mark' ?_
      refine .last (again'.reads fuel (by omega)) fun read sameStep => .spanned fun _ => ?_
      simp only [Expr.unspanned, same, sameUpper, sameStep]
  · cases ran
    refine ⟨colon :: own, step.trans moved, List.cons_ne_nil _ _, .cons plain again.toClosed, rfl,
      ?_, fun fuel start low enough same => ?_⟩
    · exact List.forall_mem_append.mpr ⟨List.forall_mem_append.mpr ⟨known, sound⟩, soundAll_nil⟩
    · simp only [List.length_cons] at enough
      obtain ⟨fuel, rfl⟩ : ∃ less, fuel = less + 1 := ⟨fuel - 1, by omega⟩
      rw [readSlice, List.map_cons]
      refine .step .advance fun _ _ => .last (again.reads fuel (by omega)) fun read sameUpper => ?_
      dsimp only
      refine .ifUneaten (fun kind ends => ends ▸ other) ?_
      rw [pure_bind]
      refine .spanned fun _ => ?_
      simp only [Expr.unspanned, same, sameUpper]

/-- An item of a subscript is read again; in parentheses it is one only if it is no slice. -/
theorem sliceItem_retrace (ih : Retraces tokens fuel) :
    Runs tokens (readSliceItem (fuel + 1)) fun passed next e =>
      passed ≠ [] ∧ Again passed 4 (· = next) readSliceItem (·.unspanned = e.unspanned) ∧
        Sound tokens e ∧ (e.isSlice = false → Taken tokens .default passed next e) := by
  intro cursor e after inside ran
  rw [readSliceItem] at ran
  have ran := ran_offset ran
  obtain ⟨here, ran⟩ | ⟨other, ran⟩ := ran_ifKind ran
  · obtain ⟨passed, passes, nonempty, closed, slices, parts, again⟩ :=
      ih.slice _ _ _ _ _ inside here soundAll_nil ran
    refine ⟨passed, passes, nonempty, .step closed fun fuel enough => ?_,
      sound_of_isSlice slices parts, fun unsliced => ?_⟩
    · rw [readSliceItem]
      refine .located fun start => .ifKind (fun kind _ => ?_) (again fuel start none (by omega) rfl)
      rw [lead_of_passes passes nonempty, here]
    · rw [slices] at unsliced
      cases unsliced
  obtain ⟨lower, second, read, ran⟩ := ran_bind ran
  obtain ⟨own, moved, taken⟩ := ih.expr _ _ _ _ inside read
  have long : 0 < own.length := List.length_pos_iff.mpr taken.spans.ne_nil
  obtain ⟨here, ran⟩ | ⟨single, ran⟩ := ran_ifKind ran
  · obtain ⟨rest, went, nonempty, closed, slices, parts, again⟩ :=
      ih.slice _ (some lower) _ _ _ (moved.within inside) here
        (soundAll_cons taken.sound soundAll_nil) ran
    refine ⟨own ++ rest, moved.trans went, by simp [nonempty],
      .step (taken.spans.toClosed.append closed) fun fuel enough => ?_,
      sound_of_isSlice slices parts, fun unsliced => ?_⟩
    · rw [List.length_append] at enough
      rw [readSliceItem, List.map_append]
      refine .located fun start => .ifNotKind (fun kind _ => ?_) ?_
      · rwa [lead_append, lead_of_passes moved taken.spans.ne_nil]
      refine .bind (taken.reads (by omega)) (fun read same => ?_) fun kind _ =>
        .inl (lead_of_passes went nonempty kind)
      refine .ifKind (fun kind _ => ?_)
        (again fuel start (some read) (by omega) (congrArg some same))
      rw [lead_of_passes went nonempty, here]
    · rw [slices] at unsliced
      cases unsliced
  · cases ran
    refine ⟨own, moved, taken.spans.ne_nil, .step taken.spans.toClosed fun fuel enough => ?_,
      taken.sound, fun _ => taken⟩
    rw [readSliceItem]
    refine .located fun start => .ifNotKind (fun kind _ => ?_) ?_
    · rwa [lead_of_passes moved taken.spans.ne_nil]
    refine .last ((taken.reads (by omega)).mono (fun _ same => .inl same) fun _ same => same)
      fun read same => .ifNotKind (fun kind next => ?_) (.pure same)
    exact next ▸ single

/-- Further items of a subscript are read again. -/
theorem sliceItems_retrace (ih : Retraces tokens fuel) :
    Runs tokens (readSliceItems (fuel + 1)) fun passed next es => next = .closeBracket →
      Again passed 4 (· = .closeBracket) readSliceItems
          (Expr.unspannedAll · = Expr.unspannedAll es) ∧
        SoundAll tokens es ∧
        (es.any Expr.isSlice = false →
          Again passed 4 (· = .closeParen) (readElements · .closeParen)
            (Expr.unspannedAll · = Expr.unspannedAll es)) := by
  intro cursor es after inside ran
  rw [readSliceItems] at ran
  obtain ⟨comma, second, here, step, ran⟩ | ⟨other, ran⟩ := ran_ifEaten inside (by decide) ran
  · obtain ⟨ended, ran⟩ | ⟨goesOn, ran⟩ := ran_ifKind ran
    · cases ran
      refine ⟨[comma], step, fun _ => ⟨.step (.single (here ▸ rfl)) fun fuel enough => ?_,
        soundAll_nil, fun _ => again_elements_comma here⟩⟩
      rw [readSliceItems]
      exact .ifEaten here (.ifKind (fun _ allowed => allowed) (.pure rfl))
    · obtain ⟨item, third, read, ran⟩ := ran_bind ran
      obtain ⟨own, moved, nonempty, single, soundItem, taken⟩ :=
        ih.sliceItem _ _ _ (step.within inside) read
      obtain ⟨others, fourth, read, ran⟩ := ran_bind ran
      obtain ⟨rest, went, later⟩ :=
        ih.sliceItems _ _ _ (moved.within (step.within inside)) read
      cases ran
      refine ⟨comma :: (own ++ rest), step.trans (moved.trans went), fun ends => ?_⟩
      obtain ⟨again, sound, elements⟩ := later ends
      have closed : Closed (comma :: (own ++ rest)) :=
        .cons (here ▸ rfl) (single.toClosed.append again.toClosed)
      refine ⟨.step closed fun fuel enough => ?_, soundAll_cons soundItem sound, fun unsliced => ?_⟩
      · simp only [List.length_cons, List.length_append] at enough
        simp only [List.map_cons, List.map_append]
        rw [readSliceItems]
        refine .ifEaten here (.ifNotKind (fun kind _ => ?_) ?_)
        · rwa [lead_append, lead_of_passes moved nonempty]
        refine .bind (single.reads fuel (by omega)) (fun read same => ?_) fun kind allowed => ?_
        · refine .last (again.reads fuel (by omega)) fun others same' => .pure ?_
          simp only [Expr.unspannedAll, same, same']
        · rw [allowed, ← ends, went.lead]
      · rw [List.any_cons, Bool.or_eq_false_iff] at unsliced
        have taken := taken unsliced.1
        have follows := Meets.of_passes went (.closed _)
        exact again_elements_cons rfl here taken.toOperand follows (follows.stops taken.stops)
          (elements unsliced.2)
  · cases ran
    refine ⟨[], .none cursor, fun ends => ⟨.step .nil fun fuel enough => ?_, soundAll_nil,
      fun _ => again_elements_nil rfl⟩⟩
    rw [readSliceItems]
    exact .ifUneaten (fun kind allowed => allowed ▸ by decide) (.pure rfl)

/-- What follows a mark is read again, or missing again. -/
theorem optional_retrace (ih : Retraces tokens fuel) {mark : TokenKind}
    (plain : mark.isPlain = true) :
    Runs tokens (readOptional (fuel + 1) mark) fun passed next part =>
      Again passed 4 (· = next) (readOptional · mark)
          (Expr.unspannedOption · = Expr.unspannedOption part) ∧
        SoundAll tokens part.toList := by
  have real : mark ≠ .eof := by rintro rfl; cases plain
  intro cursor part after inside ran
  rw [readOptional] at ran
  obtain ⟨token, second, here, step, ran⟩ | ⟨other, ran⟩ := ran_ifEaten inside real ran
  · obtain ⟨value, third, read, ran⟩ := ran_bind ran
    obtain ⟨own, moved, taken⟩ := ih.expr _ _ _ _ (step.within inside) read
    cases ran
    refine ⟨token :: own, step.trans moved,
      .step (.cons (here ▸ plain) taken.spans.toClosed) fun fuel enough => ?_,
      soundAll_cons taken.sound soundAll_nil⟩
    rw [List.length_cons] at enough
    rw [readOptional, List.map_cons]
    refine .ifEaten here ?_
    refine .last ((taken.reads (by omega)).mono (fun _ same => .inl same) fun _ same => same)
      fun read same => .pure ?_
    exact congrArg some same
  · cases ran
    refine ⟨[], .none cursor, .step .nil fun fuel enough => ?_, soundAll_nil⟩
    rw [readOptional]
    exact .ifUneaten (fun kind same => same ▸ other) (.pure rfl)

/-- The annotation of a parameter, which only parameters that a colon does not close have. -/
def readHint (fuel : Nat) (closing : TokenKind) : Parse (Option Expr) :=
  if closing ≠ .colon then readOptional fuel .colon else pure none

/-- What comes behind the annotation of a parameter, and the parameters after it. -/
def finishParameter (fuel : Nat) (closing : TokenKind) (start : Nat) (own usual : ParameterKind)
    (name : String) (hint : Option Expr) : Parse (List (Parameter Expr)) := do
  let default ← readOptional fuel .assignment
  let parameter := ⟨name, hint, default, own, ← spanFrom start⟩
  if ← eat .comma then
    let others ← readParameters fuel closing usual
    return parameter :: others
  else
    return [parameter]

/-- A parameter is its name, its annotation and its default. -/
theorem readParameter_eq (fuel : Nat) (closing : TokenKind) (start : Nat)
    (own usual : ParameterKind) :
    readParameter (fuel + 1) closing start own usual =
      (do
        let name ← expectOr .identifier "expected parameter name"
        let hint ← readHint fuel closing
        finishParameter fuel closing start own usual name.value hint) := by
  rw [readParameter]
  refine congrArg (expectOr .identifier "expected parameter name" >>= ·) (funext fun name => ?_)
  rw [readHint]
  split <;> rfl

/-- An annotation is read again where there may be one. -/
theorem hint_retrace (ih : Retraces tokens fuel) (closing : TokenKind) :
    Runs tokens (readHint fuel closing) fun passed next part =>
      Again passed 4 (· = next) (readHint · closing)
          (Expr.unspannedOption · = Expr.unspannedOption part) ∧
        SoundAll tokens part.toList := by
  unfold readHint
  by_cases annotated : closing ≠ .colon
  · simp only [if_pos annotated]
    exact ih.optional .colon rfl
  · simp only [if_neg annotated]
    intro cursor part after _ ran
    cases ran
    exact ⟨[], .none cursor, ⟨.nil, fun _ _ => .pure rfl⟩, soundAll_nil⟩

/-- The default of a parameter and those behind it are read again. -/
theorem finishParameter_retrace (ih : Retraces tokens fuel) (closing : TokenKind) (start : Nat)
    (own usual : ParameterKind) (name : String) (hint : Option Expr)
    (known : SoundAll tokens hint.toList) :
    Runs tokens (finishParameter fuel closing start own usual name hint)
      fun passed next parameters =>
        (∀ start again, Expr.unspannedOption again = Expr.unspannedOption hint →
          Again passed 4 (· = next) (finishParameter · closing start own usual name again)
            (Expr.unspannedParameters · = Expr.unspannedParameters parameters)) ∧
          SoundParameters tokens parameters := by
  intro cursor parameters after inside ran
  rw [finishParameter] at ran
  obtain ⟨default, second, read, ran⟩ := ran_bind ran
  obtain ⟨value, moved, again, sound⟩ := ih.optional _ rfl _ _ _ inside read
  have inside' := moved.within inside
  have parts : SoundAll tokens (hint.toList ++ default.toList) :=
    List.forall_mem_append.mpr ⟨known, sound⟩
  obtain ⟨span, third, placed, ran⟩ := ran_bind ran
  cases placed
  obtain ⟨comma, fourth, here, step, ran⟩ | ⟨other, ran⟩ := ran_ifEaten inside' (by decide) ran
  · obtain ⟨others, fifth, read, ran⟩ := ran_bind ran
    obtain ⟨rest, went, later, soundRest⟩ := ih.parameters _ _ _ _ _ (step.within inside') read
    cases ran
    refine ⟨value ++ comma :: rest, moved.trans (step.trans went), fun start part same =>
      ⟨again.toClosed.append (.cons (here ▸ rfl) later.toClosed), fun fuel enough => ?_⟩,
      List.forall_mem_cons.mpr ⟨parts, soundRest⟩⟩
    rw [List.length_append, List.length_cons] at enough
    rw [List.map_append, List.map_cons]
    refine .bind (again.reads fuel (by omega)) (fun read same' => ?_) fun _ _ => step.kind_eq.symm
    refine .placed fun span => .ifEaten here ?_
    refine .last (later.reads fuel (by omega)) fun others same'' => .pure ?_
    simp only [Expr.unspannedParameters, same, same', same'']
  · cases ran
    refine ⟨value, moved, fun start part same => ⟨again.toClosed, fun fuel enough => ?_⟩,
      List.forall_mem_cons.mpr ⟨parts, fun _ member => by cases member⟩⟩
    refine .last (again.reads fuel enough) fun read same' => .placed fun span => ?_
    refine .ifUneaten (fun kind ends => ends ▸ other) (.pure ?_)
    simp only [Expr.unspannedParameters, same, same']

/-- A parameter and those behind it are read again. -/
theorem parameter_retrace (ih : Retraces tokens fuel) (closing : TokenKind) (start : Nat)
    (own usual : ParameterKind) :
    Runs tokens (readParameter (fuel + 1) closing start own usual) fun passed next parameters =>
      passed ≠ [] ∧
        (∀ start, Again passed 0 (· = next) (readParameter · closing start own usual)
          (Expr.unspannedParameters · = Expr.unspannedParameters parameters)) ∧
        SoundParameters tokens parameters := by
  intro cursor parameters after inside ran
  rw [readParameter_eq] at ran
  obtain ⟨name, second, here, step, ran⟩ := ran_expectOr inside (by decide) ran
  obtain ⟨hint, third, read, ran⟩ := ran_bind ran
  obtain ⟨words, moved, again, known⟩ := hint_retrace ih _ _ _ _ (step.within inside) read
  obtain ⟨rest, went, later, sound⟩ := finishParameter_retrace ih _ _ _ _ _ _ known _ _ _
    (moved.within (step.within inside)) ran
  refine ⟨name :: (words ++ rest), step.trans (moved.trans went), List.cons_ne_nil _ _,
    fun start => ⟨?_, fun fuel enough => ?_⟩, sound⟩
  · exact .cons (here ▸ rfl) (again.toClosed.append (later start hint rfl).toClosed)
  · rw [List.length_cons, List.length_append] at enough
    obtain ⟨fuel, rfl⟩ : ∃ less, fuel = less + 1 := ⟨fuel - 1, by omega⟩
    rw [readParameter_eq, List.map_cons, List.map_append]
    refine .step (.expectOr here _) fun read spelled => ?_
    have value : read.value = name.value := congrArg Prod.snd spelled
    rw [value]
    refine .bind (again.reads fuel (by omega)) (fun part same => ?_) fun kind ends => ?_
    · exact (later start part same).reads fuel (by omega)
    · rw [ends, went.lead]

/-- What comes behind a lone slash or a lone star. -/
def finishMark (fuel : Nat) (closing : TokenKind) (usual : ParameterKind) :
    Parse (List (Parameter Expr)) := do
  if ← eat .comma then readParameters fuel closing usual else return []

/-- The parameters behind a mark of their own are read again. -/
theorem finishMark_retrace (ih : Retraces tokens fuel) (closing : TokenKind)
    (usual : ParameterKind) :
    Runs tokens (finishMark fuel closing usual) fun passed next parameters =>
      Again passed 0 (· = next) (finishMark · closing usual)
          (Expr.unspannedParameters · = Expr.unspannedParameters parameters) ∧
        SoundParameters tokens parameters := by
  intro cursor parameters after inside ran
  rw [finishMark] at ran
  obtain ⟨comma, second, here, step, ran⟩ | ⟨other, ran⟩ := ran_ifEaten inside (by decide) ran
  · obtain ⟨rest, went, again, sound⟩ := ih.parameters _ _ _ _ _ (step.within inside) ran
    refine ⟨comma :: rest, step.trans went,
      ⟨.cons (here ▸ rfl) again.toClosed, fun fuel enough => ?_⟩, sound⟩
    rw [List.length_cons] at enough
    exact .ifEaten here (again.reads fuel (by omega))
  · cases ran
    refine ⟨[], .none cursor, ⟨.nil, fun fuel _ => ?_⟩, fun _ member => by cases member⟩
    exact .ifUneaten (fun kind same => same ▸ other) (.pure rfl)

/-- What comes behind one star. -/
def finishStar (fuel : Nat) (closing : TokenKind) (start : Nat) :
    Parse (List (Parameter Expr)) := do
  if (← kind) = .identifier then
    readParameter fuel closing start .varPositional .keywordOnly
  else
    finishMark fuel closing .keywordOnly

/-- A parameter with a star, or a lone star, is read again. -/
theorem finishStar_retrace (ih : Retraces tokens fuel) (closing : TokenKind) (start : Nat) :
    Runs tokens (finishStar fuel closing start) fun passed next parameters =>
      (∀ start, Again passed 0 (· = next) (finishStar · closing start)
          (Expr.unspannedParameters · = Expr.unspannedParameters parameters)) ∧
        SoundParameters tokens parameters := by
  intro cursor parameters after inside ran
  rw [finishStar] at ran
  obtain ⟨named, ran⟩ | ⟨lone, ran⟩ := ran_ifKind ran
  · obtain ⟨passed, passes, nonempty, again, sound⟩ := ih.parameter _ _ _ _ _ _ _ inside ran
    refine ⟨passed, passes, fun start => ⟨(again start).toClosed, fun fuel enough => ?_⟩, sound⟩
    refine .ifKind (fun kind _ => ?_) ((again start).reads fuel enough)
    rw [lead_of_passes passes nonempty, named]
  · obtain ⟨passed, passes, again, sound⟩ := finishMark_retrace ih _ _ _ _ _ inside ran
    refine ⟨passed, passes, fun start => ⟨again.toClosed, fun fuel enough => ?_⟩, sound⟩
    refine .ifNotKind (fun kind ends => ?_) (again.reads fuel enough)
    rwa [ends, passes.lead]

/-- Parameters from a star, a slash or a name on. -/
def readMarked (fuel : Nat) (closing : TokenKind) (usual : ParameterKind) (start : Nat) :
    Parse (List (Parameter Expr)) := do
  if ← eat .slash then
    finishMark fuel closing usual
  else if ← eat .star then
    finishStar fuel closing start
  else if ← eat .power then
    readParameter fuel closing start .varKeyword usual
  else
    readParameter fuel closing start usual usual

/-- Whatever parameters start with is read again. -/
theorem marked_retrace (ih : Retraces tokens fuel) (closing : TokenKind) (usual : ParameterKind)
    (start : Nat) :
    Runs tokens (readMarked fuel closing usual start) fun passed next parameters =>
      passed ≠ [] ∧
        (∀ start, Again passed 0 (· = next) (readMarked · closing usual start)
          (Expr.unspannedParameters · = Expr.unspannedParameters parameters)) ∧
        SoundParameters tokens parameters := by
  intro cursor parameters after inside ran
  rw [readMarked] at ran
  obtain ⟨slash, second, here, step, ran⟩ | ⟨noSlash, ran⟩ := ran_ifEaten inside (by decide) ran
  · obtain ⟨rest, went, again, sound⟩ := finishMark_retrace ih _ _ _ _ _ (step.within inside) ran
    refine ⟨slash :: rest, step.trans went, List.cons_ne_nil _ _, fun start =>
      ⟨.cons (here ▸ rfl) again.toClosed, fun fuel enough => ?_⟩, sound⟩
    rw [List.length_cons] at enough
    exact .ifEaten here (again.reads fuel (by omega))
  obtain ⟨star, second, here, step, ran⟩ | ⟨noStar, ran⟩ := ran_ifEaten inside (by decide) ran
  · obtain ⟨rest, went, again, sound⟩ := finishStar_retrace ih _ _ _ _ _ (step.within inside) ran
    refine ⟨star :: rest, step.trans went, List.cons_ne_nil _ _, fun start =>
      ⟨.cons (here ▸ rfl) (again start).toClosed, fun fuel enough => ?_⟩, sound⟩
    rw [List.length_cons] at enough
    refine .ifUneaten (fun kind _ => ?_) (.ifEaten here ((again start).reads fuel (by omega)))
    simp [Token.spelling, here]
  obtain ⟨stars, second, here, step, ran⟩ | ⟨noStars, ran⟩ := ran_ifEaten inside (by decide) ran
  · obtain ⟨rest, went, -, again, sound⟩ := ih.parameter _ _ _ _ _ _ _ (step.within inside) ran
    refine ⟨stars :: rest, step.trans went, List.cons_ne_nil _ _, fun start =>
      ⟨.cons (here ▸ rfl) (again start).toClosed, fun fuel enough => ?_⟩, sound⟩
    rw [List.length_cons] at enough
    refine .ifUneaten (fun kind _ => ?_) (.ifUneaten (fun kind _ => ?_)
      (.ifEaten here ((again start).reads fuel (by omega))))
    all_goals simp [Token.spelling, here]
  · obtain ⟨passed, passes, nonempty, again, sound⟩ := ih.parameter _ _ _ _ _ _ _ inside ran
    refine ⟨passed, passes, nonempty, fun start =>
      ⟨(again start).toClosed, fun fuel enough => ?_⟩, sound⟩
    refine .ifUneaten (fun kind _ => ?_) (.ifUneaten (fun kind _ => ?_)
      (.ifUneaten (fun kind _ => ?_) ((again start).reads fuel enough)))
    all_goals rwa [lead_of_passes passes nonempty]

/-- Parameters end at the closing token, or start with a mark or a name. -/
theorem readParameters_eq (fuel : Nat) (closing : TokenKind) (usual : ParameterKind) :
    readParameters (fuel + 1) closing usual =
      (do
        if (← kind) = closing then
          return []
        else
          let start ← offset
          readMarked fuel closing usual start) := by
  rw [readParameters]
  rfl

/-- Parameters are read again. -/
theorem parameters_retrace (ih : Retraces tokens fuel) (closing : TokenKind)
    (usual : ParameterKind) :
    Runs tokens (readParameters (fuel + 1) closing usual) fun passed next parameters =>
      Again passed 4 (· = next) (readParameters · closing usual)
          (Expr.unspannedParameters · = Expr.unspannedParameters parameters) ∧
        SoundParameters tokens parameters := by
  intro cursor parameters after inside ran
  rw [readParameters_eq] at ran
  obtain ⟨closes, ran⟩ | ⟨goesOn, ran⟩ := ran_ifKind ran
  · cases ran
    refine ⟨[], .none cursor, .step .nil fun fuel enough => ?_, fun _ member => by cases member⟩
    rw [readParameters_eq]
    exact .ifKind (fun kind same => same ▸ closes) (.pure rfl)
  · have ran := ran_offset ran
    obtain ⟨passed, passes, nonempty, again, sound⟩ := marked_retrace ih _ _ _ _ _ _ inside ran
    refine ⟨passed, passes, .step (again 0).toClosed fun fuel enough => ?_, sound⟩
    rw [readParameters_eq]
    refine .ifNotKind (fun kind _ => ?_)
      (.located fun start => (again start).reads fuel (by omega))
    rwa [lead_of_passes passes nonempty]

end Grammar

end DocSketch
