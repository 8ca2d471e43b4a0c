import DocSketch.Proofs.Grammar.Retracing

/-!
# Displays are read again
-/

namespace DocSketch

namespace Grammar

open Parse Token Lexeme

variable {tokens : List Token} {fuel : Nat}

/-- The conditions of a clause are read again. -/
theorem conditions_retrace (ih : Retraces tokens fuel) :
    Runs tokens (readConditions (fuel + 1)) fun passed next es =>
      Again passed 4 (Meets next) readConditions (Expr.unspannedAll · = Expr.unspannedAll es) ∧
        SoundAll tokens es := by
  intro cursor es after inside ran
  rw [readConditions] at ran
  obtain ⟨token, second, here, passes, ran⟩ | ⟨other, ran⟩ := ran_ifEaten inside (by decide) ran
  · obtain ⟨condition, third, read, ran⟩ := ran_bind ran
    obtain ⟨own, moved, taken⟩ := ih.expr _ _ _ _ (passes.within inside) read
    obtain ⟨others, fourth, read, ran⟩ := ran_bind ran
    obtain ⟨rest, went, again, sound⟩ :=
      ih.conditions _ _ _ (moved.within (passes.within inside)) read
    cases ran
    refine ⟨token :: (own ++ rest), passes.trans (moved.trans went), .step ?_ fun fuel enough => ?_,
      soundAll_cons taken.sound sound⟩
    · exact .cons (here ▸ rfl) (taken.spans.toClosed.append again.toClosed)
    · simp only [List.length_cons, List.length_append] at enough
      simp only [List.map_cons, List.map_append]
      rw [readConditions]
      refine .ifEaten here ?_
      refine .bind (taken.reads (by omega)) (fun read same => ?_) fun _ meets =>
        meets.of_passes went
      refine .last (again.reads fuel (by omega)) fun others same' => .pure ?_
      simp only [Expr.unspannedAll, same, same']
  · cases ran
    refine ⟨[], .none cursor, .step .nil fun fuel enough => ?_, soundAll_nil⟩
    rw [readConditions]
    exact .ifUneaten (fun _ meets => meets.ne other (by decide)) (.pure rfl)

/-- A closing bracket is no comma. -/
theorem ne_comma_of_isClosing {closing : TokenKind} (closes : closing.isClosing = true) :
    closing ≠ .comma := by
  rintro rfl
  cases closes

/-! ## Further elements

They are read again as elements of a display, whether they have been read as such or as those of
a tuple or a subscript. -/

section Elements

variable {closing : TokenKind} {comma : Token}

theorem again_elements_nil (closes : closing.isClosing = true) :
    Again [] 4 (· = closing) (readElements · closing) (Expr.unspannedAll · = []) := by
  refine .step .nil fun fuel enough => ?_
  rw [readElements]
  refine .ifUneaten (fun kind allowed => ?_) (.pure rfl)
  exact allowed ▸ ne_comma_of_isClosing closes

/-- A comma at the end is read again. -/
theorem again_elements_comma (here : comma.kind = .comma) :
    Again [comma] 4 (· = closing) (readElements · closing) (Expr.unspannedAll · = []) := by
  refine .step (.single (here ▸ rfl)) fun fuel enough => ?_
  rw [readElements]
  exact .ifEaten here (.ifKind (fun _ allowed => allowed) (.pure rfl))

theorem again_elements_cons {level : Power} {own rest : List Token} {next : TokenKind} {e : Expr}
    {es : List Expr} (closes : closing.isClosing = true) (here : comma.kind = .comma)
    (first : Operand level own next e)
    (follows : Meets next (lead (rest.map Token.spelling) closing))
    (stops : Stops .default (lead (rest.map Token.spelling) closing))
    (others : Again rest 4 (· = closing) (readElements · closing)
      (Expr.unspannedAll · = Expr.unspannedAll es)) :
    Again (comma :: (own ++ rest)) 4 (· = closing) (readElements · closing)
      (Expr.unspannedAll · = Expr.unspannedAll (e :: es)) := by
  have closed : Closed (comma :: (own ++ rest)) :=
    .cons (here ▸ rfl) (first.spans.toClosed.append others.toClosed)
  refine .step closed fun fuel enough => ?_
  simp only [List.length_cons, List.length_append] at enough
  simp only [List.map_cons, List.map_append]
  rw [readElements]
  refine .ifEaten here (.ifNotKind (fun kind _ => ?_) ?_)
  · rw [lead_append]
    exact first.spans.toClosed.lead_ne first.spans.ne_nil _ closes
  refine .bind (first.reads (Nat.zero_le _) (by omega)) (fun read same => ?_) fun kind allowed => ?_
  · refine .last (others.reads fuel (by omega)) fun others same' => .pure ?_
    simp only [Expr.unspannedAll, same, same']
  · exact allowed ▸ ⟨follows, stops⟩

end Elements

/-! ## Displays -/

/-- The further elements of a display are read again. -/
theorem elements_retrace (ih : Retraces tokens fuel) {closing : TokenKind}
    (closes : closing.isClosing = true) :
    Runs tokens (readElements (fuel + 1) closing) fun passed next es => next = closing →
      Divides (lead (passed.map Token.spelling) next) ∧
        Again passed 4 (· = closing) (readElements · closing)
          (Expr.unspannedAll · = Expr.unspannedAll es) ∧
        SoundAll tokens es := by
  intro cursor es after inside ran
  rw [readElements] at ran
  obtain ⟨comma, second, here, passes, ran⟩ | ⟨other, ran⟩ := ran_ifEaten inside (by decide) ran
  · have divides : Divides comma.kind := here ▸ divides_comma
    obtain ⟨ended, ran⟩ | ⟨goesOn, ran⟩ := ran_ifKind ran
    · cases ran
      exact ⟨[comma], passes, fun _ => ⟨divides, again_elements_comma here, soundAll_nil⟩⟩
    · obtain ⟨element, third, read, ran⟩ := ran_bind ran
      obtain ⟨own, moved, taken⟩ := ih.expr _ _ _ _ (passes.within inside) read
      obtain ⟨others, fourth, read, ran⟩ := ran_bind ran
      obtain ⟨rest, went, later⟩ :=
        ih.elements closing closes _ _ _ (moved.within (passes.within inside)) read
      cases ran
      refine ⟨comma :: (own ++ rest), passes.trans (moved.trans went), fun ends => ?_⟩
      obtain ⟨-, again, sound⟩ := later ends
      have follows := Meets.of_passes went (.inl ends.symm)
      refine ⟨divides, ?_, soundAll_cons taken.sound sound⟩
      exact again_elements_cons closes here taken.toOperand follows (follows.stops taken.stops)
        again
  · cases ran
    exact ⟨[], .none cursor, fun ends =>
      ⟨ends ▸ divides_closing closes, again_elements_nil closes, soundAll_nil⟩⟩

/-- An entry of a mapping is read again. -/
theorem entry_retrace (ih : Retraces tokens fuel) :
    Runs tokens (readEntry (fuel + 1)) fun passed next entry =>
      passed ≠ [] ∧ Again passed 4 (Meets next) readEntry (SameEntry · entry) ∧
        SoundAll tokens (entry.key.toList ++ [entry.value]) := by
  intro cursor entry after inside ran
  rw [readEntry] at ran
  obtain ⟨token, second, here, passes, ran⟩ | ⟨other, ran⟩ := ran_ifEaten inside (by decide) ran
  · obtain ⟨value, third, read, ran⟩ := ran_bind ran
    obtain ⟨own, moved, taken⟩ := ih.expr _ _ _ _ (passes.within inside) read
    cases ran
    refine ⟨token :: own, passes.trans moved, List.cons_ne_nil _ _,
      .step (.cons (here ▸ rfl) taken.spans.toClosed) fun fuel enough => ?_,
      soundAll_cons taken.sound soundAll_nil⟩
    rw [List.length_cons] at enough
    rw [readEntry]
    refine .ifEaten here (.last (taken.reads (by omega)) fun read same => .pure ?_)
    exact ⟨rfl, same⟩
  · obtain ⟨key, second, read, ran⟩ := ran_bind ran
    obtain ⟨early, passes, first⟩ := ih.expr _ _ _ _ inside read
    obtain ⟨colon, third, mark, step, ran⟩ := ran_expectOr (passes.within inside) (by decide) ran
    obtain ⟨value, fourth, read, ran⟩ := ran_bind ran
    obtain ⟨late, moved, last⟩ := ih.expr _ _ _ _ (step.within (passes.within inside)) read
    cases ran
    refine ⟨early ++ colon :: late, passes.trans (step.trans moved), by simp,
      .step ?_ fun fuel enough => ?_, ?_⟩
    · exact first.spans.toClosed.append (.cons (mark ▸ rfl) last.spans.toClosed)
    · simp only [List.length_cons, List.length_append] at enough
      simp only [List.map_cons, List.map_append]
      rw [readEntry]
      refine .ifUneaten (fun kind _ => ?_) ?_
      · rw [lead_append, lead_of_ne_nil first.spans.ne_nil _ second.kind, passes.lead]
        exact other
      refine .bind (first.reads (by omega)) (fun read same => ?_) fun _ _ => ?_
      · refine .step (.expect mark) fun _ _ => ?_
        refine .last (last.reads (by omega)) fun again same' => .pure ?_
        exact ⟨congrArg some same, same'⟩
      · exact Meets.of_passes step (.refl third.kind)
    · exact soundAll_cons first.sound (soundAll_cons last.sound soundAll_nil)

/-- Further entries are read again. -/
theorem entries_retrace (ih : Retraces tokens fuel) :
    Runs tokens (readEntries (fuel + 1)) fun passed next entries => next = .closeCurly →
      Divides (lead (passed.map Token.spelling) next) ∧
        Again passed 4 (· = .closeCurly) readEntries
          (Expr.unspannedEntries · = Expr.unspannedEntries entries) ∧
        SoundEntries tokens entries := by
  intro cursor entries after inside ran
  rw [readEntries] at ran
  obtain ⟨comma, second, here, passes, ran⟩ | ⟨other, ran⟩ := ran_ifEaten inside (by decide) ran
  · have divides : Divides comma.kind := here ▸ divides_comma
    obtain ⟨ended, ran⟩ | ⟨goesOn, ran⟩ := ran_ifKind ran
    · cases ran
      refine ⟨[comma], passes, fun _ => ⟨divides,
        .step (.single (here ▸ rfl)) fun fuel enough => ?_, fun _ member => by cases member⟩⟩
      rw [readEntries]
      exact .ifEaten here (.ifKind (fun _ allowed => allowed) (.pure rfl))
    · obtain ⟨entry, third, read, ran⟩ := ran_bind ran
      obtain ⟨own, moved, nonempty, taken, first⟩ := ih.entry _ _ _ (passes.within inside) read
      obtain ⟨others, fourth, read, ran⟩ := ran_bind ran
      obtain ⟨rest, went, later⟩ :=
        ih.entries _ _ _ (moved.within (passes.within inside)) read
      cases ran
      refine ⟨comma :: (own ++ rest), passes.trans (moved.trans went), fun ends => ?_⟩
      obtain ⟨-, again, sound⟩ := later ends
      refine ⟨divides, .step ?_ fun fuel enough => ?_, List.forall_mem_cons.mpr ⟨first, sound⟩⟩
      · exact .cons (here ▸ rfl) (taken.toClosed.append again.toClosed)
      · simp only [List.length_cons, List.length_append] at enough
        simp only [List.map_cons, List.map_append]
        rw [readEntries]
        refine .ifEaten here (.ifNotKind (fun kind _ => ?_) ?_)
        · rw [lead_append]
          exact taken.toClosed.lead_ne nonempty _ rfl
        refine .bind (taken.reads fuel (by omega)) (fun read same => ?_) fun kind allowed => ?_
        · refine .last (again.reads fuel (by omega)) fun others same' => .pure ?_
          simp only [Expr.unspannedEntries, same.key, same.value, same']
        · exact Meets.of_passes went (.inl (allowed.trans ends.symm))
  · cases ran
    refine ⟨[], .none cursor, fun ends => ⟨ends ▸ divides_closing rfl,
      .step .nil fun fuel enough => ?_, fun _ member => by cases member⟩⟩
    rw [readEntries]
    exact .ifUneaten (fun kind allowed => allowed ▸ by decide) (.pure rfl)

/-- A mapping is read again behind its first entry. -/
theorem dict_retrace (ih : Retraces tokens fuel) (start : Nat) (first : Entry Expr)
    (cursor : Cursor) (e : Expr) (after : Cursor) (inside : cursor.Within tokens)
    (ran : readDict (fuel + 1) start first cursor = .ok e after) :
    ∃ inner closer others, cursor.Passes (inner ++ [closer]) after ∧ closer.kind = .closeCurly ∧
      Divides cursor.kind ∧
      Again inner 4 (· = .closeCurly) readEntries
        (Expr.unspannedEntries · = Expr.unspannedEntries others) ∧
      SoundEntries tokens others ∧ e = .dict (after.spanFrom start) (first :: others) := by
  rw [readDict] at ran
  obtain ⟨others, second, read, ran⟩ := ran_bind ran
  obtain ⟨inner, went, later⟩ := ih.entries _ _ _ inside read
  obtain ⟨closer, third, closes, step, ran⟩ := ran_expectOr (went.within inside) (by decide) ran
  obtain ⟨divides, again, sound⟩ := later (step.kind_eq.trans closes)
  rw [went.lead] at divides
  cases ran
  exact ⟨inner, closer, others, went.trans step, closes, divides, again, sound, rfl⟩

/-- Tokens that begin with a clause are seen as such. -/
theorem ifBegins {α : Type} {yes no : Parse α} {Good : α → Prop} {Next : TokenKind → Prop}
    {passed : List Token} {later : List Spelling} (begins : BeginsClause passed)
    (spells : Spells yes (passed.map Token.spelling ++ later) Next Good) :
    Spells (atClause >>= fun found => if found = true then yes else no)
      (passed.map Token.spelling ++ later) Next Good := by
  intro others spelled
  have kinds := kinds_of_spelling spelled
  have looks : Looks atClause others Next true := by
    intro file previous more stop _
    cases begins with
    | plain here =>
        obtain ⟨token, others, rfl, first, -⟩ := List.map_eq_cons_iff.mp kinds
        exact congrArg (EStateM.Result.ok · _) (decide_eq_true (.inl (first.trans here)))
    | async here after =>
        obtain ⟨token, others, rfl, first, rest⟩ := List.map_eq_cons_iff.mp kinds
        obtain ⟨second, others, rfl, next, -⟩ := List.map_eq_cons_iff.mp rest
        exact congrArg (EStateM.Result.ok · _)
          (decide_eq_true (.inr ⟨first.trans here, next.trans after⟩))
  refine .peek looks ?_
  rw [if_pos rfl]
  exact spells others spelled

/-- What a clause starts with, if the word before it has been gone past or is not there. -/
theorem ran_async {α : Type} {cursor after : Cursor} {value : α} {others : Bool → Parse α}
    (inside : cursor.Within tokens) (ran : (eat .asyncKw >>= others) cursor = .ok value after) :
    ∃ words isAsync middle, cursor.Passes words middle ∧ Closed words ∧
      Spells (eat .asyncKw) (words.map Token.spelling) (· ≠ .asyncKw) (· = isAsync) ∧
      (words = [] ∨ ∃ word, words = [word] ∧ word.kind = .asyncKw) ∧
      others isAsync middle = .ok value after := by
  obtain ⟨word, second, here, passes, ran⟩ | ⟨other, ran⟩ := ran_eat inside (by decide) ran
  · exact ⟨[word], true, second, passes, .single (here ▸ rfl), .eat here,
      .inr ⟨word, rfl, here⟩, ran⟩
  · exact ⟨[], false, cursor, .none cursor, .nil, .uneaten, .inl rfl, ran⟩

/-- The clauses of a comprehension are read again. -/
theorem clauses_retrace (ih : Retraces tokens fuel) (cursor : Cursor) (cs : List (Clause Expr))
    (after : Cursor) (inside : cursor.Within tokens)
    (ran : readClauses (fuel + 1) cursor = .ok cs after) :
    ∃ passed, cursor.Passes passed after ∧ (AtClause cursor → BeginsClause passed) ∧
      Again passed 4 (fun kind => Meets after.kind kind ∧ kind ≠ .asyncKw) readClauses
        (Expr.unspannedClauses · = Expr.unspannedClauses cs) ∧
      SoundClauses tokens cs := by
  rw [readClauses] at ran
  obtain ⟨found, ran⟩ | ⟨absent, ran⟩ := ran_ifClause ran
  · obtain ⟨words, isAsync, second, led, free, eats, single, ran⟩ := ran_async inside ran
    have inside := led.within inside
    obtain ⟨opener, third, opens, first, ran⟩ := ran_expectOr inside (by decide) ran
    have inside := first.within inside
    obtain ⟨target, fourth, read, ran⟩ := ran_bind ran
    obtain ⟨aim, aimed, some, aims, soundAim⟩ := ih.tuple _ _ _ _ inside read
    have inside := aimed.within inside
    obtain ⟨divider, fifth, divides, step, ran⟩ := ran_expectOr inside (by decide) ran
    have inside := step.within inside
    obtain ⟨iter, sixth, read, ran⟩ := ran_bind ran
    obtain ⟨source, moved, taken⟩ := ih.expr _ _ _ _ inside read
    have inside := moved.within inside
    obtain ⟨conditions, seventh, read, ran⟩ := ran_bind ran
    obtain ⟨tests, tested, again, soundTests⟩ := ih.conditions _ _ _ inside read
    have inside := tested.within inside
    obtain ⟨others, eighth, read, ran⟩ := ran_bind ran
    obtain ⟨rest, went, -, more, sound⟩ := ih.clauses _ _ _ inside read
    cases ran
    -- The clause starts with `for`, or with `async` and `for`.
    have begins :
        BeginsClause (words ++ opener :: (aim ++ divider :: (source ++ (tests ++ rest)))) := by
      rcases single with rfl | ⟨word, rfl, here⟩
      · exact .plain opens
      · exact .async here opens
    refine ⟨words ++ opener :: (aim ++ divider :: (source ++ (tests ++ rest))),
      led.trans (first.trans (aimed.trans (step.trans (moved.trans (tested.trans went))))),
      fun _ => begins, .step ?_ fun fuel enough => ?_, ?_⟩
    · refine free.append (.cons (opens ▸ rfl) (aims.toClosed.append ?_))
      exact .cons (divides ▸ rfl)
        (taken.spans.toClosed.append (again.toClosed.append more.toClosed))
    · simp only [List.length_cons, List.length_append] at enough
      rw [readClauses, ← List.append_nil (List.map _ _)]
      refine ifBegins begins ?_
      simp only [List.map_cons, List.map_append, List.append_nil]
      refine .bind eats (fun _ async => ?_) fun _ _ => by simp [Token.spelling, opens]
      refine .step (.expect opens) fun _ _ => ?_
      refine .bind (aims.reads fuel (by omega)) (fun _ sameAim => ?_) fun _ _ =>
        Meets.of_passes step (.refl fifth.kind)
      refine .step (.expect divides) fun _ _ => ?_
      refine .bind (taken.reads (by omega)) (fun _ sameIter => ?_) fun kind allowed => ?_
      · refine .bind (again.reads fuel (by omega)) (fun _ sameTests => ?_) fun kind allowed => ?_
        · refine .last (more.reads fuel (by omega)) fun _ same => .pure ?_
          simp only [Expr.unspannedClauses, async, sameAim, sameIter, sameTests, same]
        · exact Meets.of_passes went allowed.1
      · rw [lead_append]
        exact Meets.of_passes tested (Meets.of_passes went allowed.1)
    · refine List.forall_mem_cons.mpr ⟨?_, sound⟩
      exact soundAll_cons soundAim (soundAll_cons taken.sound soundTests)
  · cases ran
    refine ⟨[], .none cursor, fun found => absurd found absent, .step .nil fun fuel enough => ?_,
      fun _ member => by cases member⟩
    rw [readClauses]
    refine ifNotClause (fun kind allowed => ⟨?_, allowed.2⟩) (.pure rfl)
    exact allowed.1.ne (fun here => absent (.inl here)) (by decide)

variable {level : Power} {own rest passed : List Token} {first read e : Expr}
  {value value' : Option Expr} {others : List Expr} {clauses : List (Clause Expr)}
  {next mark : TokenKind} {cursor after : Cursor} {span : Span} {start : Nat}
  {opening closing : Spelling}

/-- The further elements of a display and the bracket that closes it. -/
def finishElements (fuel : Nat) (mark : TokenKind) (start : Nat) (kind : SequenceKind)
    (first : Expr) : Parse Expr := do
  let others ← readElements fuel mark
  let _ ← expect mark
  return .sequence (← spanFrom start) kind (first :: others)

/-- The clauses of a comprehension and the bracket that closes it. -/
def finishClauses (fuel : Nat) (mark : TokenKind) (start : Nat) (kind : ComprehensionKind)
    (first : Expr) (value : Option Expr) : Parse Expr := do
  let clauses ← readClauses fuel
  let _ ← expect mark
  return .comprehension (← spanFrom start) kind first value clauses

/-- A display is read again from its second element on. -/
theorem finishElements_spells {kind : SequenceKind}
    (again : Again rest 4 (· = mark) (readElements · mark)
      (Expr.unspannedAll · = Expr.unspannedAll others))
    (closes : closing.1 = mark) (same : read.unspanned = first.unspanned)
    {fuel : Nat} (enough : 8 * rest.length + 4 ≤ fuel) :
    Spells (finishElements fuel mark start kind read) (rest.map Token.spelling ++ [closing])
      (fun _ => True) (·.unspanned = (Expr.sequence span kind (first :: others)).unspanned) := by
  refine .bind (again.reads fuel enough) (fun read same' => ?_) fun _ _ => closes
  refine .step (.expect closes) fun _ _ => .spanned fun _ => ?_
  simp only [Expr.unspanned, Expr.unspannedAll, same, same']

/-- A comprehension is read again from its first clause on. -/
theorem finishClauses_spells {kind : ComprehensionKind}
    (again : Again rest 4 (· = mark) readClauses
      (Expr.unspannedClauses · = Expr.unspannedClauses clauses))
    (closes : closing.1 = mark) (same : read.unspanned = first.unspanned)
    (sameValue : Expr.unspannedOption value' = Expr.unspannedOption value)
    {fuel : Nat} (enough : 8 * rest.length + 4 ≤ fuel) :
    Spells (finishClauses fuel mark start kind read value') (rest.map Token.spelling ++ [closing])
      (fun _ => True)
      (·.unspanned = (Expr.comprehension span kind first value clauses).unspanned) := by
  refine .bind (again.reads fuel enough) (fun read same' => ?_) fun _ _ => closes
  refine .step (.expect closes) fun _ _ => .spanned fun _ => ?_
  simp only [Expr.unspanned, same, sameValue, same']

/-- A mapping is read again up to its closing bracket. -/
theorem readDict_finishes {entry entry' : Entry Expr} {entries : List (Entry Expr)}
    (again : Again rest 4 (· = .closeCurly) readEntries
      (Expr.unspannedEntries · = Expr.unspannedEntries entries))
    (closes : closing.1 = .closeCurly) (same : SameEntry entry' entry)
    {fuel : Nat} (enough : 8 * rest.length + 5 ≤ fuel) :
    Spells (readDict fuel start entry') (rest.map Token.spelling ++ [closing]) (fun _ => True)
      (·.unspanned = (Expr.dict span (entry :: entries)).unspanned) := by
  obtain ⟨fuel, rfl⟩ : ∃ less, fuel = less + 1 := ⟨fuel - 1, by omega⟩
  rw [readDict]
  refine .bind (again.reads fuel (by omega)) (fun entries same' => ?_) fun _ _ => closes
  refine .step (.expect closes) fun _ _ => .spanned fun _ => ?_
  simp only [Expr.unspanned, Expr.unspannedEntries, same.key, same.value, same']

/-- The run of a reader of further elements. -/
theorem ran_elements (ih : Retraces tokens fuel) {kind : SequenceKind}
    (closes : mark.isClosing = true) (inside : cursor.Within tokens)
    (ran : finishElements fuel mark start kind first cursor = .ok e after) :
    ∃ rest closer others, cursor.Passes (rest ++ [closer]) after ∧ closer.kind = mark ∧
      Divides cursor.kind ∧ lead (rest.map Token.spelling) mark = cursor.kind ∧
      Again rest 4 (· = mark) (readElements · mark)
        (Expr.unspannedAll · = Expr.unspannedAll others) ∧
      SoundAll tokens others ∧ e = .sequence (after.spanFrom start) kind (first :: others) := by
  have real : mark ≠ .eof := by rintro rfl; cases closes
  obtain ⟨others, second, read, ran⟩ := ran_bind ran
  obtain ⟨rest, went, later⟩ := ih.elements _ closes _ _ _ inside read
  obtain ⟨closer, third, here, step, ran⟩ := ran_expectOr (went.within inside) real ran
  have ends : second.kind = mark := step.kind_eq.trans here
  obtain ⟨divides, again, sound⟩ := later ends
  rw [went.lead] at divides
  cases ran
  exact ⟨rest, closer, others, went.trans step, here, divides, ends ▸ went.lead, again, sound, rfl⟩

/-- The run of a reader of clauses. -/
theorem ran_clauses (ih : Retraces tokens fuel) {kind : ComprehensionKind}
    (closes : mark.isClosing = true) (inside : cursor.Within tokens) (found : AtClause cursor)
    (ran : finishClauses fuel mark start kind first value cursor = .ok e after) :
    ∃ rest closer clauses, cursor.Passes (rest ++ [closer]) after ∧ closer.kind = mark ∧
      lead (rest.map Token.spelling) mark = cursor.kind ∧ BeginsClause rest ∧
      Again rest 4 (· = mark) readClauses
        (Expr.unspannedClauses · = Expr.unspannedClauses clauses) ∧
      SoundClauses tokens clauses ∧
      e = .comprehension (after.spanFrom start) kind first value clauses := by
  have real : mark ≠ .eof := by rintro rfl; cases closes
  have plain : mark ≠ .asyncKw := by rintro rfl; cases closes
  obtain ⟨clauses, second, read, ran⟩ := ran_bind ran
  obtain ⟨rest, went, begins, again, sound⟩ := ih.clauses _ _ _ inside read
  obtain ⟨closer, third, here, step, ran⟩ := ran_expectOr (went.within inside) real ran
  have ends : second.kind = mark := step.kind_eq.trans here
  cases ran
  refine ⟨rest, closer, clauses, went.trans step, here, ends ▸ went.lead, begins found,
    again.mono ?_, sound, rfl⟩
  rintro kind rfl
  exact ⟨.inl ends.symm, plain⟩

/-- The parts of a comprehension are its element, its value and those of its clauses. -/
theorem sound_comprehension_parts {kind : ComprehensionKind} (sound : Sound tokens first)
    (values : ∀ e ∈ value, Sound tokens e) (later : SoundClauses tokens clauses) :
    SoundAll tokens (Expr.comprehension span kind first value clauses).parts := by
  intro part member
  rcases List.mem_cons.mp member with rfl | member
  · exact sound
  rcases List.mem_append.mp member with own | member
  · exact values part (Option.mem_toList.mp own)
  · obtain ⟨clause, inside, member⟩ := List.mem_flatMap.mp member
    exact later clause inside part member

/-- The parts of a mapping are those of its entries. -/
theorem sound_dict_parts {entries : List (Entry Expr)} (sound : SoundEntries tokens entries) :
    SoundAll tokens (Expr.dict span entries).parts := by
  intro part member
  obtain ⟨entry, inside, member⟩ := List.mem_flatMap.mp member
  exact sound entry inside part member

/-- What comes behind the first expression in parentheses. -/
def finishGroup (fuel start : Nat) (first : Expr) : Parse Expr := do
  if ← atClause then
    finishClauses fuel .closeParen start .generator first none
  else if (← kind) = .comma then
    finishElements fuel .closeParen start .tuple first
  else
    let _ ← expect .closeParen
    return first

/-- What stands first in parentheses, if something follows it. -/
theorem readGroup_first (operand : Operand level own next first)
    {text : List Spelling} (follows : ∀ kind, lead text kind = next) (stops : Stops .default next)
    {Good : Expr → Prop} {fuel : Nat} (enough : 8 * own.length < fuel)
    (goesOn : ∀ less start read, fuel = less + 1 → read.unspanned = first.unspanned →
      Spells (finishGroup less start read) text (fun _ => True) Good) :
    Spells (readGroup fuel) (opening :: (own.map Token.spelling ++ text)) (fun _ => True) Good := by
  obtain ⟨fuel, rfl⟩ : ∃ less, fuel = less + 1 := ⟨fuel - 1, by omega⟩
  rw [readGroup]
  refine .step .advance fun token _ => ?_
  dsimp only
  refine .ifUneaten (fun kind _ => ?_) ?_
  · rw [lead_append]
    exact operand.spans.toClosed.lead_ne operand.spans.ne_nil _ rfl
  refine .bind (operand.reads (Nat.zero_le _) (by omega)) (fun read same => ?_) fun kind _ => ?_
  · exact goesOn fuel token.span.start read rfl same
  · rw [follows kind]
    exact ⟨.refl _, stops⟩

/-- Expressions with commas between them are a tuple in parentheses. -/
theorem readGroup_elements (operand : Operand level own .comma first)
    (begins : lead (rest.map Token.spelling) .closeParen = .comma)
    (again : Again rest 4 (· = .closeParen) (readElements · .closeParen)
      (Expr.unspannedAll · = Expr.unspannedAll others))
    (closes : closing.1 = .closeParen) {fuel : Nat}
    (enough : 8 * (own ++ rest).length + 5 ≤ fuel) :
    Spells (readGroup fuel) (opening :: ((own ++ rest).map Token.spelling ++ [closing]))
      (fun _ => True) (·.unspanned = (Expr.sequence span .tuple (first :: others)).unspanned) := by
  rw [List.length_append] at enough
  have comma : ∀ kind, lead (rest.map Token.spelling ++ [closing]) kind = .comma := by
    intro kind
    rw [lead_append, lead_cons, closes, begins]
  rw [List.map_append, List.append_assoc]
  refine readGroup_first operand comma (.of_none rfl) (by omega) ?_
  rintro fuel start read rfl same
  refine ifNotClause (fun kind _ => by simp [comma kind]) (.ifKind (fun kind _ => comma kind) ?_)
  exact finishElements_spells again closes same (by omega)

/-- An expression with clauses behind it is a generator in parentheses. -/
theorem readGroup_clauses (operand : Operand level own next first) (stops : Stops .default next)
    (begins : BeginsClause rest) (follows : lead (rest.map Token.spelling) .closeParen = next)
    (again : Again rest 4 (· = .closeParen) readClauses
      (Expr.unspannedClauses · = Expr.unspannedClauses clauses))
    (closes : closing.1 = .closeParen) {fuel : Nat}
    (enough : 8 * (own ++ rest).length + 5 ≤ fuel) :
    Spells (readGroup fuel) (opening :: ((own ++ rest).map Token.spelling ++ [closing]))
      (fun _ => True)
      (·.unspanned = (Expr.comprehension span .generator first none clauses).unspanned) := by
  rw [List.length_append] at enough
  have ahead : ∀ kind, lead (rest.map Token.spelling ++ [closing]) kind = next := by
    intro kind
    rw [lead_append, lead_cons, closes, follows]
  rw [List.map_append, List.append_assoc]
  refine readGroup_first operand ahead stops (by omega) ?_
  rintro fuel start read rfl same
  exact ifBegins begins (finishClauses_spells again closes same rfl (by omega))

/-- Further elements of a tuple are read again. -/
theorem tupleRest_retrace (ih : Retraces tokens fuel) (level : Power) :
    Runs tokens (readTupleRest (fuel + 1) level) fun passed next es =>
      ((∀ kind, lead (passed.map Token.spelling) kind = .comma) ∨ passed = [] ∧ next ≠ .comma) ∧
        Again passed 4 (Meets next) (readTupleRest · level)
          (Expr.unspannedAll · = Expr.unspannedAll es) ∧
        Again passed 4 (· = .closeParen) (readElements · .closeParen)
          (Expr.unspannedAll · = Expr.unspannedAll es) ∧
        SoundAll tokens es := by
  intro cursor es after inside ran
  rw [readTupleRest] at ran
  obtain ⟨comma, second, here, passes, ran⟩ | ⟨other, ran⟩ := ran_ifEaten inside (by decide) ran
  · have inside := passes.within inside
    obtain ⟨⟨form, opens⟩, ran⟩ | ⟨closed, ran⟩ := ran_ifExpression inside ran
    · obtain ⟨element, third, read, ran⟩ := ran_bind ran
      obtain ⟨own, moved, taken⟩ := ih.expr _ _ _ _ inside read
      obtain ⟨others, fourth, read, ran⟩ := ran_bind ran
      obtain ⟨rest, went, begins, again, elements, sound⟩ :=
        ih.tupleRest _ _ _ _ (moved.within inside) read
      cases ran
      -- As an element of a display it may be followed by the parenthesis that closes that.
      have ahead : Meets third.kind (lead (rest.map Token.spelling) .closeParen) ∧
          Stops .default (lead (rest.map Token.spelling) .closeParen) := by
        obtain follows | ⟨rfl, other⟩ := begins
        · have next : third.kind = .comma := went.lead.symm.trans (follows _)
          rw [follows, next]
          exact ⟨.refl _, .of_none rfl⟩
        · exact ⟨.closed _, stops_closeParen _⟩
      have closed : Closed (comma :: (own ++ rest)) :=
        .cons (here ▸ rfl) (taken.spans.toClosed.append again.toClosed)
      refine ⟨comma :: (own ++ rest), passes.trans (moved.trans went), .inl fun _ => here,
        .step closed fun fuel enough => ?_,
        again_elements_cons rfl here taken.toOperand ahead.1 ahead.2 elements,
        soundAll_cons taken.sound sound⟩
      simp only [List.length_cons, List.length_append] at enough
      simp only [List.map_cons, List.map_append]
      rw [readTupleRest]
      refine .ifEaten here (ifExpression (fun kind _ => ?_) ?_)
      · rw [lead_append, lead_of_ne_nil taken.spans.ne_nil _ third.kind, moved.lead, opens]
        rfl
      refine .bind (taken.reads (by omega)) (fun read same => ?_) fun _ meets =>
        meets.of_passes went
      refine .last (again.reads fuel (by omega)) fun others same' => .pure ?_
      simp only [Expr.unspannedAll, same, same']
    · cases ran
      refine ⟨[comma], passes, .inl fun _ => here,
        .step (.single (here ▸ rfl)) fun fuel enough => ?_, again_elements_comma here, soundAll_nil⟩
      rw [readTupleRest]
      refine .ifEaten here (ifNotExpression (fun kind meets => ?_) (.pure rfl))
      rcases meets with rfl | rfl
      · exact closed
      · rfl
  · cases ran
    refine ⟨[], .none cursor, .inr ⟨rfl, other⟩, .step .nil fun fuel enough => ?_,
      again_elements_nil rfl, soundAll_nil⟩
    rw [readTupleRest]
    exact .ifUneaten (fun _ meets => meets.ne other (by decide)) (.pure rfl)

/-- A tuple without parentheses is read again, and in parentheses as well. -/
theorem tuple_retrace (ih : Retraces tokens fuel) (level : Power) :
    Runs tokens (readTuple (fuel + 1) level) fun passed next e =>
      passed ≠ [] ∧ Again passed 4 (Meets next) (readTuple · level) (·.unspanned = e.unspanned) ∧
        Sound tokens e := by
  intro cursor e after inside ran
  rw [readTuple] at ran
  obtain ⟨first, second, read, ran⟩ := ran_bind ran
  obtain ⟨own, moved, taken⟩ := ih.expr _ _ _ _ inside read
  obtain ⟨here, ran⟩ | ⟨other, ran⟩ := ran_ifKind ran
  · obtain ⟨others, third, read, ran⟩ := ran_bind ran
    obtain ⟨rest, went, begins, again, elements, sound⟩ :=
      ih.tupleRest _ _ _ _ (moved.within inside) read
    cases ran
    have follows : ∀ kind, lead (rest.map Token.spelling) kind = .comma := by
      obtain follows | ⟨rfl, other⟩ := begins
      · exact follows
      · exact absurd (went.kind_eq.symm.trans here) other
    have nonempty : rest ≠ [] := by
      rintro rfl
      cases follows .closeParen
    have owns : Owns (own ++ rest)
        (.sequence ⟨first.span.start, after.previous.span.stop⟩ .tuple (first :: others)) := by
      refine .ofFirst (taken.spans.toClosed.append again.toClosed) taken.spans
        List.mem_cons_self rfl ?_
      rw [went.getLast? nonempty]
      rfl
    have operand := taken.toOperand
    rw [here] at operand
    have restored := owns.restored inside (moved.trans went) fun _ fuel enough =>
      readGroup_elements operand (follows _) elements rfl (by omega)
    refine ⟨own ++ rest, moved.trans went, by simp [nonempty],
      .step owns.toClosed fun fuel enough => ?_, .intro restored (soundAll_cons taken.sound sound)⟩
    have long : 0 < own.length := List.length_pos_iff.mpr taken.spans.ne_nil
    rw [List.length_append] at enough
    rw [readTuple, List.map_append]
    refine .bind (taken.reads (by omega)) (fun read same => ?_) fun _ meets => meets.of_passes went
    refine .ifKind (fun kind _ => follows kind) ?_
    refine .last (again.reads fuel (by omega)) fun others same' => .spanned fun _ => ?_
    simp only [Expr.unspanned, Expr.unspannedAll, same, same']
  · cases ran
    refine ⟨own, moved, taken.spans.ne_nil, .step taken.spans.toClosed fun fuel enough => ?_,
      taken.sound⟩
    rw [readTuple]
    refine .last (taken.reads (by omega)) fun read same => ?_
    exact .ifNotKind (fun kind meets => meets.ne other (by decide)) (.pure same)

/-- A new display is read again wherever it starts an expression. -/
theorem retraces_display {reader : Nat → Parse Expr} {form : Opening} {opener closer : Token}
    {inner : List Token} (inside : cursor.Within tokens)
    (passes : cursor.Passes (opener :: (inner ++ [closer])) after)
    (starts : opener.kind.opening? = some form)
    (reads : ∀ fuel, readOpening (fuel + 1) form = reader fuel)
    (opens : opener.kind.isOpening = true) (closes : closer.kind.isClosing = true)
    (closed : Closed inner) (span : e.span = after.spanFrom opener.span.start)
    (parts : SoundAll tokens e.parts)
    (again : ∀ fuel, 8 * inner.length + 13 ≤ fuel →
      Spells (reader (fuel + 1))
        (opener.spelling :: (inner.map Token.spelling ++ [closer.spelling])) (fun _ => True)
        (·.unspanned = e.unspanned)) :
    ∃ passed, cursor.Passes passed after ∧ Spans passed e ∧ Sound tokens e ∧
      ∀ fuel, 8 * passed.length ≤ fuel + 2 →
        Spells (reader fuel) (passed.map Token.spelling) (fun _ => True)
          (·.unspanned = e.unspanned) := by
  have owns : Owns (opener :: (inner ++ [closer])) e :=
    .ofPasses (closed.enclosed opens closes) passes span
  have rereads : ∀ fuel, 8 * (opener :: (inner ++ [closer])).length ≤ fuel + 2 →
      Spells (reader fuel) ((opener :: (inner ++ [closer])).map Token.spelling) (fun _ => True)
        (·.unspanned = e.unspanned) := by
    intro fuel enough
    simp only [List.length_cons, List.length_append, List.length_nil] at enough
    obtain ⟨fuel, rfl⟩ : ∃ less, fuel = less + 1 := ⟨fuel - 1, by omega⟩
    rw [List.map_cons, List.map_append]
    exact again fuel (by omega)
  have here : cursor.kind.opening? = some form := passes.kind_eq ▸ starts
  refine ⟨_, passes, owns.spans, ?_, rereads⟩
  refine sound_of_opening owns inside passes here (fun fuel enough => ?_) parts
  have long : 0 < (opener :: (inner ++ [closer])).length := Nat.succ_pos _
  obtain ⟨fuel, rfl⟩ : ∃ less, fuel = less + 1 := ⟨fuel - 1, by omega⟩
  rw [reads]
  exact (rereads fuel (by omega)).mono (fun _ _ => trivial) fun _ same => same

/-- What closes a display stands behind what is in it. -/
theorem lead_closed {closer : Token} (passes : cursor.Passes (rest ++ [closer]) after)
    (kind : TokenKind) :
    lead (rest.map Token.spelling ++ [closer.spelling]) kind = cursor.kind := by
  rw [← lead_of_passes passes (by simp) kind, List.map_append]
  rfl

/-- What stands in parentheses is read again. -/
theorem group_retrace (ih : Retraces tokens fuel) :
    RetracesDisplay tokens .openParen readGroup (fuel + 1) := by
  intro cursor e after inside here ran
  rw [readGroup] at ran
  obtain ⟨opener, second, opens, start, ran⟩ := ran_advance inside (here ▸ by decide) ran
  rw [here] at opens
  have starts : opener.kind.opening? = some .group := opens ▸ rfl
  have reads : ∀ fuel, readOpening (fuel + 1) .group = readGroup fuel :=
    fun _ => by rw [readOpening]
  have inside' := start.within inside
  dsimp only at ran
  obtain ⟨closer, third, closes, step, ran⟩ | ⟨filled, ran⟩ := ran_ifEaten inside' (by decide) ran
  · cases ran
    have passes : cursor.Passes (opener :: ([] ++ [closer])) after := start.trans step
    refine retraces_display inside passes starts reads (opens ▸ rfl) (closes ▸ rfl) .nil rfl
      soundAll_nil fun fuel _ => ?_
    rw [readGroup]
    exact .step .advance fun _ _ => .ifEaten closes (.spanned fun _ => rfl)
  obtain ⟨first, third, read, ran⟩ := ran_bind ran
  obtain ⟨own, moved, taken⟩ := ih.expr _ _ _ _ inside' read
  have inside' := moved.within inside'
  obtain ⟨found, ran⟩ | ⟨-, ran⟩ := ran_ifClause ran
  · obtain ⟨rest, closer, clauses, went, closes, follows, begins, again, sound, rfl⟩ :=
      ran_clauses ih rfl inside' found ran
    have passes : cursor.Passes (opener :: ((own ++ rest) ++ [closer])) after := by
      rw [List.append_assoc]
      exact start.trans (moved.trans went)
    refine retraces_display inside passes starts reads (opens ▸ rfl) (closes ▸ rfl)
      (taken.spans.toClosed.append again.toClosed) rfl
      (sound_comprehension_parts taken.sound (fun _ member => by cases member) sound)
      fun fuel enough => ?_
    exact readGroup_clauses taken.toOperand taken.stops begins follows again closes (by omega)
  obtain ⟨comma, ran⟩ | ⟨-, ran⟩ := ran_ifKind ran
  · obtain ⟨rest, closer, others, went, closes, -, follows, again, sound, rfl⟩ :=
      ran_elements ih rfl inside' ran
    have passes : cursor.Passes (opener :: ((own ++ rest) ++ [closer])) after := by
      rw [List.append_assoc]
      exact start.trans (moved.trans went)
    have operand := taken.toOperand
    rw [comma] at operand follows
    refine retraces_display inside passes starts reads (opens ▸ rfl) (closes ▸ rfl)
      (taken.spans.toClosed.append again.toClosed) rfl (soundAll_cons taken.sound sound)
      fun fuel enough => ?_
    exact readGroup_elements operand follows again closes (by omega)
  -- Parentheses alone leave the expression as it is, so its span does not cover them.
  · obtain ⟨closer, fourth, closes, step, ran⟩ := ran_expectOr inside' (by decide) ran
    cases ran
    refine ⟨opener :: (own ++ [closer]), start.trans (moved.trans step),
      taken.spans.grouped opens closes, taken.sound, fun fuel enough => ?_⟩
    simp only [List.length_cons, List.length_append] at enough
    rw [List.map_cons, List.map_append]
    exact taken.toOperand.enclosed closes (by omega)

/-- What comes behind the first expression of a display up to the closing bracket is read
again. -/
def Finishes (tokens : List Token) (closing : TokenKind) (finish : Nat → Nat → Expr → Parse Expr)
    (fuel : Nat) : Prop :=
  ∀ (start : Nat) (first : Expr) (cursor : Cursor) (e : Expr) (after : Cursor),
    cursor.Within tokens → Sound tokens first → finish fuel start first cursor = .ok e after →
    ∃ rest closer, cursor.Passes (rest ++ [closer]) after ∧ closer.kind = closing ∧
      Closed rest ∧ e.span = after.spanFrom start ∧ SoundAll tokens e.parts ∧
      ∀ fuel start read, 8 * rest.length + 5 ≤ fuel → read.unspanned = first.unspanned →
        Spells (finish fuel start read) (rest.map Token.spelling ++ [closer.spelling])
          (fun _ => True) (·.unspanned = e.unspanned)

/-- What comes behind the first expression in brackets. -/
def finishList (fuel start : Nat) (first : Expr) : Parse Expr := do
  if ← atClause then
    finishClauses fuel .closeBracket start .list first none
  else
    finishElements fuel .closeBracket start .list first

/-- A list is read again behind its first element. -/
theorem finishList_retrace (ih : Retraces tokens fuel) :
    Finishes tokens .closeBracket finishList fuel := by
  intro start first cursor e after inside soundFirst ran
  rw [finishList] at ran
  obtain ⟨found, ran⟩ | ⟨absent, ran⟩ := ran_ifClause ran
  · obtain ⟨rest, closer, clauses, went, closes, -, begins, again, sound, rfl⟩ :=
      ran_clauses ih rfl inside found ran
    refine ⟨rest, closer, went, closes, again.toClosed, rfl,
      sound_comprehension_parts soundFirst (fun _ member => by cases member) sound, ?_⟩
    intro fuel start read enough same
    exact ifBegins begins (finishClauses_spells again closes same rfl (by omega))
  · obtain ⟨rest, closer, others, went, closes, divides, -, again, sound, rfl⟩ :=
      ran_elements ih rfl inside ran
    refine ⟨rest, closer, went, closes, again.toClosed, rfl, soundAll_cons soundFirst sound, ?_⟩
    intro fuel start read enough same
    refine ifNotClause (fun kind _ => ?_) (finishElements_spells again closes same (by omega))
    rw [lead_closed went]
    exact divides.noClause

/-- A list is read again. -/
theorem list_retrace (ih : Retraces tokens fuel) :
    RetracesDisplay tokens .openBracket readListDisplay (fuel + 1) := by
  intro cursor e after inside here ran
  rw [readListDisplay] at ran
  obtain ⟨opener, second, opens, start, ran⟩ := ran_advance inside (here ▸ by decide) ran
  rw [here] at opens
  have starts : opener.kind.opening? = some .list := opens ▸ rfl
  have reads : ∀ fuel, readOpening (fuel + 1) .list = readListDisplay fuel := fun _ => by
    rw [readOpening]
  have inside' := start.within inside
  dsimp only at ran
  obtain ⟨closer, third, closes, step, ran⟩ | ⟨filled, ran⟩ := ran_ifEaten inside' (by decide) ran
  · cases ran
    have passes : cursor.Passes (opener :: ([] ++ [closer])) after := start.trans step
    refine retraces_display inside passes starts reads (opens ▸ rfl) (closes ▸ rfl) .nil rfl
      soundAll_nil fun fuel _ => ?_
    rw [readListDisplay]
    exact .step .advance fun _ _ => .ifEaten closes (.spanned fun _ => rfl)
  obtain ⟨first, third, read, ran⟩ := ran_bind ran
  obtain ⟨own, moved, taken⟩ := ih.expr _ _ _ _ inside' read
  obtain ⟨rest, closer, went, closes, closed, span, parts, again⟩ :=
    finishList_retrace ih _ _ _ _ _ (moved.within inside') taken.sound ran
  have passes : cursor.Passes (opener :: ((own ++ rest) ++ [closer])) after := by
    rw [List.append_assoc]
    exact start.trans (moved.trans went)
  refine retraces_display inside passes starts reads (opens ▸ rfl) (closes ▸ rfl)
    (taken.spans.toClosed.append closed) span parts fun fuel enough => ?_
  rw [List.length_append] at enough
  rw [readListDisplay, List.map_append, List.append_assoc]
  refine .step .advance fun _ _ => ?_
  dsimp only
  refine .ifUneaten (fun kind _ => ?_) ?_
  · rw [lead_append]
    exact taken.spans.toClosed.lead_ne taken.spans.ne_nil _ rfl
  refine .bind (taken.reads (by omega)) (fun read same => ?_) fun kind _ =>
    .inl (lead_closed went kind)
  exact again fuel _ read (by omega) same

/-- What comes behind the colon after the first key in braces. -/
def finishPair (fuel start : Nat) (key : Expr) : Parse Expr := do
  let value ← readExpr fuel .default
  if ← atClause then
    finishClauses fuel .closeCurly start .dict key (some value)
  else
    readDict fuel start ⟨some key, value⟩

/-- A mapping is read again behind its first key. -/
theorem finishPair_retrace (ih : Retraces tokens fuel) :
    Finishes tokens .closeCurly finishPair fuel := by
  intro start key cursor e after inside soundKey ran
  rw [finishPair] at ran
  obtain ⟨value, second, read, ran⟩ := ran_bind ran
  obtain ⟨own, moved, taken⟩ := ih.expr _ _ _ _ inside read
  have inside := moved.within inside
  obtain ⟨found, ran⟩ | ⟨absent, ran⟩ := ran_ifClause ran
  · obtain ⟨rest, closer, clauses, went, closes, -, begins, again, sound, rfl⟩ :=
      ran_clauses ih rfl inside found ran
    have passes : cursor.Passes ((own ++ rest) ++ [closer]) after := by
      rw [List.append_assoc]
      exact moved.trans went
    refine ⟨own ++ rest, closer, passes, closes, taken.spans.toClosed.append again.toClosed, rfl,
      sound_comprehension_parts soundKey ?_ sound, fun fuel start read enough same => ?_⟩
    · intro part member
      rw [← Option.some.inj member]
      exact taken.sound
    · rw [List.length_append] at enough
      rw [List.map_append, List.append_assoc]
      refine .bind (taken.reads (by omega)) (fun other sameValue => ?_) fun kind _ =>
        .inl (lead_closed went kind)
      have both : Expr.unspannedOption (some other) = Expr.unspannedOption (some value) :=
        congrArg some sameValue
      exact ifBegins begins (finishClauses_spells again closes same both (by omega))
  · obtain ⟨rest, closer, others, went, closes, divides, again, sound, rfl⟩ :=
      ih.dict _ _ _ _ _ inside ran
    have passes : cursor.Passes ((own ++ rest) ++ [closer]) after := by
      rw [List.append_assoc]
      exact moved.trans went
    have entry : SoundAll tokens [key, value] :=
      soundAll_cons soundKey (soundAll_cons taken.sound soundAll_nil)
    refine ⟨own ++ rest, closer, passes, closes, taken.spans.toClosed.append again.toClosed, rfl,
      sound_dict_parts (List.forall_mem_cons.mpr ⟨entry, sound⟩), ?_⟩
    intro fuel start read enough same
    rw [List.length_append] at enough
    rw [List.map_append, List.append_assoc]
    refine .bind (taken.reads (by omega)) (fun other sameValue => ?_) fun kind _ =>
      .inl (lead_closed went kind)
    have both : SameEntry ⟨some read, other⟩ ⟨some key, value⟩ := ⟨congrArg some same, sameValue⟩
    refine ifNotClause (fun kind _ => ?_) (readDict_finishes again closes both (by omega))
    rw [lead_closed went]
    exact divides.noClause

/-- What comes behind the first expression in braces. -/
def finishCurly (fuel start : Nat) (first : Expr) : Parse Expr := do
  if ← eat .colon then
    finishPair fuel start first
  else if ← atClause then
    finishClauses fuel .closeCurly start .set first none
  else
    finishElements fuel .closeCurly start .set first

/-- A set is read again behind its first element. -/
theorem finishCurly_retrace (ih : Retraces tokens fuel) :
    Finishes tokens .closeCurly finishCurly fuel := by
  intro start first cursor e after inside soundFirst ran
  rw [finishCurly] at ran
  obtain ⟨colon, second, mark, step, ran⟩ | ⟨single, ran⟩ := ran_ifEaten inside (by decide) ran
  · obtain ⟨rest, closer, went, closes, closed, span, parts, again⟩ :=
      finishPair_retrace ih _ _ _ _ _ (step.within inside) soundFirst ran
    refine ⟨colon :: rest, closer, step.trans went, closes, .cons (mark ▸ rfl) closed, span, parts,
      fun fuel start read enough same => .ifEaten mark ?_⟩
    rw [List.length_cons] at enough
    exact again fuel start read (by omega) same
  obtain ⟨found, ran⟩ | ⟨absent, ran⟩ := ran_ifClause ran
  · obtain ⟨rest, closer, clauses, went, closes, -, begins, again, sound, rfl⟩ :=
      ran_clauses ih rfl inside found ran
    refine ⟨rest, closer, went, closes, again.toClosed, rfl,
      sound_comprehension_parts soundFirst (fun _ member => by cases member) sound, ?_⟩
    intro fuel start read enough same
    refine .ifUneaten (fun kind _ => ?_) ?_
    · rwa [lead_closed went]
    exact ifBegins begins (finishClauses_spells again closes same rfl (by omega))
  · obtain ⟨rest, closer, others, went, closes, divides, -, again, sound, rfl⟩ :=
      ran_elements ih rfl inside ran
    refine ⟨rest, closer, went, closes, again.toClosed, rfl, soundAll_cons soundFirst sound, ?_⟩
    intro fuel start read enough same
    refine .ifUneaten (fun kind _ => ?_) (ifNotClause (fun kind _ => ?_)
      (finishElements_spells again closes same (by omega)))
    · rwa [lead_closed went]
    · rw [lead_closed went]
      exact divides.noClause

/-- A set or a mapping is read again. -/
theorem curly_retrace (ih : Retraces tokens fuel) :
    RetracesDisplay tokens .openCurly readCurly (fuel + 1) := by
  intro cursor e after inside here ran
  rw [readCurly] at ran
  obtain ⟨opener, second, opens, start, ran⟩ := ran_advance inside (here ▸ by decide) ran
  rw [here] at opens
  have starts : opener.kind.opening? = some .curly := opens ▸ rfl
  have reads : ∀ fuel, readOpening (fuel + 1) .curly = readCurly fuel := fun _ => by
    rw [readOpening]
  have inside' := start.within inside
  dsimp only at ran
  obtain ⟨closer, third, closes, step, ran⟩ | ⟨filled, ran⟩ := ran_ifEaten inside' (by decide) ran
  · cases ran
    have passes : cursor.Passes (opener :: ([] ++ [closer])) after := start.trans step
    refine retraces_display inside passes starts reads (opens ▸ rfl) (closes ▸ rfl) .nil rfl
      soundAll_nil fun fuel _ => ?_
    rw [readCurly]
    exact .step .advance fun _ _ => .ifEaten closes (.spanned fun _ => rfl)
  -- Behind `**` the braces hold a mapping; else the first expression leaves it open.
  obtain ⟨unpacks, ran⟩ | ⟨plain, ran⟩ := ran_ifKind ran
  · obtain ⟨first, third, read, ran⟩ := ran_bind ran
    obtain ⟨own, moved, nonempty, entry, soundEntry⟩ := ih.entry _ _ _ inside' read
    obtain ⟨rest, closer, others, went, closes, -, again, sound, rfl⟩ :=
      ih.dict _ _ _ _ _ (moved.within inside') ran
    have passes : cursor.Passes (opener :: ((own ++ rest) ++ [closer])) after := by
      rw [List.append_assoc]
      exact start.trans (moved.trans went)
    refine retraces_display inside passes starts reads (opens ▸ rfl) (closes ▸ rfl)
      (entry.toClosed.append again.toClosed) rfl
      (sound_dict_parts (List.forall_mem_cons.mpr ⟨soundEntry, sound⟩)) fun fuel enough => ?_
    rw [List.length_append] at enough
    rw [readCurly, List.map_append, List.append_assoc]
    refine .step .advance fun _ _ => ?_
    dsimp only
    refine .ifUneaten (fun kind _ => ?_) (.ifKind (fun kind _ => ?_) ?_)
    · rw [lead_append]
      exact entry.toClosed.lead_ne nonempty _ rfl
    · rw [lead_append, lead_of_passes moved nonempty, unpacks]
    refine .bind (entry.reads fuel (by omega)) (fun read same => ?_) fun kind _ =>
      .inl (lead_closed went kind)
    exact readDict_finishes again closes same (by omega)
  · obtain ⟨first, third, read, ran⟩ := ran_bind ran
    obtain ⟨own, moved, taken⟩ := ih.expr _ _ _ _ inside' read
    obtain ⟨rest, closer, went, closes, closed, span, parts, again⟩ :=
      finishCurly_retrace ih _ _ _ _ _ (moved.within inside') taken.sound ran
    have passes : cursor.Passes (opener :: ((own ++ rest) ++ [closer])) after := by
      rw [List.append_assoc]
      exact start.trans (moved.trans went)
    refine retraces_display inside passes starts reads (opens ▸ rfl) (closes ▸ rfl)
      (taken.spans.toClosed.append closed) span parts fun fuel enough => ?_
    rw [List.length_append] at enough
    rw [readCurly, List.map_append, List.append_assoc]
    refine .step .advance fun _ _ => ?_
    dsimp only
    refine .ifUneaten (fun kind _ => ?_) (.ifNotKind (fun kind _ => ?_) ?_)
    · rw [lead_append]
      exact taken.spans.toClosed.lead_ne taken.spans.ne_nil _ rfl
    · rwa [lead_append, lead_of_passes moved taken.spans.ne_nil]
    refine .bind (taken.reads (by omega)) (fun read same => ?_) fun kind _ =>
      .inl (lead_closed went kind)
    exact again fuel _ read (by omega) same

end Grammar

end DocSketch
