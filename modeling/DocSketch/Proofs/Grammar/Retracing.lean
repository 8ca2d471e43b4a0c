import DocSketch.Proofs.Grammar.Extents
import DocSketch.Proofs.Grammar.RoundTrip
import DocSketch.Proofs.Tree.Nodes

/-!
# Reading the same tokens again

A reader that has gone past some tokens goes past tokens of the same spelling again, and what
it reads then is the same up to places.  What follows the tokens may be the same token as
before, or a closing parenthesis.

* `Grammar.Meets`: the tokens that may follow.
* `Grammar.Operand`: an expression that is read again in front of whatever joins it.
* `Grammar.Restored`: a node whose tokens, in parentheses, are read as that node.
-/

namespace DocSketch

namespace Expr

/-- Whether an expression is a slice or a tuple that holds one; such expressions can only
stand between the brackets of a subscript. -/
def isSliced : Expr → Bool
  | slice .. => true
  | sequence _ .tuple elements => elements.any isSlice
  | _ => false

/-- A property of an expression and of all expressions inside it. -/
inductive Everywhere (P : Expr → Prop) : Expr → Prop
  | intro {e : Expr} (here : P e) (inside : ∀ part ∈ e.parts, Everywhere P part) : Everywhere P e

end Expr

namespace Grammar

open Parse Token Lexeme

variable {tokens passed early late : List Token} {level looser : Power} {next kind : TokenKind}
  {e left : Expr} {cursor after : Cursor}

/-- Where `next` followed a run, a token of this kind may follow when the same tokens are read
again. -/
def Meets (next kind : TokenKind) : Prop := kind = next ∨ kind = .closeParen

theorem Meets.refl (next : TokenKind) : Meets next next := .inl rfl

/-- A closing parenthesis may always follow. -/
theorem Meets.closed (next : TokenKind) : Meets next .closeParen := .inr rfl

/-- What may follow tokens may follow nothing in their place. -/
theorem Meets.ahead (meets : Meets next kind) (passed : List Token) :
    Meets (lead (passed.map Token.spelling) next) (lead (passed.map Token.spelling) kind) := by
  cases passed with
  | nil => exact meets
  | cons token passed => exact .refl _

/-- Every level stops at a closing parenthesis. -/
theorem stops_closeParen (level : Power) : Stops level .closeParen := .of_none rfl

/-- A level stops again where it stopped before. -/
theorem Meets.stops (meets : Meets next kind) (stops : Stops level next) : Stops level kind := by
  rcases meets with rfl | rfl
  · exact stops
  · exact stops_closeParen level

/-- A kind that did not follow does not follow again. -/
theorem Meets.ne (meets : Meets next kind) {other : TokenKind} (differs : next ≠ other)
    (unclosed : .closeParen ≠ other) : kind ≠ other := by
  rcases meets with rfl | rfl
  · exact differs
  · exact unclosed

/-- What may follow tokens may also follow what stands before them. -/
theorem Meets.of_passes (passes : cursor.Passes passed after) (meets : Meets after.kind kind) :
    Meets cursor.kind (lead (passed.map Token.spelling) kind) := by
  rw [← passes.lead]
  exact meets.ahead passed

/-- Tokens are led by the first one, whatever follows. -/
theorem lead_of_ne_nil (nonempty : passed ≠ []) (one other : TokenKind) :
    lead (passed.map Token.spelling) one = lead (passed.map Token.spelling) other := by
  cases passed with
  | nil => exact absurd rfl nonempty
  | cons => rfl

/-- Tokens that are gone past are led by what was ahead. -/
theorem lead_of_passes (passes : cursor.Passes passed after) (nonempty : passed ≠ [])
    (kind : TokenKind) : lead (passed.map Token.spelling) kind = cursor.kind := by
  rw [lead_of_ne_nil nonempty kind after.kind, passes.lead]

/-- Tokens with balanced brackets that are read, in parentheses, as a node. -/
structure Regroups (inner : List Token) (e : Expr) : Prop where
  balanced : Token.Balanced inner
  reads : ∀ fuel, 8 * inner.length + 16 ≤ fuel →
    Spells (readGroup fuel) (grouped (inner.map Token.spelling)) (fun _ => True)
      (·.unspanned = e.unspanned)

/-- A node whose tokens, in parentheses, are read as that node, unless it starts or stops with
an operand in parentheses. -/
def Restored (tokens : List Token) (e : Expr) : Prop :=
  e.isSliced = false →
    ∃ front inner back, tokens = front ++ (inner ++ back) ∧ Outlines e.span inner ∧
      (∀ token ∈ inner, isLayoutKind token.kind = false) ∧
      (¬LosesOpening tokens e → ¬LosesClosing tokens e → Regroups inner e)

/-- All nodes of an expression are restored. -/
abbrev Sound (tokens : List Token) (e : Expr) : Prop := e.Everywhere (Restored tokens)

/-- Where the tokens of an expression are read again, it is the left operand of whatever
follows. -/
def Leads (level : Power) (passed : List Token) (next : TokenKind) (e : Expr) : Prop :=
  ∀ (fuel : Nat) (text : List Spelling) (Next : TokenKind → Prop) (Good : Expr → Prop),
    8 * passed.length ≤ fuel → (∀ kind, Next kind → Meets next (lead text kind)) →
    (∀ less again, fuel ≤ less + passed.length → again.unspanned = e.unspanned →
      Spells (readJoins less level again) text Next Good) →
    Spells (readExpr fuel level) (passed.map Token.spelling ++ text) Next Good

/-- An expression that has been read from the given tokens, where `next` follows. -/
structure Operand (level : Power) (passed : List Token) (next : TokenKind) (e : Expr) : Prop where
  spans : Spans passed e
  leads : ∀ looser, looser ≤ level → Leads looser passed next e

/-- An expression that has been read to its end. -/
structure Taken (tokens : List Token) (level : Power) (passed : List Token) (next : TokenKind)
    (e : Expr) : Prop extends Operand level passed next e where
  stops : Stops level next
  sound : Sound tokens e

/-- An operand is read at every looser level. -/
theorem Operand.reads (operand : Operand level passed next e) (loose : looser ≤ level) {fuel : Nat}
    (enough : 8 * passed.length ≤ fuel) :
    Spells (readExpr fuel looser) (passed.map Token.spelling)
      (fun kind => Meets next kind ∧ Stops looser kind) (·.unspanned = e.unspanned) := by
  have long : 0 < passed.length := List.length_pos_iff.mpr operand.spans.ne_nil
  rw [← List.append_nil (passed.map Token.spelling)]
  refine operand.leads looser loose fuel [] _ _ enough (fun _ allowed => allowed.1) ?_
  exact fun less again bound same => readJoins_ends (by omega) same fun _ allowed => allowed.2

/-- The same level, and what followed before or a closing parenthesis. -/
theorem Taken.reads (taken : Taken tokens level passed next e) {fuel : Nat}
    (enough : 8 * passed.length ≤ fuel) :
    Spells (readExpr fuel level) (passed.map Token.spelling) (Meets next)
      (·.unspanned = e.unspanned) :=
  (taken.toOperand.reads (Nat.le_refl _) enough).mono
    (fun _ meets => ⟨meets, meets.stops taken.stops⟩) fun _ same => same

/-- What an expression starts with is an operand at every level. -/
theorem Operand.ofOpening {form : Opening} {token : Token} (spans : Spans (token :: passed) e)
    (opens : token.kind.opening? = some form)
    (again : ∀ fuel, 8 * (token :: passed).length ≤ fuel + 1 →
      Spells (readOpening fuel form) ((token :: passed).map Token.spelling) (Meets next)
        (·.unspanned = e.unspanned)) :
    Operand level (token :: passed) next e := by
  refine ⟨spans, fun looser _ fuel text Next Good enough follows goesOn => ?_⟩
  rw [List.length_cons] at enough goesOn
  obtain ⟨fuel, rfl⟩ : ∃ less, fuel = less + 1 := ⟨fuel - 1, by omega⟩
  refine readExpr_spells opens ?_
  refine .bind (again fuel (by rw [List.length_cons]; omega)) (fun read same => ?_) follows
  exact goesOn fuel read (by omega) same

/-- The same from the run that went past it. -/
theorem Operand.ofPasses {form : Opening} (spans : Spans passed e)
    (passes : cursor.Passes passed after) (opens : cursor.kind.opening? = some form)
    (again : ∀ fuel, 8 * passed.length ≤ fuel + 1 →
      Spells (readOpening fuel form) (passed.map Token.spelling) (Meets next)
        (·.unspanned = e.unspanned)) :
    Operand level passed next e := by
  have nonempty := spans.ne_nil
  cases passed with
  | nil => exact absurd rfl nonempty
  | cons token passed =>
      rw [passes.kind_eq] at opens
      exact .ofOpening spans opens again

/-- What joins an operand to others makes a new operand. -/
theorem Operand.joined {own : Power} {form : Joining} {token : Token}
    (operand : Operand level early token.kind left) (spans : Spans (early ++ token :: late) e)
    (joins : token.kind.joining? = some (own, form)) (tighter : level < own)
    (again : ∀ fuel read, 8 * (token :: late).length ≤ fuel + 1 →
      read.unspanned = left.unspanned →
      Spells (readJoining fuel form own read) ((token :: late).map Token.spelling) (Meets next)
        (·.unspanned = e.unspanned)) :
    Operand level (early ++ token :: late) next e := by
  refine ⟨spans, fun looser loose fuel text Next Good enough follows goesOn => ?_⟩
  rw [List.length_append, List.length_cons] at enough goesOn
  rw [List.map_append, List.append_assoc]
  refine operand.leads looser loose fuel _ Next Good (by omega) (fun _ _ => .refl _) ?_
  intro less read bound same
  obtain ⟨less, rfl⟩ : ∃ fewer, less = fewer + 1 := ⟨less - 1, by omega⟩
  refine readJoins_spells joins (Nat.lt_of_le_of_lt loose tighter) ?_
  refine .bind (again less read (by rw [List.length_cons]; omega) same) (fun joined same => ?_)
    follows
  exact goesOn less joined (by omega) same

/-- Whole expressions do not start with a closing bracket. -/
theorem Closed.lead_ne (closed : Closed passed) (nonempty : passed ≠ []) (next : TokenKind)
    (closes : kind.isClosing = true) : lead (passed.map Token.spelling) next ≠ kind := by
  cases passed with
  | nil => exact absurd rfl nonempty
  | cons token passed =>
      rintro rfl
      have balanced := closed.balanced
      rw [Token.Balanced, depth?] at balanced
      change token.kind.isClosing = true at closes
      cases kind : token.kind <;> rw [kind] at closes balanced <;> cases closes <;> cases balanced

/-- An expression in parentheses is read as such. -/
theorem Operand.enclosed (operand : Operand level passed next e) {opening closing : Spelling}
    (closes : closing.1 = .closeParen) {fuel : Nat} (enough : 8 * passed.length < fuel) :
    Spells (readGroup fuel) (opening :: (passed.map Token.spelling ++ [closing])) (fun _ => True)
      (·.unspanned = e.unspanned) := by
  obtain ⟨fuel, rfl⟩ : ∃ less, fuel = less + 1 := ⟨fuel - 1, by omega⟩
  rw [readGroup]
  refine .step .advance fun _ _ => ?_
  dsimp only
  refine .ifUneaten (fun kind _ => ?_) ?_
  · rw [lead_append]
    exact operand.spans.toClosed.lead_ne operand.spans.ne_nil _ rfl
  refine .bind (operand.reads (Nat.zero_le _) (by omega)) (fun read same => ?_) fun _ _ => ?_
  · refine ifNotClause (fun _ _ => by simp [closes]) (.ifNotKind (fun _ _ => by simp [closes]) ?_)
    exact .step (.expect closes) fun _ _ => .pure same
  · rw [lead_cons, closes]
    exact ⟨.closed next, stops_closeParen _⟩

/-- In parentheses, an operand is read as it is. -/
theorem Operand.regroups (operand : Operand level passed next e) {fuel : Nat}
    (enough : 8 * passed.length + 16 ≤ fuel) :
    Spells (readGroup fuel) (grouped (passed.map Token.spelling)) (fun _ => True)
      (·.unspanned = e.unspanned) :=
  operand.enclosed rfl (by omega)

/-- A new node is restored if its tokens are read again in parentheses. -/
theorem Owns.restored (owns : Owns passed e) (inside : cursor.Within tokens)
    (passes : cursor.Passes passed after)
    (regroups : e.isSliced = false → ∀ fuel, 8 * passed.length + 16 ≤ fuel →
      Spells (readGroup fuel) (grouped (passed.map Token.spelling)) (fun _ => True)
        (·.unspanned = e.unspanned)) :
    Restored tokens e := by
  intro unsliced
  obtain ⟨front, split⟩ := inside.suffix
  rw [passes.rest] at split
  obtain ⟨opening, inner, closing, cut, outlines, first, last⟩ := owns.cut
  refine ⟨front ++ opening, inner, closing ++ after.rest, ?_, outlines, fun token member => ?_,
    fun opened closed => ?_⟩
  · rw [split, cut.whole]
    simp only [List.append_assoc]
  · refine owns.plain token ?_
    rw [cut.whole]
    exact List.mem_append_right _ (List.mem_append_left _ member)
  · have noOpening : opening = [] := by
      by_contra some
      exact opened (split ▸ (first some).within front after.rest)
    have noClosing : closing = [] := by
      by_contra some
      exact closed (split ▸ (last some).within front after.rest)
    have same : passed = inner := by
      rw [cut.whole, noOpening, noClosing, List.nil_append, List.append_nil]
    exact same ▸ ⟨owns.balanced, regroups unsliced⟩

/-- A new node that is an operand is sound if its parts are. -/
theorem Operand.sound (operand : Operand level passed next e) (owns : Owns passed e)
    (inside : cursor.Within tokens) (passes : cursor.Passes passed after)
    (parts : ∀ part ∈ e.parts, Sound tokens part) : Sound tokens e :=
  .intro (owns.restored inside passes fun _ _ enough => operand.regroups enough) parts

/-- A new node at the start of an expression is sound if its parts are. -/
theorem sound_of_opening {form : Opening} (owns : Owns passed e) (inside : cursor.Within tokens)
    (passes : cursor.Passes passed after) (opens : cursor.kind.opening? = some form)
    (again : ∀ fuel, 8 * passed.length ≤ fuel + 1 →
      Spells (readOpening fuel form) (passed.map Token.spelling) (Meets after.kind)
        (·.unspanned = e.unspanned))
    (parts : ∀ part ∈ e.parts, Sound tokens part) : Sound tokens e :=
  have operand : Operand .default passed after.kind e := .ofPasses owns.spans passes opens again
  operand.sound owns inside passes parts

/-- Every run of the reader goes past tokens of which the statement holds, with the kind of
the token that follows them and the result. -/
def Runs {α : Type} (tokens : List Token) (reader : Parse α)
    (Post : List Token → TokenKind → α → Prop) : Prop :=
  ∀ cursor value after, cursor.Within tokens → reader cursor = .ok value after →
    ∃ passed, cursor.Passes passed after ∧ Post passed after.kind value

/-- Tokens of whole expressions from which a reader gets a good result again, with enough
steps and before tokens of the given kinds. -/
structure Again {α : Type} (passed : List Token) (slack : Nat) (Next : TokenKind → Prop)
    (reader : Nat → Parse α) (Good : α → Prop) : Prop extends Closed passed where
  reads : ∀ fuel, 8 * passed.length + slack ≤ fuel →
    Spells (reader fuel) (passed.map Token.spelling) Next Good

theorem Again.mono {α : Type} {slack : Nat} {Next Other : TokenKind → Prop} {reader : Nat → Parse α}
    {Good : α → Prop} (again : Again passed slack Next reader Good)
    (narrower : ∀ kind, Other kind → Next kind) : Again passed slack Other reader Good :=
  ⟨again.toClosed, fun fuel enough =>
    (again.reads fuel enough).mono narrower fun _ good => good⟩

/-- A reader needs at least one step. -/
theorem Again.step {α : Type} {slack : Nat} {Next : TokenKind → Prop} {reader : Nat → Parse α}
    {Good : α → Prop} (closed : Closed passed)
    (reads : ∀ fuel, 8 * passed.length + slack ≤ fuel →
      Spells (reader (fuel + 1)) (passed.map Token.spelling) Next Good) :
    Again passed (slack + 1) Next reader Good where
  toClosed := closed
  reads fuel enough := by
    obtain ⟨fuel, rfl⟩ : ∃ less, fuel = less + 1 := ⟨fuel - 1, by omega⟩
    exact reads fuel (Nat.le_of_succ_le_succ enough)

/-- The nodes of all expressions of a list are restored. -/
abbrev SoundAll (tokens : List Token) (es : List Expr) : Prop := ∀ e ∈ es, Sound tokens e

theorem soundAll_nil : SoundAll tokens [] := fun _ member => by cases member

theorem soundAll_cons {es : List Expr} (first : Sound tokens e) (others : SoundAll tokens es) :
    SoundAll tokens (e :: es) :=
  List.forall_mem_cons.mpr ⟨first, others⟩

/-- The nodes of the clauses of a comprehension are restored. -/
abbrev SoundClauses (tokens : List Token) (clauses : List (Clause Expr)) : Prop :=
  ∀ clause ∈ clauses, SoundAll tokens (clause.target :: clause.iter :: clause.conditions)

abbrev SoundEntries (tokens : List Token) (entries : List (Entry Expr)) : Prop :=
  ∀ entry ∈ entries, SoundAll tokens (entry.key.toList ++ [entry.value])

abbrev SoundParameters (tokens : List Token) (parameters : List (Parameter Expr)) : Prop :=
  ∀ parameter ∈ parameters, SoundAll tokens parameter.expressions

/-- A clause starts at the first of the tokens. -/
inductive BeginsClause : List Token → Prop
  | plain {token : Token} {others : List Token} (here : token.kind = .forKw) :
      BeginsClause (token :: others)
  | async {token second : Token} {others : List Token} (here : token.kind = .asyncKw)
      (after : second.kind = .forKw) : BeginsClause (token :: second :: others)

/-- A cursor before the start of a clause. -/
def AtClause (cursor : Cursor) : Prop :=
  cursor.kind = .forKw ∨ cursor.kind = .asyncKw ∧ cursor.peek 1 = .forKw

/-- Entries of a mapping that are the same up to places. -/
structure SameEntry (entry other : Entry Expr) : Prop where
  key : Expr.unspannedOption entry.key = Expr.unspannedOption other.key
  value : entry.value.unspanned = other.value.unspanned

/-- What an expression starts with is read again from the tokens gone past. -/
def RetracesOpening (tokens : List Token) (form : Opening) (cursor : Cursor) (e : Expr)
    (after : Cursor) : Prop :=
  ∃ passed, cursor.Passes passed after ∧ Spans passed e ∧ Sound tokens e ∧
    ∀ fuel, 8 * passed.length ≤ fuel + 1 →
      Spells (readOpening fuel form) (passed.map Token.spelling) (Meets after.kind)
        (·.unspanned = e.unspanned)

/-- What joins `left`, which stands in the tokens `early`, to others is read again. -/
def RetracesJoining (tokens : List Token) (form : Joining) (own : Power) (left : Expr)
    (early : List Token) (cursor : Cursor) (e : Expr) (after : Cursor) : Prop :=
  ∃ token late, cursor.Passes (token :: late) after ∧ Owns (early ++ token :: late) e ∧
    SoundAll tokens e.parts ∧
    ∀ fuel read, 8 * (token :: late).length ≤ fuel + 1 → read.unspanned = left.unspanned →
      Spells (readJoining fuel form own read) ((token :: late).map Token.spelling)
        (Meets after.kind) (·.unspanned = e.unspanned)

/-- A display in brackets of its own is read again, whatever follows. -/
def RetracesDisplay (tokens : List Token) (opening : TokenKind) (reader : Nat → Parse Expr)
    (fuel : Nat) : Prop :=
  ∀ cursor e after, cursor.Within tokens → cursor.kind = opening →
    reader fuel cursor = .ok e after →
    ∃ passed, cursor.Passes passed after ∧ Spans passed e ∧ Sound tokens e ∧
      ∀ fuel, 8 * passed.length ≤ fuel + 2 →
        Spells (reader fuel) (passed.map Token.spelling) (fun _ => True)
          (·.unspanned = e.unspanned)

/-- The arguments of a call with the parenthesis behind them are read again, whatever
follows. -/
def RetracesArguments (tokens : List Token)
    (reader : Nat → Parse (List Expr × List (Keyword Expr))) (fuel : Nat) : Prop :=
  ∀ cursor found after, cursor.Within tokens → reader fuel cursor = .ok found after →
    ∃ inner closer, cursor.Passes (inner ++ [closer]) after ∧ closer.kind = .closeParen ∧
      Closed inner ∧ SoundAll tokens (found.1 ++ found.2.map Keyword.value) ∧
      ∀ fuel, 8 * inner.length + 8 ≤ fuel →
        Spells (reader fuel) (inner.map Token.spelling ++ [closer.spelling]) (fun _ => True)
          fun again => Expr.unspannedAll again.1 = Expr.unspannedAll found.1 ∧
            Expr.unspannedKeywords again.2 = Expr.unspannedKeywords found.2

/-- All readers of expressions, with a bound on how deeply they call each other: what they
read is read again from the same tokens. -/
structure Retraces (tokens : List Token) (fuel : Nat) : Prop where
  expr : ∀ level, Runs tokens (readExpr fuel level) (Taken tokens level)
  joins : ∀ (level : Power) (left : Expr) (start : Cursor) (early : List Token) (cursor : Cursor)
    (e : Expr) (after : Cursor), start.Within tokens → start.Passes early cursor →
    Operand level early cursor.kind left → Sound tokens left →
    readJoins fuel level left cursor = .ok e after →
    ∃ passed, start.Passes passed after ∧ Taken tokens level passed after.kind e
  opening : ∀ (form : Opening) (cursor : Cursor) (e : Expr) (after : Cursor),
    cursor.Within tokens → cursor.kind.opening? = some form →
    readOpening fuel form cursor = .ok e after → RetracesOpening tokens form cursor e after
  joining : ∀ (form : Joining) (own : Power) (left : Expr) (early : List Token) (cursor : Cursor)
    (e : Expr) (after : Cursor), cursor.Within tokens →
    cursor.kind.joining? = some (own, form) → Spans early left → Sound tokens left →
    readJoining fuel form own left cursor = .ok e after →
    RetracesJoining tokens form own left early cursor e after
  tuple : ∀ level, Runs tokens (readTuple fuel level) fun passed next e =>
    passed ≠ [] ∧ Again passed 4 (Meets next) (readTuple · level) (·.unspanned = e.unspanned) ∧
      Sound tokens e
  tupleRest : ∀ level, Runs tokens (readTupleRest fuel level) fun passed next es =>
    ((∀ kind, lead (passed.map Token.spelling) kind = .comma) ∨ passed = [] ∧ next ≠ .comma) ∧
      Again passed 4 (Meets next) (readTupleRest · level)
        (Expr.unspannedAll · = Expr.unspannedAll es) ∧
      Again passed 4 (· = .closeParen) (readElements · .closeParen)
        (Expr.unspannedAll · = Expr.unspannedAll es) ∧
      SoundAll tokens es
  clauses : ∀ (cursor : Cursor) (cs : List (Clause Expr)) (after : Cursor),
    cursor.Within tokens → readClauses fuel cursor = .ok cs after →
    ∃ passed, cursor.Passes passed after ∧ (AtClause cursor → BeginsClause passed) ∧
      Again passed 4 (fun kind => Meets after.kind kind ∧ kind ≠ .asyncKw) readClauses
        (Expr.unspannedClauses · = Expr.unspannedClauses cs) ∧
      SoundClauses tokens cs
  conditions : Runs tokens (readConditions fuel) fun passed next es =>
    Again passed 4 (Meets next) readConditions (Expr.unspannedAll · = Expr.unspannedAll es) ∧
      SoundAll tokens es
  elements : ∀ closing : TokenKind, closing.isClosing = true →
    Runs tokens (readElements fuel closing) fun passed next es => next = closing →
      Divides (lead (passed.map Token.spelling) next) ∧
        Again passed 4 (· = closing) (readElements · closing)
          (Expr.unspannedAll · = Expr.unspannedAll es) ∧
        SoundAll tokens es
  group : RetracesDisplay tokens .openParen readGroup fuel
  list : RetracesDisplay tokens .openBracket readListDisplay fuel
  curly : RetracesDisplay tokens .openCurly readCurly fuel
  dict : ∀ (start : Nat) (first : Entry Expr) (cursor : Cursor) (e : Expr) (after : Cursor),
    cursor.Within tokens → readDict fuel start first cursor = .ok e after →
    ∃ inner closer others, cursor.Passes (inner ++ [closer]) after ∧ closer.kind = .closeCurly ∧
      Divides cursor.kind ∧
      Again inner 4 (· = .closeCurly) readEntries
        (Expr.unspannedEntries · = Expr.unspannedEntries others) ∧
      SoundEntries tokens others ∧ e = .dict (after.spanFrom start) (first :: others)
  entry : Runs tokens (readEntry fuel) fun passed next entry =>
    passed ≠ [] ∧ Again passed 4 (Meets next) readEntry (SameEntry · entry) ∧
      SoundAll tokens (entry.key.toList ++ [entry.value])
  entries : Runs tokens (readEntries fuel) fun passed next entries => next = .closeCurly →
    Divides (lead (passed.map Token.spelling) next) ∧
      Again passed 4 (· = .closeCurly) readEntries
        (Expr.unspannedEntries · = Expr.unspannedEntries entries) ∧
      SoundEntries tokens entries
  arguments : RetracesArguments tokens readArguments fuel
  moreArguments : RetracesArguments tokens readMoreArguments fuel
  argument : Runs tokens (readArgument fuel) fun passed next e =>
    passed ≠ [] ∧
      Again passed 4 (fun kind => Meets next kind ∧ kind ≠ .asyncKw) readArgument
        (·.unspanned = e.unspanned) ∧
      Sound tokens e
  sliceItem : Runs tokens (readSliceItem fuel) fun passed next e =>
    passed ≠ [] ∧ Again passed 4 (· = next) readSliceItem (·.unspanned = e.unspanned) ∧
      Sound tokens e ∧ (e.isSlice = false → Taken tokens .default passed next e)
  slice : ∀ (start : Nat) (lower : Option Expr) (cursor : Cursor) (e : Expr) (after : Cursor),
    cursor.Within tokens → cursor.kind = .colon → SoundAll tokens lower.toList →
    readSlice fuel start lower cursor = .ok e after →
    ∃ passed, cursor.Passes passed after ∧ passed ≠ [] ∧ Closed passed ∧ e.isSlice = true ∧
      SoundAll tokens e.parts ∧
      ∀ fuel start again, 8 * passed.length ≤ fuel →
        Expr.unspannedOption again = Expr.unspannedOption lower →
        Spells (readSlice fuel start again) (passed.map Token.spelling) (· = after.kind)
          (·.unspanned = e.unspanned)
  slicePart : Runs tokens (readSlicePart fuel) fun passed next part =>
    Again passed 4 (· = next) readSlicePart
        (Expr.unspannedOption · = Expr.unspannedOption part) ∧
      SoundAll tokens part.toList
  sliceItems : Runs tokens (readSliceItems fuel) fun passed next es => next = .closeBracket →
    Again passed 4 (· = .closeBracket) readSliceItems
        (Expr.unspannedAll · = Expr.unspannedAll es) ∧
      SoundAll tokens es ∧
      (es.any Expr.isSlice = false →
        Again passed 4 (· = .closeParen) (readElements · .closeParen)
          (Expr.unspannedAll · = Expr.unspannedAll es))
  parameters : ∀ closing usual, Runs tokens (readParameters fuel closing usual)
    fun passed next parameters =>
      Again passed 4 (· = next) (readParameters · closing usual)
          (Expr.unspannedParameters · = Expr.unspannedParameters parameters) ∧
        SoundParameters tokens parameters
  parameter : ∀ closing start own usual, Runs tokens (readParameter fuel closing start own usual)
    fun passed next parameters => passed ≠ [] ∧
      (∀ start, Again passed 0 (· = next) (readParameter · closing start own usual)
          (Expr.unspannedParameters · = Expr.unspannedParameters parameters)) ∧
        SoundParameters tokens parameters
  optional : ∀ mark : TokenKind, mark.isPlain = true → Runs tokens (readOptional fuel mark)
    fun passed next part =>
      Again passed 4 (· = next) (readOptional · mark)
          (Expr.unspannedOption · = Expr.unspannedOption part) ∧
        SoundAll tokens part.toList

end Grammar

end DocSketch
