import DocSketch.Grammar.Expr

/-!
# What readers go past

A reader looks at the tokens ahead and goes past some of them.  The statements here say
which ones, for every cursor that stands before them: all that matters of what comes later
is the kind of the next token.

* `Parse.Reads`: a reader goes past given tokens, and its result is good.
* `Parse.Reads.bind`: readers one after the other.
* `Parse.Spells`: a reader goes past any tokens of given kinds and texts.
-/

namespace DocSketch

/-- Kind and text of a token, without its place. -/
abbrev Spelling := TokenKind × String

def Token.spelling (token : Token) : Spelling := (token.kind, token.value)

namespace Parse

variable {α β : Type}

/-- Kind of the first of the given kinds, or `next` if there is none. -/
def ahead (kinds : List TokenKind) (next : TokenKind) : TokenKind := kinds.headD next

/-- A cursor before the given tokens. -/
abbrev standing (file : String) (previous : Token) (tokens : List Token) (stop : Token) : Cursor :=
  ⟨file, false, previous, tokens, stop⟩

/-- Wherever `tokens` are ahead and the token after them is of a kind that `Next` allows, the
reader goes past exactly these tokens and gives a good result. -/
def Reads (reader : Parse α) (tokens : List Token) (Next : TokenKind → Prop) (Good : α → Prop) :
    Prop :=
  ∀ (file : String) (previous : Token) (more : List Token) (stop : Token),
    Next (more.headD stop).kind →
      ∃ value last, reader (standing file previous (tokens ++ more) stop) =
        .ok value (standing file last more stop) ∧ Good value

/-- Whatever tokens are ahead, a reader that only looks at them gives `value`. -/
def Looks (reader : Parse α) (tokens : List Token) (Next : TokenKind → Prop) (value : α) : Prop :=
  ∀ (file : String) (previous : Token) (more : List Token) (stop : Token),
    Next (more.headD stop).kind →
      reader (standing file previous (tokens ++ more) stop) =
        .ok value (standing file previous (tokens ++ more) stop)

section Reads

variable {reader : Parse α} {others : α → Parse β} {tokens later : List Token}
  {Next Middle : TokenKind → Prop} {Good Fine : α → Prop} {Fit : β → Prop}

/-- What is ahead of a cursor is the first of its tokens, or what follows them. -/
theorem kind_ahead (tokens more : List Token) (stop : Token) :
    ((tokens ++ more).headD stop).kind =
      ahead (tokens.map Token.kind) (more.headD stop).kind := by
  cases tokens <;> rfl

namespace Reads

theorem pure {value : α} (good : Good value) : Reads (pure value) [] Next Good :=
  fun _ previous _ _ _ => ⟨value, previous, rfl, good⟩

/-- One reader after the other, where the first one stops before what follows. -/
theorem bind (first : Reads reader tokens Middle Fine)
    (second : ∀ value, Fine value → Reads (others value) later Next Fit)
    (follows : ∀ kind, Next kind → Middle (ahead (later.map Token.kind) kind)) :
    Reads (reader >>= others) (tokens ++ later) Next Fit := by
  intro file previous more stop allowed
  have between : Middle ((later ++ more).headD stop).kind := by
    rw [kind_ahead]
    exact follows _ allowed
  obtain ⟨value, middle, read, fine⟩ := first file previous (later ++ more) stop between
  obtain ⟨result, last, finished, fit⟩ := second value fine file middle more stop allowed
  refine ⟨result, last, ?_, fit⟩
  rw [List.append_assoc]
  change EStateM.bind reader others _ = _
  rw [EStateM.bind, read]
  exact finished

/-- A reader that goes past one token, whatever follows. -/
theorem step {token : Token} (first : Reads reader [token] (fun _ => True) Fine)
    (second : ∀ value, Fine value → Reads (others value) later Next Fit) :
    Reads (reader >>= others) (token :: later) Next Fit :=
  first.bind second fun _ _ => trivial

/-- A reader that goes past nothing. -/
theorem look (first : Reads reader [] Middle Fine)
    (second : ∀ value, Fine value → Reads (others value) later Next Fit)
    (follows : ∀ kind, Next kind → Middle (ahead (later.map Token.kind) kind)) :
    Reads (reader >>= others) later Next Fit :=
  first.bind second follows

/-- A reader after which no token is left. -/
theorem last (first : Reads reader tokens Next Fine)
    (second : ∀ value, Fine value → Reads (others value) [] Next Fit) :
    Reads (reader >>= others) tokens Next Fit := by
  have both := first.bind second fun _ allowed => allowed
  rwa [List.append_nil] at both

/-- What only looks ahead leaves the tokens to the others. -/
theorem peek {value : α} (looks : Looks reader tokens Next value)
    (second : Reads (others value) tokens Next Fit) :
    Reads (reader >>= others) tokens Next Fit := by
  intro file previous more stop allowed
  change ∃ result last, EStateM.bind reader others _ = _ ∧ _
  rw [EStateM.bind, looks file previous more stop allowed]
  exact second file previous more stop allowed

theorem mono (reads : Reads reader tokens Middle Fine) (narrower : ∀ kind, Next kind → Middle kind)
    (weaker : ∀ value, Fine value → Good value) : Reads reader tokens Next Good := by
  intro file previous more stop allowed
  obtain ⟨value, last, read, fine⟩ := reads file previous more stop (narrower _ allowed)
  exact ⟨value, last, read, weaker value fine⟩

/-- The token that is gone past is the result. -/
theorem advance (token : Token) : Reads advance [token] Next (· = token) :=
  fun _ _ _ _ _ => ⟨token, token, rfl, rfl⟩

/-- A token that is asked for and is there. -/
theorem expectOr {token : Token} {expected : TokenKind} (here : token.kind = expected)
    (message : String) : Reads (expectOr expected message) [token] Next (· = token) := by
  intro file previous more stop _
  refine ⟨token, token, ?_, rfl⟩
  change (if token.kind = expected then Parse.advance else failHere message) _ = _
  rw [if_pos here]
  rfl

/-- A token that is looked for and is there. -/
theorem eat {token : Token} {expected : TokenKind} (here : token.kind = expected) :
    Reads (eat expected) [token] Next (· = true) := by
  intro file previous more stop _
  refine ⟨true, token, ?_, rfl⟩
  change (if token.kind = expected then _ else _ : Parse Bool) _ = _
  rw [if_pos here]
  rfl

/-- A token that is looked for and is not there. -/
theorem uneaten {expected : TokenKind} :
    Reads (Parse.eat expected) [] (· ≠ expected) (· = false) := by
  intro file previous more stop other
  refine ⟨false, previous, ?_, rfl⟩
  change (if (more.headD stop).kind = expected then _ else _ : Parse Bool) _ = _
  rw [if_neg other]
  rfl

/-- The kind ahead is that of what follows. -/
theorem kind : Reads kind [] Next Next :=
  fun _ previous _ _ allowed => ⟨_, previous, rfl, allowed⟩

theorem offset : Reads offset [] Next fun _ => True :=
  fun _ previous _ _ _ => ⟨_, previous, rfl, trivial⟩

theorem spanFrom (start : Nat) : Reads (spanFrom start) [] Next fun _ => True :=
  fun _ previous _ _ _ => ⟨_, previous, rfl, trivial⟩

/-- The cursor is one that stands before the tokens. -/
theorem get {use : Cursor → Parse β}
    (reads : ∀ (file : String) (previous : Token) (more : List Token) (stop : Token),
      Reads (use (standing file previous (tokens ++ more) stop)) tokens Next Fit) :
    Reads (MonadState.get >>= use) tokens Next Fit :=
  fun file previous more stop allowed =>
    reads file previous more stop file previous more stop allowed

/-- No token of the kind is ahead. -/
theorem untaken {expected : TokenKind} : Reads (takeAll expected) [] (· ≠ expected) (· = []) := by
  intro file previous more stop other
  cases more with
  | nil => exact ⟨[], previous, rfl, rfl⟩
  | cons token more =>
      have differs : (token.kind == expected) = false := beq_false_of_ne other
      refine ⟨[], previous, ?_, rfl⟩
      change EStateM.Result.ok _ _ = _
      simp only [List.nil_append, List.takeWhile_cons, List.dropWhile_cons, differs]
      rfl

end Reads

end Reads

/-- The reader goes past any tokens of the given kinds and texts, wherever they stand. -/
def Spells (reader : Parse α) (text : List Spelling) (Next : TokenKind → Prop) (Good : α → Prop) :
    Prop :=
  ∀ tokens : List Token, tokens.map Token.spelling = text → Reads reader tokens Next Good

/-- Kind of the first token of a text, or `next` if it has none. -/
def lead (text : List Spelling) (next : TokenKind) : TokenKind := ahead (text.map Prod.fst) next

@[simp]
theorem lead_nil (next : TokenKind) : lead [] next = next := rfl

@[simp]
theorem lead_cons (first : Spelling) (later : List Spelling) (next : TokenKind) :
    lead (first :: later) next = first.1 := rfl

@[simp]
theorem lead_append (text later : List Spelling) (next : TokenKind) :
    lead (text ++ later) next = lead text (lead later next) := by
  cases text <;> rfl

section Spells

variable {reader : Parse α} {others : α → Parse β} {yes no : Parse β} {first : Spelling}
  {text later : List Spelling} {Next Middle : TokenKind → Prop} {Good Fine : α → Prop}
  {Fit : β → Prop} {expected : TokenKind}

/-- Tokens have the kinds that their spellings say. -/
theorem kinds_of_spelling {tokens : List Token} (spelled : tokens.map Token.spelling = text) :
    tokens.map Token.kind = text.map Prod.fst := by
  rw [← spelled, List.map_map]
  rfl

/-- The kind ahead is the first one to peek at. -/
theorem peek_zero (cursor : Cursor) : cursor.peek 0 = cursor.kind := by
  obtain ⟨file, isBare, previous, rest, stop⟩ := cursor
  cases rest <;> rfl

namespace Spells

/-- A reader of one token reads every token of that spelling. -/
theorem of_reads
    (reads : ∀ token : Token, token.spelling = first → Reads reader [token] Next Good) :
    Spells reader [first] Next Good := by
  intro tokens spelled
  obtain ⟨token, rfl, here⟩ := List.map_eq_singleton_iff.mp spelled
  exact reads token here

/-- A reader that takes no token. -/
theorem of_reads_nil (reads : Reads reader [] Next Good) : Spells reader [] Next Good := by
  intro tokens spelled
  rwa [List.map_eq_nil_iff.mp spelled]

theorem pure {value : α} (good : Good value) : Spells (pure value) [] Next Good :=
  of_reads_nil (.pure good)

/-- One text after the other, where the first one may be followed by the second one. -/
theorem bind (front : Spells reader text Middle Fine)
    (second : ∀ value, Fine value → Spells (others value) later Next Fit)
    (follows : ∀ kind, Next kind → Middle (lead later kind)) :
    Spells (reader >>= others) (text ++ later) Next Fit := by
  intro tokens spelled
  obtain ⟨early, late, rfl, ours, theirs⟩ := List.map_eq_append_iff.mp spelled
  refine (front early ours).bind (fun value fine => second value fine late theirs) ?_
  rw [kinds_of_spelling theirs]
  exact follows

/-- A reader that goes past one token, whatever follows. -/
theorem step (front : Spells reader [first] (fun _ => True) Fine)
    (second : ∀ value, Fine value → Spells (others value) later Next Fit) :
    Spells (reader >>= others) (first :: later) Next Fit :=
  front.bind second fun _ _ => trivial

/-- A reader that goes past nothing. -/
theorem look (front : Spells reader [] Middle Fine)
    (second : ∀ value, Fine value → Spells (others value) text Next Fit)
    (follows : ∀ kind, Next kind → Middle (lead text kind)) :
    Spells (reader >>= others) text Next Fit :=
  front.bind second follows

/-- A reader after which no token is left. -/
theorem last (front : Spells reader text Next Fine)
    (second : ∀ value, Fine value → Spells (others value) [] Next Fit) :
    Spells (reader >>= others) text Next Fit := by
  have both := front.bind second fun _ allowed => allowed
  rwa [List.append_nil] at both

theorem mono (spells : Spells reader text Middle Fine) (narrower : ∀ kind, Next kind → Middle kind)
    (weaker : ∀ value, Fine value → Good value) : Spells reader text Next Good :=
  fun tokens spelled => (spells tokens spelled).mono narrower weaker

/-- The result has the spelling that is gone past. -/
theorem advance : Spells advance [first] Next (·.spelling = first) :=
  of_reads fun token here => (Reads.advance token).mono (fun _ allowed => allowed)
    fun _ same => same ▸ here

/-- A token of the kind that is asked for. -/
theorem expectOr (here : first.1 = expected) (message : String) :
    Spells (Parse.expectOr expected message) [first] Next (·.spelling = first) :=
  of_reads fun token spelled =>
    have kind : token.kind = expected := by
      rw [← here, ← spelled]
      rfl
    (Reads.expectOr kind message).mono (fun _ allowed => allowed) fun _ same => same ▸ spelled

/-- The same for a token that is asked for without a message of its own. -/
theorem expect (here : first.1 = expected) :
    Spells (Parse.expect expected) [first] Next (·.spelling = first) :=
  expectOr here _

/-- Where a reader starts makes no difference. -/
theorem located {others : Nat → Parse β} (spells : ∀ start, Spells (others start) text Next Fit) :
    Spells (offset >>= others) text Next Fit := by
  have anywhere : Spells offset [] (fun _ => True) (fun _ => True) := of_reads_nil .offset
  exact look anywhere (fun start _ => spells start) fun _ _ => trivial

/-- The place of what is read does not matter. -/
theorem placed {others : Span → Parse β} {start : Nat}
    (spells : ∀ span, Spells (others span) text Next Fit) :
    Spells (spanFrom start >>= others) text Next Fit := by
  have anywhere : Spells (spanFrom start) [] (fun _ => True) (fun _ => True) :=
    of_reads_nil (.spanFrom start)
  exact look anywhere (fun span _ => spells span) fun _ _ => trivial

/-- A result that only lacks its span. -/
theorem spanned {build : Span → α} {start : Nat} (good : ∀ span, Good (build span)) :
    Spells (spanFrom start >>= fun span => Pure.pure (build span)) [] Next Good :=
  placed fun span => .pure (good span)

/-- A token of the kind that is looked for. -/
theorem eat (here : first.1 = expected) : Spells (Parse.eat expected) [first] Next (· = true) := by
  refine of_reads fun token spelled => .eat ?_
  rw [← here, ← spelled]
  rfl

/-- No token of the kind that is looked for. -/
theorem uneaten : Spells (Parse.eat expected) [] (· ≠ expected) (· = false) := of_reads_nil .uneaten

/-- A decision on a token that is there. -/
theorem ifEaten (here : first.1 = expected) (spells : Spells yes later Next Fit) :
    Spells (Parse.eat expected >>= fun eaten => if eaten = true then yes else no) (first :: later)
      Next Fit := by
  refine step (eat here) fun eaten isTrue => ?_
  rwa [if_pos isTrue]

/-- A decision on a token that is not there. -/
theorem ifUneaten (other : ∀ kind, Next kind → lead text kind ≠ expected)
    (spells : Spells no text Next Fit) :
    Spells (Parse.eat expected >>= fun eaten => if eaten = true then yes else no) text Next
      Fit := by
  refine look uneaten (fun eaten isFalse => ?_) other
  rwa [isFalse, if_neg Bool.false_ne_true]

/-- A decision that the kind ahead decides. -/
theorem ifKind {test : TokenKind → Prop} [DecidablePred test]
    (holds : ∀ kind, Next kind → test (lead text kind)) (spells : Spells yes text Next Fit) :
    Spells (kind >>= fun kind => if test kind then yes else no) text Next Fit := by
  refine look (of_reads_nil .kind) (fun kind passes => ?_) holds
  rwa [if_pos passes]

/-- The same where the test fails. -/
theorem ifNotKind {test : TokenKind → Prop} [DecidablePred test]
    (fails : ∀ kind, Next kind → ¬test (lead text kind)) (spells : Spells no text Next Fit) :
    Spells (kind >>= fun kind => if test kind then yes else no) text Next Fit := by
  have reads : Spells Parse.kind [] (¬test ·) (¬test ·) := of_reads_nil .kind
  refine look reads (fun kind refuses => ?_) fails
  rwa [if_neg refuses]

/-- The cursor that a reader looks at has the tokens ahead. -/
theorem get {use : Cursor → Parse β}
    (spells : ∀ cursor : Cursor,
      (∀ (n : Nat) (here : Spelling), text[n]? = some here → cursor.peek n = here.1) →
        Spells (use cursor) text Next Fit) :
    Spells (MonadState.get >>= use) text Next Fit := by
  intro tokens spelled
  refine .get fun file previous more stop => spells _ (fun n here found => ?_) tokens spelled
  rw [← spelled, List.getElem?_map, Option.map_eq_some_iff] at found
  obtain ⟨token, found, rfl⟩ := found
  have inside : (tokens ++ more)[n]? = some token := by
    rw [List.getElem?_append_left (List.getElem?_eq_some_iff.mp found).1, found]
  rw [Cursor.peek, List.getD_eq_getElem?_getD, inside]
  rfl

end Spells

end Spells

end Parse

namespace Grammar

open Parse

variable {α : Type} {tokens : List Token} {Next : TokenKind → Prop} {Good : Expr → Prop}
  {fuel : Nat} {level : Power} {left : Expr}

/-- A token of this kind does not go on with an expression whose operators bind tighter than
`level`. -/
def Stops (level : Power) (kind : TokenKind) : Prop :=
  ∀ own form, kind.joining? = some (own, form) → own ≤ level

/-- What looks at the cursor is run with it. -/
theorem get_bind {use : Cursor → Parse α} (cursor : Cursor) :
    (get >>= use) cursor = use cursor cursor := rfl

/-- An expression is its start and what that is joined to. -/
theorem readExpr_reads {form : Opening}
    (opens : ∀ kind, Next kind → (ahead (tokens.map Token.kind) kind).opening? = some form)
    (reads : Reads (readOpening fuel form >>= readJoins fuel level) tokens Next Good) :
    Reads (readExpr (fuel + 1) level) tokens Next Good := by
  intro file previous more stop allowed
  have here : (standing file previous (tokens ++ more) stop).opening? = some form := by
    rw [← opens _ allowed, ← kind_ahead]
    rfl
  rw [readExpr]
  simp only [get_bind, here]
  exact reads file previous more stop allowed

/-- Nothing is joined where the level stops. -/
theorem readJoins_stops : Reads (readJoins (fuel + 1) level left) [] (Stops level) (· = left) := by
  intro file previous more stop allowed
  refine ⟨left, previous, ?_, rfl⟩
  rw [readJoins, get_bind, List.nil_append]
  cases joins : (standing file previous more stop).joining? with
  | none => rfl
  | some entry =>
      obtain ⟨own, form⟩ := entry
      dsimp only
      rw [if_pos (allowed own form joins)]
      rfl

/-- An operator that binds tighter is joined, and then what follows it. -/
theorem readJoins_joins {own : Power} {form : Joining}
    (joins : ∀ kind, Next kind →
      (ahead (tokens.map Token.kind) kind).joining? = some (own, form))
    (tighter : level < own)
    (reads : Reads (readJoining fuel form own left >>= readJoins fuel level) tokens Next Good) :
    Reads (readJoins (fuel + 1) level left) tokens Next Good := by
  intro file previous more stop allowed
  have here : (standing file previous (tokens ++ more) stop).joining? = some (own, form) := by
    rw [← joins _ allowed, ← kind_ahead]
    rfl
  have tight : ¬own ≤ level := Nat.not_le.mpr tighter
  rw [readJoins]
  simp only [get_bind, here, if_neg tight]
  exact reads file previous more stop allowed

/-- Expressions are read with as many steps as the cursor has to spend. -/
theorem expr_eq (level : Power) (cursor : Cursor) :
    Parse.expr level cursor = readExpr cursor.budget level cursor := by
  rw [Parse.expr, get_bind]

/-- An expression is read within the bound that the tokens ahead give. -/
theorem expr_of_reads {cursor : Cursor} {more : List Token} (full : cursor.isBare = false)
    (here : cursor.rest = tokens ++ more) (allowed : Next (more.headD cursor.stop).kind)
    (reads : ∀ fuel, 16 * (tokens.length + 1) ≤ fuel →
      Reads (readExpr fuel level) tokens Next Good) :
    ∃ value last, Parse.expr level cursor = .ok value last ∧ last.rest = more ∧ Good value := by
  obtain ⟨file, isBare, previous, rest, stop⟩ := cursor
  subst full here
  have enough : 16 * (tokens.length + 1) ≤
      (standing file previous (tokens ++ more) stop).budget := by
    rw [Cursor.budget, List.length_append]
    omega
  rw [expr_eq]
  generalize (standing file previous (tokens ++ more) stop).budget = fuel at enough ⊢
  obtain ⟨value, last, read, good⟩ := reads fuel enough file previous more stop allowed
  exact ⟨value, standing file last more stop, read, rfl, good⟩

end Grammar

end DocSketch
