import DocSketch.Proofs.Grammar.Arguments
import Mathlib.Data.List.TakeDrop

/-!
# Written expressions are read back

Reading undoes writing for every expression that can be written, if the token behind it is
not taken as a part of it.

* `Grammar.recovered_of_written`: one case for each kind of expression.
* `Grammar.expr_recovers`: the statement about a whole expression.
* `Grammar.expr_goes_on_after_comma`: that the next token joins nothing is not enough.
-/

namespace DocSketch

namespace Grammar

open Parse

variable {Next : TokenKind → Prop} {fuel : Nat} {level : Power} {kind : TokenKind}
  {text later : List Spelling} {e : Expr}

/-- A decision where an expression starts. -/
theorem ifExpression {α : Type} {yes no : Parse α} {Good : α → Prop}
    (opens : ∀ kind, Next kind → (lead text kind).opening?.isSome = true)
    (spells : Spells yes text Next Good) :
    Spells (atExpression >>= fun found => if found = true then yes else no) text Next Good := by
  have looks : Spells atExpression [] (·.opening?.isSome = true) (· = true) :=
    .of_reads_nil fun _ previous _ _ opens => ⟨_, previous, rfl, opens⟩
  refine .look looks (fun found isTrue => ?_) opens
  rwa [if_pos isTrue]

/-- A decision where none starts. -/
theorem ifNotExpression {α : Type} {yes no : Parse α} {Good : α → Prop}
    (closed : ∀ kind, Next kind → (lead text kind).opening? = none)
    (spells : Spells no text Next Good) :
    Spells (atExpression >>= fun found => if found = true then yes else no) text Next Good := by
  have looks : Spells atExpression [] (·.opening? = none) (· = false) :=
    .of_reads_nil fun _ previous _ _ closed => ⟨_, previous, rfl, congrArg Option.isSome closed⟩
  refine .look looks (fun found isFalse => ?_) closed
  rwa [isFalse, if_neg Bool.false_ne_true]

/-- A `yield` is recovered if its value is. -/
theorem recovered_yield {span : Span} {value : Option Expr} {delegates : Bool}
    (delegated : delegates = true → value.isSome) (known : ∀ e ∈ value, Recovered e) :
    Recovered (.yield span value delegates) := by
  refine recovered_of_opening (by rw [Expr.spelling]) rfl fun fuel enough => ?_
  rw [readOpening]
  refine .step .advance fun _ _ => ?_
  cases delegates with
  | true =>
      obtain ⟨value, rfl⟩ := Option.isSome_iff_exists.mp (delegated rfl)
      refine .ifEaten rfl ?_
      rw [if_pos rfl, Expr.optionalText, List.length_append] at enough
      refine .last ((readExpr_final (known value rfl) (by omega)).mono (fun _ ends => ends.1)
        fun _ same => same) fun read same => .spanned fun _ => ?_
      simp only [Expr.unspanned, Expr.unspannedOption, same]
  | false =>
      cases value with
      | none =>
          refine .ifUneaten (fun _ ends => ends.2.2) (ifNotExpression (fun _ ends => ends.2.1) ?_)
          exact .spanned fun _ => rfl
      | some value =>
          refine .ifUneaten (fun _ _ => by simp [Expr.optionalText, grouped])
            (ifExpression (fun _ _ => rfl) ?_)
          change 8 * (grouped value.spelling).length + 6 ≤ fuel at enough
          refine .last ((readTuple_grouped (known value rfl) (by omega)).mono
            (fun _ ends => ⟨.of_none ends.1, ends.2⟩) fun _ same => same)
            fun read same => .spanned fun _ => ?_
          simp only [Expr.unspanned, Expr.unspannedOption, same]

/-- Letters before a first quote are split off. -/
theorem splitLetters_quoted {letters quoted : List Char}
    (plain : ∀ c ∈ letters, isQuote c = false) :
    splitLetters (letters ++ '"' :: quoted) = (letters, '"' :: quoted) := by
  have quotes : (letters ++ '"' :: quoted).any isQuote = true :=
    List.any_eq_true.mpr ⟨'"', by simp, rfl⟩
  rw [splitLetters, if_pos quotes, List.span_eq_takeWhile_dropWhile]
  have own : ∀ c ∈ letters, (!isQuote c) = true := fun c member => by rw [plain c member]; rfl
  rw [List.takeWhile_append_of_pos own, List.dropWhile_append_of_pos own,
    List.takeWhile_cons_of_neg (by decide), List.dropWhile_cons_of_neg (by decide), List.append_nil]

/-- Quotes around a text without quotes are taken off. -/
theorem unquote_quoted {text : List Char} (plain : ∀ c ∈ text, isQuote c = false) :
    unquote ('"' :: (text ++ ['"'])) = text := by
  have count : quoteCount ('"' :: (text ++ ['"'])) = 1 := by
    cases text with
    | nil => decide
    | cons c text =>
        have other : c ≠ '"' := by
          rintro rfl
          cases plain '"' List.mem_cons_self
        simp [quoteCount, Ne.symm other]
  have cut := Text.slice?_append ['"'] text ['"']
  have bytes : Text.byteLength ('"' :: (text ++ ['"'])) - 1 =
      Text.byteLength ['"'] + Text.byteLength text := by
    have one : '"'.utf8Size = 1 := by decide
    simp [one]
    omega
  rw [unquote, count, bytes]
  change (Text.slice? _ (['"'] ++ text ++ ['"'])).getD [] = text
  have first : Text.byteLength ['"'] = 1 := by decide
  rw [first] at cut ⊢
  rw [cut]
  rfl

/-- The prefix and the text of a string literal are told apart. -/
theorem stringParts_quoted {kind : StringKind} {text : String}
    (plain : ∀ c ∈ text.toList, isQuote c = false) :
    stringParts (String.ofList (kind.letters ++ '"' :: (text.toList ++ ['"']))) = (kind, text) := by
  have letters : ∀ c ∈ kind.letters, isQuote c = false := by
    cases kind <;> simp [StringKind.letters, isQuote]
  have own : stringKind kind.letters = kind := by cases kind <;> decide
  rw [stringParts, String.toList_ofList, splitLetters_quoted letters]
  dsimp only
  rw [own, unquote_quoted plain, String.ofList_toList]

/-- A string is recovered if no quote is in its text. -/
theorem recovered_string {span : Span} {kind : StringKind} {text : String}
    (plain : ∀ c ∈ text.toList, isQuote c = false) : Recovered (.string span kind text) := by
  refine recovered_of_opening (by rw [Expr.spelling]) rfl fun fuel _ => ?_
  rw [readOpening, readString]
  refine .step .advance fun token spelled => ?_
  have none : Spells (takeAll .string) [] (· ≠ .string) (· = []) := .of_reads_nil .untaken
  refine .look none (fun others empty => ?_) fun _ ends => ends.2
  have value : token.value = _ := congrArg Prod.snd spelled
  rw [empty, List.foldl_nil, value, stringParts_quoted plain]
  exact .spanned fun _ => rfl

/-- Written expressions are read back: one case for each kind of expression. -/
theorem recovered_of_written (written : e.Written) : Recovered e := by
  induction written with
  | number nonempty => exact recovered_number nonempty
  | string plain => exact recovered_string plain
  | constant => exact recovered_constant
  | symbol => exact recovered_symbol
  | member _ object => exact recovered_member object
  | call _ _ _ callee arguments keywords => exact recovered_call callee arguments keywords
  | @sequence span kind elements nonempty _ known =>
      cases kind with
      | list => exact recovered_list known
      | tuple => exact recovered_tuple known
      | set => exact recovered_set (nonempty rfl) known
  | dict _ _ keys values => exact recovered_dict keys values
  | comprehension paired nonempty _ _ _ _ _ element value targets iters conditions =>
      exact recovered_comprehension paired nonempty element value targets iters conditions
  | binary joins _ _ left right => exact recovered_binary joins left right
  | unary opens _ operand => exact recovered_unary opens operand
  | ternary _ _ _ body test orelse => exact recovered_ternary body test orelse
  | subscript _ _ object parts => exact recovered_subscript object parts
  | lambda ordered unannotated _ _ defaults body =>
      exact recovered_lambda ordered unannotated defaults body
  | starred _ value => exact recovered_starred value
  | yield delegated _ value => exact recovered_yield delegated value

/-- **Reading undoes writing.** Where the tokens of a written expression are ahead and then one
that is not part of it, exactly these tokens are read, and into the expression they spell. -/
theorem expr_recovers (written : e.Written) (cursor : Cursor) (full : cursor.isBare = false)
    {tokens more : List Token} (spelled : tokens.map Token.spelling = e.spelling)
    (here : cursor.rest = tokens ++ more) (ends : e.EndsBefore (more.headD cursor.stop).kind) :
    ∃ read last, Parse.expr .default cursor = .ok read last ∧ last.rest = more ∧
      read.unspanned = e.unspanned := by
  refine expr_of_reads full here ends fun fuel enough => ?_
  have length : tokens.length = e.spelling.length := by rw [← spelled, List.length_map]
  exact (recovered_of_written written).reads fuel (by omega) tokens spelled

/-- The expression of the text `lambda x, *, k=(1): ((x)[(k):])`. -/
def slicing : Expr :=
  .lambda default
    [⟨"x", none, none, .positional, default⟩,
      ⟨"k", none, some (.number default .int "1"), .keywordOnly, default⟩]
    (.subscript default (.symbol default "x")
      (.slice default (some (.symbol default "k")) none none))

def slicingTokens : List Token :=
  [(.lambdaKw, "lambda"), (.identifier, "x"), (.comma, ","), (.star, "*"), (.comma, ","),
    (.identifier, "k"), (.assignment, "="), (.openParen, "("), (.number, "1"), (.closeParen, ")"),
    (.colon, ":"), (.openParen, "("), (.openParen, "("), (.identifier, "x"), (.closeParen, ")"),
    (.openBracket, "["), (.openParen, "("), (.identifier, "k"), (.closeParen, ")"), (.colon, ":"),
    (.closeBracket, "]"), (.closeParen, ")")].map fun text : Spelling => ⟨text.1, text.2, default⟩

/-- A lambda whose body is a subscript with a slice is recovered. -/
theorem expr_recovers_slicing :
    slicing.Written ∧ slicingTokens.map Token.spelling = slicing.spelling ∧
      ∃ read last, Parse.expr .default (.ofTokens "m.py" false slicingTokens) = .ok read last ∧
        last.rest = [] ∧ read.unspanned = slicing.unspanned := by
  have subscript : Expr.Written (.subscript default (.symbol default "x")
      (.slice default (some (.symbol default "k")) none none)) :=
    .subscript .symbol (by simp [Expr.items, Expr.itemParts, Expr.Written.symbol])
  have written : slicing.Written := by
    have kind : numberKind "1" = .int := by decide
    have one : Expr.Written (.number default .int "1") := kind ▸ .number rfl
    refine .lambda (by simp) (by simp) ?_ subscript
    simpa using one
  have spelled : slicingTokens.map Token.spelling = slicing.spelling := by decide +kernel
  refine ⟨written, spelled, ?_⟩
  exact expr_recovers written (.ofTokens "m.py" false slicingTokens) rfl spelled
    (List.append_nil _).symm ⟨rfl, trivial⟩

/-- The text `yield (x)`. -/
def yieldTokens : List Token :=
  [⟨.yieldKw, "yield", ⟨0, 5⟩⟩, ⟨.openParen, "(", ⟨6, 7⟩⟩, ⟨.identifier, "x", ⟨7, 8⟩⟩,
    ⟨.closeParen, ")", ⟨8, 9⟩⟩]

/-- Whether a reader has gone past all tokens. -/
def atEnd : EStateM.Result Fault Cursor Expr → Bool
  | .ok _ last => last.rest.isEmpty
  | .error _ _ => false

/-- A comma does not join anything to an expression, and yet the value of a `yield` goes on
behind it. -/
theorem expr_goes_on_after_comma :
    ¬∀ (e : Expr) (cursor : Cursor) (tokens more : List Token), e.Written →
      cursor.isBare = false → tokens.map Token.spelling = e.spelling →
      cursor.rest = tokens ++ more → (more.headD cursor.stop).kind.joining? = none →
        ∃ read last, Parse.expr .default cursor = .ok read last ∧ last.rest = more ∧
          read.unspanned = e.unspanned := by
  intro claim
  have written : (Expr.yield default (some (.symbol default "x")) false).Written :=
    .yield (by simp) (by simp [Expr.Written.symbol])
  obtain ⟨read, last, run, rest, -⟩ := claim _
    (.ofTokens "m.py" false (yieldTokens ++ [⟨.comma, ",", ⟨9, 10⟩⟩])) yieldTokens
    [⟨.comma, ",", ⟨9, 10⟩⟩] written rfl (by decide +kernel) rfl rfl
  have whole : atEnd (Parse.expr .default
      (.ofTokens "m.py" false (yieldTokens ++ [⟨.comma, ",", ⟨9, 10⟩⟩]))) = true := by
    decide +kernel
  rw [run, atEnd, rest] at whole
  cases whole

end Grammar

end DocSketch
