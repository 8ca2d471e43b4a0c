import DocSketch.Proofs.Token.Stretches

/-!
# How strings end

A string is written as letters, a mark of quotes, a body and the mark again.  In quotes that stand
alone, a backslash takes the next character with it, so that the mark is the first one that no
backslash hides.  In triple quotes a backslash hides nothing, and the mark is the first one at all:
it is the one that a reader of backslashes finds unless the body ends in the middle of an escape.

* `Lexeme.closing?`: the first mark that no backslash hides.
* `Lexeme.Quotation`: the parts of a string.
* `Lexeme.stringLength_quotation`: the parts of a string that is read.
* `Token.scan_strings`: the strings among the tokens of a text.
-/

namespace DocSketch

namespace Lexeme

/-! ## Marks and escapes -/

/-- Where `mark` stands first if a backslash takes the next character with it. -/
def closing? (mark : List Char) : List Char → Option Nat
  | [] => none
  | [c] => if mark.isPrefixOf [c] then some 0 else none
  | c :: d :: ds =>
    if mark.isPrefixOf (c :: d :: ds) then some 0
    else if c = '\\' then (closing? mark ds).map (· + 2)
    else (closing? mark (d :: ds)).map (· + 1)

/-- Whether a text ends with a backslash that takes the next character with it. -/
def leavesEscape : List Char → Bool
  | [] => false
  | [c] => c == '\\'
  | c :: d :: ds => if c = '\\' then leavesEscape ds else leavesEscape (d :: ds)

/-- `mark` stands behind `body` and nowhere before. -/
def FirstAfter (mark body : List Char) : Prop :=
  ∀ i < body.length, ¬mark <+: (body ++ mark).drop i

section

variable {c m : Char} {mark body chars ms : List Char}

/-- A mark closes where it stands. -/
theorem closing?_here (starts : mark.isPrefixOf (c :: chars) = true) :
    closing? mark (c :: chars) = some 0 := by
  cases chars with
  | nil => rw [closing?, if_pos starts]
  | cons d ds => rw [closing?, if_pos starts]

/-- A backslash goes past the next character. -/
theorem closing?_escape (d : Char) (starts : ¬mark.isPrefixOf ('\\' :: d :: chars) = true) :
    closing? mark ('\\' :: d :: chars) = (closing? mark chars).map (· + 2) := by
  rw [closing?, if_neg starts, if_pos rfl]

/-- Any other character is gone past. -/
theorem closing?_later (starts : ¬mark.isPrefixOf (c :: chars) = true) (plain : c ≠ '\\') :
    closing? mark (c :: chars) = (closing? mark chars).map (· + 1) := by
  cases chars with
  | nil => simp only [closing?, if_neg starts, Option.map_none]
  | cons d ds => rw [closing?, if_neg starts, if_neg plain]

/-- The first mark behind a text is the first one behind its tail. -/
theorem FirstAfter.tail (first : FirstAfter mark (c :: body)) : FirstAfter mark body :=
  fun i inside => first (i + 1) (Nat.succ_lt_succ inside)

/-- No mark stands before the first one. -/
theorem FirstAfter.not_isPrefixOf (first : FirstAfter mark (c :: body)) :
    ¬mark.isPrefixOf (c :: (body ++ mark)) = true :=
  fun starts => first 0 (Nat.succ_pos _) (List.isPrefixOf_iff_prefix.mp starts)

/-- A mark that is the first one at all is the first one that no backslash hides, unless the text
before it ends in the middle of an escape. -/
theorem closing?_eq_iff (first : FirstAfter (m :: ms) body) :
    closing? (m :: ms) (body ++ m :: ms) = some body.length ↔ leavesEscape body = false := by
  induction body using leavesEscape.induct with
  | case1 =>
      have starts : (m :: ms).isPrefixOf (m :: ms) = true :=
        List.isPrefixOf_iff_prefix.mpr List.prefix_rfl
      rw [List.nil_append, closing?_here starts]
      exact iff_of_true rfl rfl
  | case2 c =>
      have absent := first.not_isPrefixOf
      rw [List.nil_append] at absent
      rw [List.cons_append, List.nil_append]
      by_cases escape : c = '\\'
      · subst escape
        rw [closing?_escape m absent]
        refine iff_of_false ?_ (by decide)
        cases closing? (m :: ms) ms <;> simp
      · have starts : (m :: ms).isPrefixOf (m :: ms) = true :=
          List.isPrefixOf_iff_prefix.mpr List.prefix_rfl
        rw [closing?_later absent escape, closing?_here starts]
        exact iff_of_true rfl (by simpa [leavesEscape] using escape)
  | case3 d ds ih =>
      have absent := first.not_isPrefixOf
      rw [List.cons_append] at absent
      rw [List.cons_append, List.cons_append, closing?_escape d absent, leavesEscape, if_pos rfl,
        ← ih first.tail.tail]
      simp only [List.length_cons, Option.map_eq_some_iff, Nat.add_right_cancel_iff,
        exists_eq_right]
  | case4 c d ds plain ih =>
      rw [List.cons_append, closing?_later first.not_isPrefixOf plain, leavesEscape, if_neg plain,
        ← ih first.tail]
      simp only [List.length_cons, Option.map_eq_some_iff, Nat.add_right_cancel_iff,
        exists_eq_right]

end

/-! ## The parts of a string -/

/-- The parts of a string as it is written. -/
structure Quotation where
  /-- What stands before the first quote. -/
  letters : List Char
  quote : Char
  /-- Whether the quotes stand in threes. -/
  triple : Bool
  body : List Char
deriving DecidableEq, Repr

namespace Quotation

/-- What stands before the body and behind it. -/
def mark (quotation : Quotation) : List Char :=
  if quotation.triple then [quotation.quote, quotation.quote, quotation.quote]
  else [quotation.quote]

def chars (quotation : Quotation) : List Char :=
  quotation.letters ++ (quotation.mark ++ (quotation.body ++ quotation.mark))

/-- At most two letters stand before the quotes. -/
structure WellFormed (quotation : Quotation) : Prop where
  short : quotation.letters.length ≤ 2
  letters : ∀ c ∈ quotation.letters, isStringLetter c = true
  quote : quotation.quote = '"' ∨ quotation.quote = '\''

/-- The mark behind the body is the first one that no backslash hides. -/
def Closes (quotation : Quotation) : Prop :=
  closing? quotation.mark (quotation.body ++ quotation.mark) = some quotation.body.length

instance (quotation : Quotation) : Decidable quotation.Closes :=
  inferInstanceAs (Decidable (_ = _))

/-- How a string ends: single quotes heed backslashes, and triple quotes do not. -/
structure Ends (quotation : Quotation) : Prop where
  single : quotation.triple = false → quotation.Closes
  triple : quotation.triple = true → FirstAfter quotation.mark quotation.body

/-- The strings whose mark a reader of backslashes would take for the last one. -/
theorem Ends.closes_iff {quotation : Quotation} (ends : quotation.Ends) :
    quotation.Closes ↔ (quotation.triple = true → leavesEscape quotation.body = false) := by
  cases triple : quotation.triple with
  | false => exact iff_of_true (ends.single triple) Bool.noConfusion
  | true =>
      have first := ends.triple triple
      rw [mark, if_pos triple] at first
      rw [Closes, mark, if_pos triple, closing?_eq_iff first]
      exact ⟨fun closed _ => closed, fun closed => closed rfl⟩

end Quotation

variable {q : Char} {chars : List Char} {n : Nat}

/-- The body in triple quotes ends at the first three quotes. -/
theorem tripleBody?_first (found : tripleBody? q chars = some n) :
    ∃ body, chars.take n = body ++ [q, q, q] ∧ FirstAfter [q, q, q] body := by
  induction chars generalizing n with
  | nil => cases found
  | cons c chars ih =>
      rw [tripleBody?] at found
      split at found
      case isTrue starts =>
        cases found
        obtain ⟨rest, split⟩ := List.isPrefixOf_iff_prefix.mp starts
        refine ⟨[], ?_, fun i inside => absurd inside (Nat.not_lt_zero i)⟩
        rw [← split]
        rfl
      case isFalse absent =>
        obtain ⟨m, later, rfl⟩ := Option.map_eq_some_iff.mp found
        obtain ⟨body, taken, first⟩ := ih later
        have whole : (c :: chars).take (m + 1) = c :: body ++ [q, q, q] := by
          rw [List.take_succ_cons, taken, List.cons_append]
        refine ⟨c :: body, whole, fun i inside => ?_⟩
        cases i with
        | zero =>
            intro starts
            rw [List.drop_zero, ← whole] at starts
            exact absent (List.isPrefixOf_iff_prefix.mpr (starts.trans (List.take_prefix _ _)))
        | succ i => exact first i (Nat.lt_of_succ_lt_succ inside)

/-- The body in single quotes ends at the first quote that no backslash hides. -/
theorem quotedBody?_first (found : quotedBody? q chars = some n) :
    ∃ body, chars.take n = body ++ [q] ∧ closing? [q] (body ++ [q]) = some body.length := by
  have unmarked {c : Char} (other : ¬c = q) (rest : List Char) :
      ¬[q].isPrefixOf (c :: rest) = true := by
    simpa using Ne.symm other
  induction chars using quotedBody?.induct q generalizing n with
  | case1 => cases found
  | case2 | case4 =>
      rw [quotedBody?_closes] at found
      cases found
      refine ⟨[], rfl, closing?_here ?_⟩
      exact List.isPrefixOf_iff_prefix.mpr List.prefix_rfl
  | case3 c other =>
      rw [quotedBody?, if_neg other] at found
      cases found
  | case5 ds other =>
      simp only [quotedBody?, if_neg other, if_true] at found
      cases found
  | case6 d ds plain other ih =>
      simp only [quotedBody?, if_neg other, if_true, if_neg plain] at found
      obtain ⟨m, inner, rfl⟩ := Option.map_eq_some_iff.mp found
      obtain ⟨body, taken, first⟩ := ih inner
      refine ⟨'\\' :: d :: body, ?_, ?_⟩
      · rw [List.take_succ_cons, List.take_succ_cons, taken, List.cons_append, List.cons_append]
      · rw [List.cons_append, List.cons_append, closing?_escape d (unmarked other _), first]
        rfl
  | case7 c d ds other unescaped ends =>
      simp only [quotedBody?, if_neg other, if_neg unescaped, if_pos ends] at found
      cases found
  | case8 c d ds other unescaped goesOn ih =>
      simp only [quotedBody?, if_neg other, if_neg unescaped, if_neg goesOn] at found
      obtain ⟨m, inner, rfl⟩ := Option.map_eq_some_iff.mp found
      obtain ⟨body, taken, first⟩ := ih inner
      refine ⟨c :: body, ?_, ?_⟩
      · rw [List.take_succ_cons, taken, List.cons_append]
      · rw [List.cons_append, closing?_later (unmarked other _) unescaped, first]
        rfl

/-- The parts of a string from its first quote on. -/
theorem quoted?_parts (found : quoted? chars = some n) :
    ∃ quote triple body, (quote = '"' ∨ quote = '\'') ∧
      chars.take n = (⟨[], quote, triple, body⟩ : Quotation).chars ∧
      (⟨[], quote, triple, body⟩ : Quotation).Ends := by
  cases chars with
  | nil => cases found
  | cons quote rest =>
      rw [quoted?] at found
      split at found
      case isFalse => cases found
      case isTrue isQuote =>
        have single : (quotedBody? quote rest).map (· + 1) = some n → ∃ body,
            (quote :: rest).take n = (⟨[], quote, false, body⟩ : Quotation).chars ∧
            (⟨[], quote, false, body⟩ : Quotation).Ends := by
          intro alone
          obtain ⟨m, inner, rfl⟩ := Option.map_eq_some_iff.mp alone
          obtain ⟨body, taken, first⟩ := quotedBody?_first inner
          refine ⟨body, ?_, ⟨fun _ => first, Bool.noConfusion⟩⟩
          rw [List.take_succ_cons, taken]
          rfl
        dsimp only at found
        split at found
        case isFalse =>
          obtain ⟨body, taken, ends⟩ := single found
          exact ⟨quote, false, body, isQuote, taken, ends⟩
        case isTrue doubled =>
          obtain threes | ⟨-, alone⟩ := Option.or_eq_some_iff.mp found
          · obtain ⟨m, inner, rfl⟩ := Option.map_eq_some_iff.mp threes
            obtain ⟨body, taken, first⟩ := tripleBody?_first inner
            obtain ⟨after, rfl⟩ := List.isPrefixOf_iff_prefix.mp doubled
            refine ⟨quote, true, body, isQuote, ?_, ⟨Bool.noConfusion, fun _ => first⟩⟩
            have after : ([quote, quote] ++ after).drop 2 = after := rfl
            rw [after] at taken
            rw [List.cons_append, List.cons_append, List.nil_append, List.take_succ_cons,
              List.take_succ_cons, List.take_succ_cons, taken]
            rfl
          · obtain ⟨body, taken, ends⟩ := single alone
            exact ⟨quote, false, body, isQuote, taken, ends⟩

/-- **The parts of a string** that is read. -/
theorem stringLength_quotation (found : stringLength chars ≠ 0) :
    ∃ quotation : Quotation, chars.take (stringLength chars) = quotation.chars ∧
      quotation.WellFormed ∧ quotation.Ends := by
  obtain ⟨front, rest⟩ := split_takeWhile isStringLetter chars
  rw [stringLength] at found ⊢
  split at found
  case isFalse => exact absurd rfl found
  case isTrue short =>
    rw [if_pos short]
    cases read : quoted? (chars.drop (chars.takeWhile isStringLetter).length) with
    | none => exact absurd (by rw [read]) found
    | some n =>
        obtain ⟨quote, triple, body, isQuote, taken, ends⟩ := quoted?_parts read
        refine ⟨⟨chars.takeWhile isStringLetter, quote, triple, body⟩, ?_,
          ⟨short, fun c member => List.mem_takeWhile_imp member, isQuote⟩,
          ⟨ends.single, ends.triple⟩⟩
        dsimp only
        rw [List.take_add, front, taken]
        rfl

/-- No mark is a string. -/
theorem string_not_mem_marks : ∀ mark ∈ marks, mark.2 ≠ .string := by
  decide

/-- No word is a string. -/
theorem wordKind_ne_string (word : String) : wordKind word ≠ .string :=
  wordKind_of (P := fun kind => kind ≠ .string) (by decide) (by decide) word

/-- A token that is a string comes from a lexeme that is one. -/
theorem stringLength_of_kind? {cls : LexemeClass} (found : next? chars = some (cls, n))
    {own : List Char} (known : cls.kind? own = some .string) : n = stringLength chars := by
  simp only [next?, Option.orElse_eq_orElse, Option.orElse_eq_or, Option.or_eq_some_iff] at found
  rcases found with other | ⟨-, other | ⟨-, other | ⟨-, other | ⟨-, string | ⟨-, other | ⟨-, word |
    ⟨-, mark⟩⟩⟩⟩⟩⟩⟩
  case inr.inr.inr.inr.inl => exact (eq_of_sized string).2
  case inr.inr.inr.inr.inr.inr.inl =>
    obtain ⟨rfl, -⟩ := eq_of_sized word
    exact absurd (Option.some.inj known) (wordKind_ne_string _)
  case inr.inr.inr.inr.inr.inr.inr =>
    unfold mark? at mark
    obtain ⟨entry, listed, same⟩ := Option.map_eq_some_iff.mp mark
    cases same
    exact absurd (Option.some.inj known)
      (string_not_mem_marks entry (List.mem_of_find?_eq_some listed))
  all_goals
    obtain ⟨rfl, -⟩ := eq_of_sized other
    cases known

end Lexeme

/-! ## The strings of a text -/

namespace Token

open Lexeme

/-- Each string among the tokens is a quotation. -/
theorem Traced.strings {offset : Nat} {chars : List Char} {tokens : List Token}
    (traced : Traced offset chars tokens) :
    ∀ token ∈ tokens, token.kind = .string → ∃ quotation : Quotation,
      token.value.toList = quotation.chars ∧ quotation.WellFormed ∧ quotation.Ends := by
  induction traced with
  | done => exact fun token member => absurd member List.not_mem_nil
  | layout isLayout _ ih =>
      refine List.forall_mem_cons.mpr ⟨fun string => ?_, ih⟩
      rw [string] at isLayout
      cases isLayout
  | skip _ _ _ ih => exact ih
  | @token offset chars rest cls kind tokens found known _ ih =>
      refine List.forall_mem_cons.mpr ⟨fun string => ?_, ih⟩
      have isString : cls.kind? chars = some .string := known.trans (congrArg some string)
      have length := stringLength_of_kind? found isString
      have positive := pos_of_next? found
      have found : stringLength (chars ++ rest) ≠ 0 := by omega
      obtain ⟨quotation, taken, parts⟩ := stringLength_quotation found
      rw [← length, List.take_left] at taken
      refine ⟨quotation, ?_, parts⟩
      rw [← taken, ofLexeme, String.toList_ofList]

/-- **How strings end.**  Every string of a text is written as at most two letters, a mark of one
or three quotes, a body and the mark again.  The mark behind the body is the first one at all in
triple quotes, and else the first one that no backslash hides.  So it is the first one that no
backslash hides in each string but those in triple quotes whose body ends in the middle of an
escape. -/
theorem scan_strings {source file : String} {tokens : List Token}
    (scanned : scan source file = .ok tokens) :
    ∀ token ∈ tokens, token.kind = .string → ∃ quotation : Quotation,
      token.value.toList = quotation.chars ∧ quotation.WellFormed ∧ quotation.Ends ∧
        (quotation.Closes ↔
          (quotation.triple = true → leavesEscape quotation.body = false)) := by
  intro token member string
  obtain ⟨added, rfl, traced⟩ := Layout.scanFrom_traced _ _ _ scanned
  obtain ⟨quotation, written, wellFormed, ends⟩ := traced.strings token member string
  exact ⟨quotation, written, wellFormed, ends, ends.closes_iff⟩

/-- A quote behind a backslash, and a body that ends behind an escape. -/
theorem scan_strings_quoted :
    ∃ tokens, scan "r'\\'' \"\"\"\\\\\"\"\"" "m.py" = .ok tokens ∧
      tokens.map Token.value = ["r'\\''", "\"\"\"\\\\\"\"\"", "", ""] ∧
      ∀ token ∈ tokens, token.kind = .string → ∃ quotation : Quotation,
        token.value.toList = quotation.chars ∧ quotation.WellFormed ∧ quotation.Ends ∧
          (quotation.Closes ↔
            (quotation.triple = true → leavesEscape quotation.body = false)) := by
  have read : Layout.scanWithin 20 .initial "m.py" 0 "r'\\'' \"\"\"\\\\\"\"\"".toList =
      some (.ok [⟨.string, "r'\\''", ⟨0, 5⟩⟩, ⟨.string, "\"\"\"\\\\\"\"\"", ⟨6, 14⟩⟩,
        ⟨.newline, "", ⟨14, 14⟩⟩, ⟨.eof, "", ⟨14, 14⟩⟩]) := by
    with_unfolding_all rfl
  have scanned := Layout.scanFrom_of_scanWithin read
  exact ⟨_, scanned, rfl, scan_strings scanned⟩

/-- In triple quotes, a quote behind a backslash ends a string. -/
theorem scan_strings_escaped :
    ∃ tokens, scan "\"\"\"\\\"\"\" # \"\"\"" "m.py" = .ok tokens ∧
      ∃ token ∈ tokens, token.kind = .string ∧
        ¬∃ quotation : Quotation, token.value.toList = quotation.chars ∧ quotation.WellFormed ∧
          quotation.Closes := by
  have read : Layout.scanWithin 20 .initial "m.py" 0 "\"\"\"\\\"\"\" # \"\"\"".toList =
      some (.ok [⟨.string, "\"\"\"\\\"\"\"", ⟨0, 7⟩⟩, ⟨.newline, "", ⟨13, 13⟩⟩,
        ⟨.eof, "", ⟨13, 13⟩⟩]) := by
    with_unfolding_all rfl
  refine ⟨_, Layout.scanFrom_of_scanWithin read, _, List.mem_cons_self, rfl, ?_⟩
  rintro ⟨⟨letters, quote, triple, body⟩, written, wellFormed, closes⟩
  have chars : "\"\"\"\\\"\"\"".toList = ['"', '"', '"', '\\', '"', '"', '"'] := by decide
  rw [chars] at written
  cases letters with
  | cons letter others =>
      obtain ⟨rfl, -⟩ := List.cons.inj written
      exact absurd (wellFormed.letters _ List.mem_cons_self) (by decide)
  | nil =>
      cases triple with
      | true =>
          obtain ⟨rfl, rest⟩ := List.cons.inj written
          have ended : ['\\', '"', '"', '"'] = body ++ ['"', '"', '"'] :=
            (List.cons.inj (List.cons.inj rest).2).2
          have hidden : closing? ['"', '"', '"'] (body ++ ['"', '"', '"']) = none := by
            rw [← ended]
            decide
          exact absurd (hidden.symm.trans closes) (by simp)
      | false =>
          obtain ⟨rfl, ended⟩ := List.cons.inj written
          have early : closing? ['"'] (body ++ ['"']) = some 0 := by
            have same : body ++ ['"'] = ['"', '"', '\\', '"', '"', '"'] := ended.symm
            rw [same]
            decide
          have empty : body.length = 0 := (Option.some.inj (early.symm.trans closes)).symm
          have lengths := congrArg List.length ended
          simp [Quotation.mark, empty] at lengths

end Token

end DocSketch
