import DocSketch.Proofs.Text.Lines
import DocSketch.Proofs.Token.Locality

/-!
# Lexemes keep to their line

Only strings in triple quotes go on behind the end of a line.  So a lexeme that starts in one
line and ends there is the same whatever lines follow, and a string in triple quotes that ends
in time is the same if lines without quotes come between the line that it ends in and the rest.

* `Lexeme.KeepsToLine`: a measure of the lexeme at the start of a text that ends within its line.
* `Lexeme.tripleBody?_append`: strings in triple quotes are searched line by line.
* `Lexeme.next?_between`: lines without quotes can come between lines.
-/

namespace DocSketch

namespace Lexeme

/-- What is measured ends within the line, so that it does not matter what follows. -/
def KeepsToLine (measure : List Char → Nat) : Prop :=
  ∀ line, ∃ n ≤ line.length, ∀ more, measure (line ++ '\n' :: more) = n

/-- What keeps to its line does not depend on the lines behind it. -/
theorem KeepsToLine.eq {measure : List Char → Nat} (keeps : KeepsToLine measure)
    (line more other : List Char) :
    measure (line ++ '\n' :: other) = measure (line ++ '\n' :: more) := by
  obtain ⟨n, -, same⟩ := keeps line
  rw [same, same]

/-- A measure of what is left behind `k` characters of the line. -/
theorem KeepsToLine.drop {measure : List Char → Nat} (keeps : KeepsToLine measure)
    (line : List Char) {k : Nat} (inside : k ≤ line.length) :
    ∃ n, k + n ≤ line.length ∧ ∀ more, measure ((line ++ '\n' :: more).drop k) = n := by
  obtain ⟨n, short, same⟩ := keeps (line.drop k)
  rw [List.length_drop] at short
  refine ⟨n, by omega, fun more => ?_⟩
  rw [List.drop_append_of_le_length inside, same]

/-- A run that a line break stops keeps to its line. -/
theorem takeWhile_keepsToLine {p : Char → Bool} (stops : p '\n' = false) :
    KeepsToLine fun cs => (cs.takeWhile p).length :=
  fun line => ⟨_, length_takeWhile_le p line,
    fun more => congrArg List.length (Text.takeWhile_upTo stops line more)⟩

theorem blankLength_keepsToLine : KeepsToLine blankLength := takeWhile_keepsToLine rfl

theorem commentLength_keepsToLine : KeepsToLine commentLength := by
  intro line
  cases line with
  | nil => exact ⟨0, Nat.le_refl 0, fun more => rfl⟩
  | cons c line =>
      by_cases marked : c = '#'
      · subst marked
        obtain ⟨n, short, same⟩ := takeWhile_keepsToLine (p := fun c => !isBreak c) rfl line
        refine ⟨1 + n, by rw [List.length_cons]; omega, fun more => ?_⟩
        simp only [List.cons_append, commentLength, same]
      · refine ⟨0, Nat.zero_le _, fun more => ?_⟩
        unfold commentLength
        split
        case h_1 same => exact absurd (List.cons.inj same).1 marked
        case h_2 => rfl

theorem wordLength_keepsToLine : KeepsToLine wordLength := by
  intro line
  cases line with
  | nil => exact ⟨0, Nat.le_refl 0, fun more => rfl⟩
  | cons c line =>
      obtain ⟨n, short, same⟩ := takeWhile_keepsToLine (p := isWordPart) rfl line
      refine ⟨if isWordStart c then 1 + n else 0, ?_, fun more => ?_⟩
      · rw [List.length_cons]
        split <;> omega
      · simp only [List.cons_append, wordLength, same]

/-! ## Numbers -/

/-- A line break is a digit to no base. -/
theorem radixDigit?_line {c : Char} {digit : Char → Bool} (known : radixDigit? c = some digit) :
    digit '\n' = false := by
  unfold radixDigit? at known
  split at known
  · cases known
    rfl
  · split at known
    · cases known
      rfl
    · split at known <;> cases known
      rfl

theorem radixLength_keepsToLine : KeepsToLine radixLength := by
  intro line
  rcases line with _ | ⟨c, line⟩
  · exact ⟨0, Nat.le_refl 0, fun more => radixLength_of_ne (by decide) more⟩
  by_cases zero : c = '0'
  case neg => exact ⟨0, Nat.zero_le _, fun more => radixLength_of_ne zero _⟩
  subst zero
  rcases line with _ | ⟨d, line⟩
  · exact ⟨0, Nat.zero_le _, fun more => rfl⟩
  cases known : radixDigit? d with
  | none =>
      refine ⟨0, Nat.zero_le _, fun more => ?_⟩
      simp only [List.cons_append, radixLength, known]
  | some digit =>
      obtain ⟨n, short, same⟩ := takeWhile_keepsToLine (radixDigit?_line known) line
      refine ⟨if n = 0 then 0 else 2 + n, ?_, fun more => ?_⟩
      · rw [List.length_cons, List.length_cons]
        split <;> omega
      · simp only [List.cons_append, radixLength, known, same]

theorem fractionLength_keepsToLine : KeepsToLine fractionLength := by
  intro line
  cases line with
  | nil => exact ⟨0, Nat.le_refl 0, fun more => rfl⟩
  | cons c line =>
      by_cases point : c = '.'
      · subst point
        obtain ⟨n, short, same⟩ := takeWhile_keepsToLine (p := isDigitPart) rfl line
        refine ⟨1 + n, by rw [List.length_cons]; omega, fun more => ?_⟩
        simp only [List.cons_append, fractionLength, same]
      · exact ⟨0, Nat.zero_le _, fun more => by simp [fractionLength, point]⟩

theorem mantissaLength_keepsToLine : KeepsToLine mantissaLength := by
  intro line
  rcases line with _ | ⟨c, line⟩
  · exact ⟨0, Nat.le_refl 0, fun more => rfl⟩
  by_cases digit : c.isDigit = true
  · obtain ⟨n, short, digits⟩ := takeWhile_keepsToLine (p := isDigitPart) rfl line
    obtain ⟨m, within, fraction⟩ := fractionLength_keepsToLine.drop line short
    refine ⟨1 + n + m, by rw [List.length_cons]; omega, fun more => ?_⟩
    simp only [List.cons_append, mantissaLength, digit, ↓reduceIte, digits, fraction]
  by_cases point : c = '.'
  case neg =>
    refine ⟨0, Nat.zero_le _, fun more => ?_⟩
    simp only [List.cons_append, mantissaLength, digit, point, ↓reduceIte, Bool.false_eq_true]
  subst point
  rcases line with _ | ⟨d, line⟩
  · exact ⟨0, Nat.zero_le _, fun more => rfl⟩
  obtain ⟨n, short, digits⟩ := takeWhile_keepsToLine (p := isDigitPart) rfl line
  refine ⟨if d.isDigit then 2 + n else 0, ?_, fun more => ?_⟩
  · rw [List.length_cons, List.length_cons]
    split <;> omega
  · simp only [List.cons_append, mantissaLength, digit, ↓reduceIte, Bool.false_eq_true, digits]

theorem exponentLength_keepsToLine : KeepsToLine exponentLength := by
  intro line
  rcases line with _ | ⟨c, line⟩
  · exact ⟨0, Nat.le_refl 0, fun more => rfl⟩
  by_cases letter : c = 'e' ∨ c = 'E'
  case neg =>
    refine ⟨0, Nat.zero_le _, fun more => ?_⟩
    simp only [List.cons_append, exponentLength, letter, ↓reduceIte]
  -- The sign, if there is one, is part of the line.
  obtain ⟨sign, within, signed⟩ : ∃ sign ≤ line.length, ∀ more : List Char,
      (if (line ++ '\n' :: more).head? = some '+' ∨ (line ++ '\n' :: more).head? = some '-'
        then 1 else 0) = sign := by
    cases line with
    | nil => exact ⟨0, Nat.le_refl 0, fun more => rfl⟩
    | cons d line =>
        refine ⟨if d = '+' ∨ d = '-' then 1 else 0, ?_, fun more => ?_⟩
        · rw [List.length_cons]
          split <;> omega
        · simp only [List.cons_append, List.head?_cons, Option.some.injEq]
  obtain ⟨n, short, digits⟩ := (takeWhile_keepsToLine (p := isDigitPart) rfl).drop line within
  refine ⟨if n = 0 then 0 else 1 + sign + n, ?_, fun more => ?_⟩
  · rw [List.length_cons]
    split <;> omega
  · simp only [List.cons_append, exponentLength, letter, ↓reduceIte, signed, digits]

theorem imaginaryLength_keepsToLine : KeepsToLine imaginaryLength := by
  intro line
  cases line with
  | nil => exact ⟨0, Nat.le_refl 0, fun more => rfl⟩
  | cons c line =>
      refine ⟨if c = 'j' ∨ c = 'J' then 1 else 0, ?_, fun more => rfl⟩
      rw [List.length_cons]
      split <;> omega

theorem decimalLength_keepsToLine : KeepsToLine decimalLength := by
  intro line
  obtain ⟨m, within, mantissa⟩ := mantissaLength_keepsToLine line
  obtain ⟨e, short, exponent⟩ := exponentLength_keepsToLine.drop line within
  obtain ⟨i, inside, imaginary⟩ := imaginaryLength_keepsToLine.drop line short
  refine ⟨if m = 0 then 0 else m + e + i, by split <;> omega, fun more => ?_⟩
  simp only [decimalLength, mantissa, exponent, imaginary]

theorem numberLength_keepsToLine : KeepsToLine numberLength := by
  intro line
  obtain ⟨r, within, radix⟩ := radixLength_keepsToLine line
  obtain ⟨d, short, decimal⟩ := decimalLength_keepsToLine line
  refine ⟨if r = 0 then d else r, by split <;> assumption, fun more => ?_⟩
  simp only [numberLength, radix, decimal]

/-! ## Line breaks and marks -/

/-- A continued line is seen in its own line. -/
theorem continuationLength_line (line more other : List Char) :
    continuationLength (line ++ '\n' :: other) = continuationLength (line ++ '\n' :: more) := by
  rcases line with _ | ⟨a, _ | ⟨b, _ | ⟨c, line⟩⟩⟩ <;>
    · unfold continuationLength
      split <;> split <;> simp_all

/-- A line break is seen in its own line. -/
theorem lineBreakLength_line (line more other : List Char) :
    lineBreakLength (line ++ '\n' :: other) = lineBreakLength (line ++ '\n' :: more) := by
  rcases line with _ | ⟨a, _ | ⟨b, line⟩⟩ <;>
    · unfold lineBreakLength
      split <;> split <;> simp_all

/-- A pattern without a line break is found within the line. -/
theorem isPrefixOf_line {pattern : List Char} (free : '\n' ∉ pattern) (line more : List Char) :
    pattern.isPrefixOf (line ++ '\n' :: more) = pattern.isPrefixOf line := by
  induction pattern generalizing line with
  | nil =>
      rw [Bool.eq_iff_iff, List.isPrefixOf_iff_prefix, List.isPrefixOf_iff_prefix]
      exact ⟨fun _ => List.nil_prefix, fun _ => List.nil_prefix⟩
  | cons d pattern ih =>
      obtain ⟨differs, others⟩ := not_or.mp fun member => free (List.mem_cons.mpr member)
      cases line with
      | nil =>
          have unlike : (d == '\n') = false := beq_false_of_ne (Ne.symm differs)
          simp only [List.nil_append, List.isPrefixOf, unlike, Bool.false_and]
      | cons c line =>
          simp only [List.cons_append, List.isPrefixOf]
          rw [ih others]

/-- No mark has a line break in it. -/
theorem unbroken_of_mem_marks : ∀ mark ∈ marks, '\n' ∉ mark.1.toList := by
  decide

/-- A mark keeps to its line. -/
theorem mark?_line (line more : List Char) : mark? (line ++ '\n' :: more) = mark? line := by
  unfold mark?
  congr 1
  have same : ∀ mark ∈ marks,
      mark.1.toList.isPrefixOf (line ++ '\n' :: more) = mark.1.toList.isPrefixOf line :=
    fun mark listed => isPrefixOf_line (unbroken_of_mem_marks mark listed) line more
  generalize marks = table at same
  induction table with
  | nil => rfl
  | cons mark table ih =>
      obtain ⟨first, others⟩ := List.forall_mem_cons.mp same
      rw [List.find?_cons, List.find?_cons, first, ih others]

/-! ## Strings -/

/-- A line break ends the body of a string that is not closed. -/
theorem quotedBody?_break {q : Char} (quote : q ≠ '\n') (more : List Char) :
    quotedBody? q ('\n' :: more) = none := by
  cases more with
  | nil => rw [quotedBody?, if_neg (Ne.symm quote)]
  | cons d more =>
      have breaks : isBreak '\n' = true := rfl
      rw [quotedBody?, if_neg (Ne.symm quote), if_neg (by decide), if_pos breaks]

/-- A string in single quotes ends within its line. -/
theorem quotedBody?_line {q : Char} (quote : q ≠ '\n') (line more other : List Char) :
    quotedBody? q (line ++ '\n' :: other) = quotedBody? q (line ++ '\n' :: more) := by
  induction line using quotedBody?.induct q with
  | case1 => rw [List.nil_append, List.nil_append, quotedBody?_break quote, quotedBody?_break quote]
  | case2 | case4 d ds => simp only [List.cons_append, quotedBody?_closes]
  | case3 c unclosed =>
      simp only [List.cons_append, List.nil_append, quotedBody?, if_neg unclosed, ↓reduceIte,
        quotedBody?_break quote]
  | case5 ds unclosed => simp only [List.cons_append, quotedBody?, if_neg unclosed, ↓reduceIte]
  | case6 d ds plain unclosed ih =>
      simp only [List.cons_append, quotedBody?, if_neg unclosed, ↓reduceIte, if_neg plain, ih]
  | case7 c d ds unclosed unescaped ends =>
      simp only [List.cons_append, quotedBody?, if_neg unclosed, if_neg unescaped, if_pos ends]
  | case8 c d ds unclosed unescaped goesOn ih =>
      simp only [List.cons_append, quotedBody?, if_neg unclosed, if_neg unescaped,
        if_neg goesOn] at ih ⊢
      rw [ih]

/-- Without a quote the body of a string is not closed. -/
theorem tripleBody?_eq_none {q : Char} {chars : List Char} (free : q ∉ chars) :
    tripleBody? q chars = none := by
  induction chars with
  | nil => rfl
  | cons c chars ih =>
      obtain ⟨differs, others⟩ := not_or.mp fun member => free (List.mem_cons.mpr member)
      have unlike : (q == c) = false := beq_false_of_ne differs
      simp only [tripleBody?, List.isPrefixOf, unlike, Bool.false_and, Bool.false_eq_true,
        ↓reduceIte, ih others, Option.map_none]

/-- Three quotes do not lie across the end of a text that does not end with a quote. -/
theorem tripleBody?_append {q : Char} (front rest : List Char)
    (apart : front.getLast? ≠ some q) :
    tripleBody? q (front ++ rest) =
      (tripleBody? q front).or ((tripleBody? q rest).map (· + front.length)) := by
  induction front with
  | nil =>
      rw [List.nil_append, tripleBody?, Option.none_or]
      exact Option.map_id'.symm
  | cons c front ih =>
      have same : [q, q, q].isPrefixOf (c :: (front ++ rest)) =
          [q, q, q].isPrefixOf (c :: front) := by
        rcases front with _ | ⟨d, _ | ⟨e, front⟩⟩
        · have unlike : (q == c) = false :=
            beq_false_of_ne fun equal => apart (by rw [equal]; rfl)
          simp only [List.isPrefixOf, unlike, Bool.false_and]
        · have unlike : (q == d) = false :=
            beq_false_of_ne fun equal => apart (by rw [equal]; rfl)
          simp only [List.cons_append, List.isPrefixOf, unlike, Bool.false_and, Bool.and_false]
        · simp only [List.cons_append, List.isPrefixOf]
      rw [List.cons_append, tripleBody?, tripleBody?, same]
      split
      case isTrue => rfl
      case isFalse =>
        have others : front.getLast? ≠ some q := by
          cases front with
          | nil => simp
          | cons d front => exact apart
        rw [ih others, List.length_cons]
        cases tripleBody? q front with
        | some n => rfl
        | none =>
            rw [Option.none_or, Option.map_none, Option.none_or, Option.map_map]
            rfl

section Between

variable {between : List Char}

/-- Three quotes are not found in lines without quotes. -/
theorem tripleBody?_between {q : Char} (breaks : '\n' ≠ q) (free : q ∉ between)
    (line back : List Char) :
    tripleBody? q (line ++ '\n' :: (between ++ back)) =
      (tripleBody? q (line ++ ['\n'])).or
        ((tripleBody? q back).map (· + (between.length + (line.length + 1)))) := by
  have ended : (line ++ ['\n']).getLast? ≠ some q := by
    rw [List.getLast?_concat]
    exact fun same => breaks (Option.some.inj same)
  have unquoted : between.getLast? ≠ some q :=
    fun last => free (List.mem_of_getLast? last)
  have regrouped : line ++ '\n' :: (between ++ back) = (line ++ ['\n']) ++ (between ++ back) := by
    rw [List.append_assoc, List.singleton_append]
  rw [regrouped, tripleBody?_append _ _ ended, tripleBody?_append _ _ unquoted,
    tripleBody?_eq_none free, Option.none_or, Option.map_map, List.length_append,
    List.length_singleton]
  congr 2
  funext n
  exact Nat.add_assoc n _ _

/-- A string that ends before lines without quotes is there without them. -/
theorem quoted?_between (free : ∀ c ∈ between, c ≠ '"' ∧ c ≠ '\'') (line back : List Char)
    (inside : ∀ n ∈ quoted? (line ++ '\n' :: back), n ≤ line.length + 1) :
    quoted? (line ++ '\n' :: (between ++ back)) = quoted? (line ++ '\n' :: back) := by
  rcases line with _ | ⟨q, line⟩
  · have unquoted : ∀ rest, quoted? ('\n' :: rest) = none := fun rest => rfl
    rw [List.nil_append, List.nil_append, unquoted, unquoted]
  by_cases quote : q = '"' ∨ q = '\''
  case neg => simp only [List.cons_append, quoted?, if_neg quote]
  have breaks : '\n' ≠ q := by rintro rfl; simp at quote
  have absent : q ∉ between := fun member => by
    obtain ⟨double, single⟩ := free q member
    exact quote.elim double single
  by_cases twice : [q, q].isPrefixOf line = true
  case neg =>
    have unbroken : '\n' ∉ [q, q] := by simp [breaks]
    have once : ∀ rest, [q, q].isPrefixOf (line ++ '\n' :: rest) = false := fun rest => by
      rw [isPrefixOf_line unbroken, Bool.eq_false_iff.mpr twice]
    rw [List.cons_append, List.cons_append, quoted?_single quote (once _),
      quoted?_single quote (once _), quotedBody?_line (Ne.symm breaks) line back]
  case pos =>
    obtain ⟨line, rfl⟩ := List.isPrefixOf_iff_prefix.mp twice
    have before := tripleBody?_between breaks absent line back
    have without := tripleBody?_between breaks (List.not_mem_nil (a := q)) line back
    rw [List.nil_append] at without
    simp only [List.cons_append, List.nil_append, quoted?_triple quote] at inside ⊢
    rw [before, without]
    rw [without] at inside
    cases first : tripleBody? q (line ++ ['\n']) with
    | some n => rfl
    | none =>
        cases later : tripleBody? q back with
        | none => rfl
        | some n =>
            -- The string would end behind the lines without quotes.
            have far := inside _ (by rw [first, later]; rfl)
            have positive := pos_of_tripleBody? later
            simp only [List.length_cons, List.length_nil] at far
            omega

/-- A string that ends in its line does not depend on unquoted text behind it. -/
theorem stringLength_between (free : ∀ c ∈ between, c ≠ '"' ∧ c ≠ '\'') (line back : List Char)
    (inside : stringLength (line ++ '\n' :: back) ≤ line.length + 1) :
    stringLength (line ++ '\n' :: (between ++ back)) = stringLength (line ++ '\n' :: back) := by
  have letters : ∀ rest, (line ++ '\n' :: rest).takeWhile isStringLetter =
      line.takeWhile isStringLetter := Text.takeWhile_upTo rfl line
  have short := length_takeWhile_le isStringLetter line
  simp only [stringLength, letters, List.drop_append_of_le_length short] at inside ⊢
  by_cases few : (line.takeWhile isStringLetter).length ≤ 2
  case neg => rw [if_neg few, if_neg few]
  rw [if_pos few] at inside
  rw [if_pos few, if_pos few, quoted?_between free]
  intro n found
  rw [Option.mem_def.mp found] at inside
  rw [List.length_drop]
  dsimp only at inside
  omega

/-- **Lines without quotes can come between lines.**  A lexeme that ends before them is there
without them. -/
theorem next?_between (free : ∀ c ∈ between, c ≠ '"' ∧ c ≠ '\'') (line back : List Char)
    {cls : LexemeClass} {n : Nat} (found : next? (line ++ '\n' :: back) = some (cls, n))
    (inside : n ≤ line.length + 1) :
    next? (line ++ '\n' :: (between ++ back)) = some (cls, n) := by
  simp only [next?, Option.orElse_eq_orElse, Option.orElse_eq_or] at found ⊢
  refine sized_or_eq found (fun _ => blankLength_keepsToLine.eq line back _) fun found => ?_
  refine sized_or_eq found (fun _ => continuationLength_line line back _) fun found => ?_
  refine sized_or_eq found (fun _ => commentLength_keepsToLine.eq line back _) fun found => ?_
  refine sized_or_eq found (fun _ => lineBreakLength_line line back _) fun found => ?_
  refine sized_or_eq found (fun small => stringLength_between free line back ?_) fun found => ?_
  · rcases small with none | ⟨-, same⟩ <;> omega
  refine sized_or_eq found (fun _ => numberLength_keepsToLine.eq line back _) fun found => ?_
  refine sized_or_eq found (fun _ => wordLength_keepsToLine.eq line back _) fun found => ?_
  rw [mark?_line] at found ⊢
  exact found

end Between

end Lexeme

end DocSketch
