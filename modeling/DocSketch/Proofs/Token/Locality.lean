import DocSketch.Proofs.Token.Words

/-!
# Lexemes do not depend on what comes later

A lexeme that lies within the front of a text is still there when a closing parenthesis
stands in the place of all that follows this front: no lexeme but that parenthesis goes on
with it, and none is closed by it.

* `Lexeme.Local`: a measure of the lexeme at the start of a text that has this property.
* `Lexeme.next?_local`: the lexeme that a text starts with, of any class.
-/

namespace DocSketch

namespace Lexeme

variable {front more : List Char}

/-- What is measured within the front of a text stays the same if a closing parenthesis
stands in the place of the rest. -/
def Local (measure : List Char → Nat) : Prop :=
  ∀ front more : List Char, measure (front ++ more) ≤ front.length →
    measure (front ++ [')']) = measure (front ++ more)

/-- The same for a measure that may find nothing. -/
def LocalOption (measure : List Char → Option Nat) : Prop :=
  ∀ front more : List Char, (∀ n ∈ measure (front ++ more), n ≤ front.length) →
    measure (front ++ [')']) = measure (front ++ more)

/-- A run that a parenthesis stops does not depend on what is behind one. -/
theorem takeWhile_local {p : Char → Bool} (stops : p ')' = false) (front more : List Char)
    (inside : ((front ++ more).takeWhile p).length ≤ front.length) :
    (front ++ [')']).takeWhile p = (front ++ more).takeWhile p := by
  induction front with
  | nil =>
      have none : more.takeWhile p = [] := List.eq_nil_of_length_eq_zero (Nat.le_zero.mp inside)
      rw [List.nil_append, List.nil_append, none]
      exact List.takeWhile_cons_of_neg (by rw [stops]; exact Bool.false_ne_true)
  | cons c front ih =>
      rw [List.cons_append, List.cons_append]
      by_cases passes : p c = true
      · rw [List.cons_append, List.takeWhile_cons_of_pos passes] at inside
        rw [List.takeWhile_cons_of_pos passes, List.takeWhile_cons_of_pos passes,
          ih (Nat.le_of_succ_le_succ inside)]
      · rw [List.takeWhile_cons_of_neg passes, List.takeWhile_cons_of_neg passes]

/-- A run that goes on behind the front of a text ends before a closing parenthesis. -/
theorem takeWhile_closed {p : Char → Bool} (stops : p ')' = false) (front more : List Char)
    (outside : front.length < ((front ++ more).takeWhile p).length) :
    (front ++ [')']).takeWhile p = front := by
  induction front with
  | nil => exact List.takeWhile_cons_of_neg (by rw [stops]; exact Bool.false_ne_true)
  | cons c front ih =>
      rw [List.cons_append] at outside ⊢
      by_cases passes : p c = true
      · rw [List.takeWhile_cons_of_pos passes] at outside ⊢
        rw [ih (Nat.lt_of_succ_lt_succ outside)]
      · rw [List.takeWhile_cons_of_neg passes] at outside
        exact absurd outside (Nat.not_lt_zero _)

/-- A pattern without a closing parenthesis. -/
theorem isPrefixOf_local {pattern : List Char} (free : ')' ∉ pattern) (front more : List Char)
    (inside : pattern.isPrefixOf (front ++ more) = true → pattern.length ≤ front.length) :
    pattern.isPrefixOf (front ++ [')']) = pattern.isPrefixOf (front ++ more) := by
  induction pattern generalizing front with
  | nil => rfl
  | cons d pattern ih =>
      obtain ⟨other, others⟩ := not_or.mp fun member => free (List.mem_cons.mpr member)
      cases front with
      | nil =>
          have differs : (d == ')') = false := beq_false_of_ne (Ne.symm other)
          have fails : ¬(d :: pattern).isPrefixOf more = true := fun holds =>
            absurd (inside holds) (Nat.not_succ_le_zero _)
          rw [List.nil_append, List.nil_append, Bool.eq_false_iff.mpr fails]
          simp only [List.isPrefixOf, differs, Bool.false_and]
      | cons c front =>
          simp only [List.cons_append, List.isPrefixOf] at inside ⊢
          by_cases same : (d == c) = true
          · simp only [same, Bool.true_and] at inside ⊢
            exact ih others front fun holds => Nat.le_of_succ_le_succ (inside holds)
          · simp only [Bool.eq_false_iff.mpr same, Bool.false_and]

theorem blankLength_local : Local blankLength := by
  intro front more inside
  rw [blankLength, blankLength, takeWhile_local rfl front more inside]

theorem continuationLength_local : Local continuationLength := by
  intro front more inside
  rcases front with _ | ⟨a, _ | ⟨b, _ | ⟨c, front⟩⟩⟩
  · exact (Nat.le_zero.mp inside).symm ▸ rfl
  · have none : continuationLength ([a] ++ more) = 0 := by
      revert inside
      unfold continuationLength
      split <;> simp
    rw [none]
    unfold continuationLength
    split <;> simp_all
  · revert inside
    unfold continuationLength
    split <;> split <;> simp_all
  · revert inside
    unfold continuationLength
    split <;> split <;> simp_all

theorem lineBreakLength_local : Local lineBreakLength := by
  intro front more inside
  rcases front with _ | ⟨a, _ | ⟨b, front⟩⟩
  · exact (Nat.le_zero.mp inside).symm ▸ rfl
  · revert inside
    unfold lineBreakLength
    split <;> split <;> simp_all
  · unfold lineBreakLength
    split <;> split <;> simp_all

/-- A run of characters that ends within the front of a text. -/
theorem takeWhile_of_lt {p : Char → Bool} (front more other : List Char)
    (inside : ((front ++ more).takeWhile p).length < front.length) :
    (front ++ other).takeWhile p = (front ++ more).takeWhile p := by
  induction front with
  | nil => exact absurd inside (Nat.not_lt_zero _)
  | cons c front ih =>
      rw [List.cons_append, List.cons_append]
      by_cases passes : p c = true
      · rw [List.cons_append, List.takeWhile_cons_of_pos passes] at inside
        rw [List.takeWhile_cons_of_pos passes, List.takeWhile_cons_of_pos passes,
          ih (Nat.lt_of_succ_lt_succ inside)]
      · rw [List.takeWhile_cons_of_neg passes, List.takeWhile_cons_of_neg passes]

/-- A closing parenthesis would belong to a comment before it, so the comment has to end
earlier. -/
theorem commentLength_local (nonempty : front ≠ [])
    (inside : commentLength (front ++ more) = 0 ∨ commentLength (front ++ more) < front.length) :
    commentLength (front ++ [')']) = commentLength (front ++ more) := by
  cases front with
  | nil => exact absurd rfl nonempty
  | cons c front =>
      by_cases marked : c = '#'
      · subst marked
        simp only [List.cons_append, commentLength, List.length_cons] at inside ⊢
        have shorter : ((front ++ more).takeWhile fun c => !isBreak c).length < front.length := by
          omega
        rw [takeWhile_of_lt front more [')'] shorter]
      · have none : ∀ rest, commentLength (c :: rest) = 0 := by
          intro rest
          unfold commentLength
          split
          case h_1 same => exact absurd (List.cons.inj same).1 marked
          case h_2 => rfl
        rw [List.cons_append, List.cons_append, none, none]

/-- The body of a string has its closing quote at least. -/
theorem pos_of_quotedBody? {q : Char} {chars : List Char} {n : Nat}
    (found : n ∈ quotedBody? q chars) : 0 < n := by
  unfold quotedBody? at found
  split at found
  · cases found
  · split at found <;> cases found
    exact Nat.one_pos
  · split at found
    · cases found
      exact Nat.one_pos
    · split at found
      · split at found
        · cases found
        · obtain ⟨m, -, rfl⟩ := Option.map_eq_some_iff.mp found
          exact Nat.succ_pos _
      · split at found
        · cases found
        · obtain ⟨m, -, rfl⟩ := Option.map_eq_some_iff.mp found
          exact Nat.succ_pos _

/-- The body of a string has its closing quotes at least. -/
theorem pos_of_tripleBody? {q : Char} {chars : List Char} {n : Nat}
    (found : n ∈ tripleBody? q chars) : 0 < n := by
  unfold tripleBody? at found
  split at found
  · cases found
  · split at found
    · cases found
      exact Nat.succ_pos _
    · obtain ⟨m, -, rfl⟩ := Option.map_eq_some_iff.mp found
      exact Nat.succ_pos _

/-- What is found behind `k` characters is bounded as it is with them. -/
theorem bounded_of_map {found : Option Nat} {k bound : Nat}
    (inside : ∀ n ∈ found.map (· + k), n ≤ bound + k) : ∀ n ∈ found, n ≤ bound := by
  intro n member
  have := inside (n + k) (Option.mem_map_of_mem _ member)
  omega

/-- Nothing of a positive length fits in no text. -/
theorem eq_none_of_bounded {found : Option Nat} (positive : ∀ n ∈ found, 0 < n)
    (inside : ∀ n ∈ found, n ≤ 0) : found = none := by
  cases found with
  | none => rfl
  | some n => exact absurd (inside n rfl) (Nat.not_le.mpr (positive n rfl))

/-- A quote closes the body of a string. -/
theorem quotedBody?_closes (q : Char) (rest : List Char) : quotedBody? q (q :: rest) = some 1 := by
  cases rest <;> simp only [quotedBody?, if_true]

/-- A body with a character has two with its closing quote. -/
theorem two_le_of_quotedBody? {q c : Char} (other : c ≠ q) {rest : List Char} {n : Nat}
    (found : n ∈ quotedBody? q (c :: rest)) : 2 ≤ n := by
  cases rest with
  | nil =>
      rw [quotedBody?, if_neg other] at found
      cases found
  | cons d rest =>
      rw [quotedBody?, if_neg other] at found
      split at found
      · split at found
        · cases found
        · obtain ⟨m, -, rfl⟩ := Option.map_eq_some_iff.mp found
          exact Nat.le_add_left 2 m
      · split at found
        · cases found
        · obtain ⟨m, inner, rfl⟩ := Option.map_eq_some_iff.mp found
          exact Nat.succ_le_succ (pos_of_quotedBody? inner)

theorem quotedBody?_local {q : Char} (quote : q ≠ ')') : LocalOption (quotedBody? q) := by
  intro front
  induction front using quotedBody?.induct q with
  | case1 =>
      intro more inside
      rw [eq_none_of_bounded (fun _ => pos_of_quotedBody?) inside]
      simp only [List.nil_append, quotedBody?, if_neg (Ne.symm quote)]
  | case2 =>
      intro more inside
      simp only [List.cons_append, quotedBody?_closes]
  | case3 c other =>
      intro more inside
      have none : quotedBody? q ([c] ++ more) = none := by
        cases found : quotedBody? q ([c] ++ more) with
        | none => rfl
        | some n =>
            rw [found] at inside
            exact absurd (inside n rfl) (Nat.not_le.mpr (two_le_of_quotedBody? other found))
      rw [none]
      simp only [List.cons_append, List.nil_append, quotedBody?, if_neg other,
        if_neg (Ne.symm quote), Option.map_none, ite_self]
  | case4 d ds =>
      intro more inside
      simp only [List.cons_append, quotedBody?_closes]
  | case5 ds other =>
      intro more inside
      simp only [List.cons_append, quotedBody?, if_neg other, if_true]
  | case6 d ds plain other ih =>
      intro more inside
      simp only [List.cons_append, quotedBody?, if_neg other, if_true, if_neg plain] at inside ⊢
      rw [ih more (bounded_of_map inside)]
  | case7 c d ds other unescaped ends =>
      intro more inside
      simp only [List.cons_append, quotedBody?, if_neg other, if_neg unescaped, if_pos ends]
  | case8 c d ds other unescaped goesOn ih =>
      intro more inside
      simp only [List.cons_append, quotedBody?, if_neg other, if_neg unescaped,
        if_neg goesOn] at inside ih ⊢
      rw [ih more (bounded_of_map inside)]

theorem tripleBody?_local {q : Char} (quote : q ≠ ')') : LocalOption (tripleBody? q) := by
  have free : ')' ∉ [q, q, q] := by simp [Ne.symm quote]
  intro front
  induction front with
  | nil =>
      intro more inside
      rw [eq_none_of_bounded (fun _ => pos_of_tripleBody?) inside]
      have fails : [q, q, q].isPrefixOf [')'] = false := by simp [List.isPrefixOf]
      simp only [List.nil_append, tripleBody?, fails, Bool.false_eq_true, if_false,
        Option.map_none]
  | cons c front ih =>
      intro more inside
      have same : [q, q, q].isPrefixOf (c :: front ++ [')']) =
          [q, q, q].isPrefixOf (c :: front ++ more) := by
        refine isPrefixOf_local free (c :: front) more fun holds => ?_
        refine inside 3 ?_
        rw [List.cons_append] at holds ⊢
        rw [tripleBody?, if_pos holds]
        rfl
      simp only [List.cons_append, tripleBody?] at inside same ⊢
      rw [same]
      by_cases holds : [q, q, q].isPrefixOf (c :: (front ++ more)) = true
      · rw [if_pos holds, if_pos holds]
      · rw [if_neg holds] at inside
        rw [if_neg holds, if_neg holds, ih more (bounded_of_map inside)]

/-- A string has an opening and a closing quote. -/
theorem two_le_of_quoted? {chars : List Char} {n : Nat} (found : n ∈ quoted? chars) : 2 ≤ n := by
  unfold quoted? at found
  split at found
  · cases found
  · split at found
    · dsimp only at found
      split at found
      · obtain triple | ⟨-, single⟩ := Option.or_eq_some_iff.mp found
        · obtain ⟨m, -, rfl⟩ := Option.map_eq_some_iff.mp triple
          omega
        · obtain ⟨m, inner, rfl⟩ := Option.map_eq_some_iff.mp single
          exact Nat.succ_le_succ (pos_of_quotedBody? inner)
      · obtain ⟨m, inner, rfl⟩ := Option.map_eq_some_iff.mp found
        exact Nat.succ_le_succ (pos_of_quotedBody? inner)
    · cases found

/-- Three quotes in a row open a string that ends, or else an empty string stands before
another quote. -/
theorem quoted?_triple {q : Char} (quote : q = '"' ∨ q = '\'') (rest : List Char) :
    quoted? (q :: q :: q :: rest) = ((tripleBody? q rest).map (· + 3)).or (some 2) := by
  simp [quoted?, quote, quotedBody?_closes, List.isPrefixOf]

/-- A quote that is not doubled opens a body with one quote. -/
theorem quoted?_single {q : Char} (quote : q = '"' ∨ q = '\'') {rest : List Char}
    (once : [q, q].isPrefixOf rest = false) :
    quoted? (q :: rest) = (quotedBody? q rest).map (· + 1) := by
  simp only [quoted?, if_pos quote, once, Bool.false_eq_true, if_false]

theorem quoted?_local : LocalOption quoted? := by
  intro front more inside
  rcases front with _ | ⟨q, front⟩
  · have positive : ∀ n ∈ quoted? ([] ++ more), 0 < n := fun n found =>
      Nat.lt_of_lt_of_le Nat.zero_lt_two (two_le_of_quoted? found)
    rw [eq_none_of_bounded positive inside]
    rfl
  by_cases quote : q = '"' ∨ q = '\''
  case neg => simp only [List.cons_append, quoted?, if_neg quote]
  have other : q ≠ ')' := by rintro rfl; simp at quote
  have free : ')' ∉ [q, q] := by simp [Ne.symm other]
  -- Two equal quotes could be an empty string or the start of three, so what follows decides.
  by_cases twice : [q, q].isPrefixOf (front ++ more) = true
  case neg =>
    have once : [q, q].isPrefixOf (front ++ more) = false := Bool.eq_false_iff.mpr twice
    have still := isPrefixOf_local free front more fun holds => absurd holds twice
    rw [List.cons_append, quoted?_single quote once] at inside
    rw [List.cons_append, List.cons_append, quoted?_single quote once,
      quoted?_single quote (still.trans once),
      quotedBody?_local other front more (bounded_of_map inside)]
  case pos =>
    -- The text starts with three quotes, of which the front has one, two or all.
    rw [List.isPrefixOf_iff_prefix] at twice
    obtain ⟨rest, three⟩ := twice
    rcases front with _ | ⟨a, _ | ⟨b, front⟩⟩
    · have opened : quoted? ([q] ++ more) = ((tripleBody? q rest).map (· + 3)).or (some 2) := by
        rw [List.nil_append] at three
        rw [← three]
        exact quoted?_triple quote rest
      cases found : quoted? ([q] ++ more) with
      | none =>
          rw [opened, Option.or_eq_none_iff] at found
          cases found.2
      | some n => exact absurd (inside n found) (Nat.not_le.mpr (two_le_of_quoted? found))
    · obtain ⟨rfl, rfl⟩ : q = a ∧ q :: rest = more := List.cons.inj three
      have empty : tripleBody? q rest = none := by
        cases found : tripleBody? q rest with
        | none => rfl
        | some n =>
            have long : n + 3 ≤ 2 := inside (n + 3) (by
              simp only [List.cons_append, List.nil_append, quoted?_triple quote, found]
              rfl)
            omega
      have once : [q, q].isPrefixOf [q, ')'] = false := by simp [List.isPrefixOf, other]
      simp only [List.cons_append, List.nil_append, quoted?_single quote once, quotedBody?_closes,
        quoted?_triple quote, empty]
      rfl
    · obtain ⟨rfl, others⟩ : q = a ∧ q :: rest = b :: (front ++ more) := List.cons.inj three
      obtain ⟨rfl, -⟩ := List.cons.inj others
      have bounded : ∀ n ∈ tripleBody? q (front ++ more), n ≤ front.length := by
        intro n found
        have long : n + 3 ≤ front.length + 3 := inside (n + 3) (by
          simp only [List.cons_append, quoted?_triple quote, Option.mem_def.mp found]
          rfl)
        omega
      simp only [List.cons_append, quoted?_triple quote,
        tripleBody?_local other front more bounded]

theorem stringLength_local : Local stringLength := by
  intro front more inside
  by_cases short : ((front ++ more).takeWhile isStringLetter).length ≤ front.length
  · have letters := takeWhile_local rfl front more short
    simp only [stringLength, letters, List.drop_append_of_le_length short] at inside ⊢
    by_cases few : ((front ++ more).takeWhile isStringLetter).length ≤ 2
    · rw [if_pos few] at inside
      rw [if_pos few, if_pos few, quoted?_local _ more]
      intro n found
      rw [Option.mem_def.mp found] at inside
      rw [List.length_drop]
      dsimp only at inside
      omega
    · rw [if_neg few, if_neg few]
  · -- The front consists of letters, and no string follows them within it.
    have all := takeWhile_closed rfl front more (Nat.not_le.mp short)
    have closed : stringLength (front ++ [')']) = 0 := by
      simp [stringLength, all, quoted?]
    rw [closed]
    have nothing : stringLength (front ++ more) = 0 ∨
        ((front ++ more).takeWhile isStringLetter).length ≤ stringLength (front ++ more) := by
      unfold stringLength
      dsimp only
      split
      · split
        · exact .inr (Nat.le_add_right _ _)
        · exact .inl rfl
      · exact .inl rfl
    omega

theorem wordLength_local : Local wordLength := by
  intro front more inside
  cases front with
  | nil => exact (Nat.le_zero.mp inside).symm ▸ rfl
  | cons c front =>
      simp only [List.cons_append, wordLength, List.length_cons] at inside ⊢
      by_cases starts : isWordStart c = true
      · rw [if_pos starts] at inside
        rw [if_pos starts, if_pos starts, takeWhile_local rfl front more (by omega)]
      · rw [if_neg starts, if_neg starts]

/-- A parenthesis is a digit to no base. -/
theorem radixDigit?_closed {c : Char} {digit : Char → Bool} (known : radixDigit? c = some digit) :
    digit ')' = false := by
  unfold radixDigit? at known
  split at known
  · cases known
    rfl
  · split at known
    · cases known
      rfl
    · split at known <;> cases known
      rfl

/-- A number with a base starts with a zero. -/
theorem radixLength_of_ne {c : Char} (other : c ≠ '0') (rest : List Char) :
    radixLength (c :: rest) = 0 := by
  unfold radixLength
  split
  case h_1 same => exact absurd (List.cons.inj same).1 other
  case h_2 => rfl

theorem radixLength_local : Local radixLength := by
  intro front more inside
  rcases front with _ | ⟨c, front⟩
  · exact (Nat.le_zero.mp inside).symm ▸ rfl
  by_cases zero : c = '0'
  case neg =>
    rw [List.cons_append, List.cons_append, radixLength_of_ne zero, radixLength_of_ne zero]
  subst zero
  rcases front with _ | ⟨d, front⟩
  · have long : radixLength (['0'] ++ more) = 0 ∨ 2 ≤ radixLength (['0'] ++ more) := by
      unfold radixLength
      split
      · split
        · dsimp only
          split
          · exact .inl rfl
          · exact .inr (Nat.le_add_right _ _)
        · exact .inl rfl
      · exact .inl rfl
    have none : radixLength (['0'] ++ more) = 0 := long.resolve_right fun two =>
      absurd (Nat.le_trans two inside) (by decide)
    rw [none]
    rfl
  · simp only [List.cons_append, radixLength, List.length_cons] at inside ⊢
    cases known : radixDigit? d with
    | none => rfl
    | some digit =>
        simp only [known] at inside ⊢
        have short : ((front ++ more).takeWhile digit).length ≤ front.length := by
          split at inside <;> omega
        rw [takeWhile_local (radixDigit?_closed known) front more short]

theorem fractionLength_local : Local fractionLength := by
  intro front more inside
  cases front with
  | nil => exact (Nat.le_zero.mp inside).symm ▸ rfl
  | cons c front =>
      by_cases point : c = '.'
      · subst point
        simp only [List.cons_append, fractionLength, List.length_cons] at inside ⊢
        rw [takeWhile_local rfl front more (by omega)]
      · simp [fractionLength, point]

/-- A measure of what is left behind `k` characters of the front. -/
theorem Local.drop {measure : List Char → Nat} (isLocal : Local measure) (front more : List Char)
    {k : Nat} (inside : k + measure ((front ++ more).drop k) ≤ front.length) :
    measure ((front ++ [')']).drop k) = measure ((front ++ more).drop k) := by
  have within : k ≤ front.length := by omega
  rw [List.drop_append_of_le_length within] at inside
  rw [List.drop_append_of_le_length within, List.drop_append_of_le_length within]
  refine isLocal (front.drop k) more ?_
  rw [List.length_drop]
  omega

theorem mantissaLength_local : Local mantissaLength := by
  intro front more inside
  rcases front with _ | ⟨c, front⟩
  · exact (Nat.le_zero.mp inside).symm ▸ rfl
  simp only [List.cons_append, mantissaLength, List.length_cons] at inside ⊢
  by_cases digit : c.isDigit = true
  · simp only [if_pos digit] at inside ⊢
    rw [takeWhile_local rfl front more (by omega), fractionLength_local.drop front more (by omega)]
  by_cases point : c = '.'
  case neg => simp only [if_neg digit, if_neg point]
  simp only [if_neg digit, if_pos point] at inside ⊢
  rcases front with _ | ⟨d, front⟩
  · cases more with
    | nil => rfl
    | cons d more =>
        by_cases fraction : d.isDigit = true
        · simp only [List.nil_append, if_pos fraction, List.length_nil] at inside
          omega
        · simp only [List.nil_append, if_neg fraction]
          rfl
  · simp only [List.cons_append, List.length_cons] at inside ⊢
    by_cases fraction : d.isDigit = true
    · rw [if_pos fraction] at inside
      rw [if_pos fraction, if_pos fraction, takeWhile_local rfl front more (by omega)]
    · rw [if_neg fraction, if_neg fraction]

theorem exponentLength_local : Local exponentLength := by
  intro front more inside
  rcases front with _ | ⟨c, front⟩
  · exact (Nat.le_zero.mp inside).symm ▸ rfl
  simp only [List.cons_append, exponentLength, List.length_cons] at inside ⊢
  by_cases letter : c = 'e' ∨ c = 'E'
  case neg => simp only [if_neg letter]
  simp only [if_pos letter] at inside ⊢
  rcases front with _ | ⟨d, front⟩
  · have none : ∀ digits sign, (if digits = 0 then 0 else 1 + sign + digits) ≤ 0 + 1 →
        (if digits = 0 then 0 else 1 + sign + digits) = 0 := by
      intro digits sign short
      split at short
      · simp_all
      · omega
    rw [none _ _ inside]
    rfl
  · simp only [List.cons_append, List.head?_cons] at inside ⊢
    by_cases signed : d = '+' ∨ d = '-'
    · simp only [Option.some.injEq, if_pos signed, List.drop_succ_cons, List.drop_zero,
        List.length_cons] at inside ⊢
      rw [takeWhile_local rfl front more (by split at inside <;> omega)]
    · simp only [Option.some.injEq, if_neg signed, List.drop_zero] at inside ⊢
      have short : ((d :: front ++ more).takeWhile isDigitPart).length ≤ (d :: front).length := by
        rw [List.cons_append]
        split at inside <;> omega
      simp only [← List.cons_append, takeWhile_local rfl (d :: front) more short]

theorem imaginaryLength_local : Local imaginaryLength := by
  intro front more inside
  cases front with
  | nil => exact (Nat.le_zero.mp inside).symm ▸ rfl
  | cons c front => rfl

theorem decimalLength_local : Local decimalLength := by
  intro front more inside
  unfold decimalLength at inside ⊢
  dsimp only at inside ⊢
  have mantissa : mantissaLength (front ++ [')']) = mantissaLength (front ++ more) :=
    mantissaLength_local front more (by split at inside <;> omega)
  rw [mantissa]
  by_cases none : mantissaLength (front ++ more) = 0
  · rw [if_pos none, if_pos none]
  · rw [if_neg none] at inside
    rw [if_neg none, if_neg none, exponentLength_local.drop front more (by omega),
      imaginaryLength_local.drop front more (by omega)]

theorem numberLength_local : Local numberLength := by
  intro front more inside
  unfold numberLength at inside ⊢
  have radix : radixLength (front ++ [')']) = radixLength (front ++ more) :=
    radixLength_local front more (by split at inside <;> omega)
  rw [radix]
  by_cases none : radixLength (front ++ more) = 0
  · rw [if_pos none] at inside
    rw [if_pos none, if_pos none, decimalLength_local front more inside]
  · rw [if_neg none, if_neg none]

/-- What comes behind a text as long as a prefix does not count. -/
theorem isPrefixOf_of_length_le {pattern front : List Char} (short : pattern.length ≤ front.length)
    (rest : List Char) : pattern.isPrefixOf (front ++ rest) = pattern.isPrefixOf front := by
  rw [Bool.eq_iff_iff, List.isPrefixOf_iff_prefix, List.isPrefixOf_iff_prefix]
  exact ⟨fun begins => List.prefix_of_prefix_length_le begins (List.prefix_append front rest) short,
    fun begins => begins.trans (List.prefix_append front rest)⟩

/-- No mark but the closing parenthesis itself has one. -/
theorem closed_of_mem_marks :
    ∀ mark ∈ marks, ')' ∉ mark.1.toList ∨ mark.1.toList.length = 1 := by
  decide

/-- A mark that fits in a text is found there. -/
theorem mark?_local (nonempty : front ≠ []) {cls : LexemeClass} {n : Nat}
    (found : mark? (front ++ more) = some (cls, n)) (inside : n ≤ front.length) :
    mark? (front ++ [')']) = some (cls, n) := by
  have one : 1 ≤ front.length := List.length_pos_iff.mpr nonempty
  unfold mark? at found ⊢
  obtain ⟨mark, first, same⟩ := Option.map_eq_some_iff.mp found
  obtain ⟨begins, early, late, split, others⟩ := List.find?_eq_some_iff_append.mp first
  have short : mark.1.toList.length ≤ front.length := by
    cases same
    exact inside
  refine Option.map_eq_some_iff.mpr ⟨mark, ?_, same⟩
  refine List.find?_eq_some_iff_append.mpr ⟨?_, early, late, split, fun entry listed => ?_⟩
  · rwa [isPrefixOf_of_length_le short] at begins ⊢
  · have fails := others entry listed
    have member : entry ∈ marks := split ▸ List.mem_append_left _ listed
    obtain free | single := closed_of_mem_marks entry member
    · rwa [isPrefixOf_local free front more fun holds => by simp [holds] at fails]
    · rwa [isPrefixOf_of_length_le (single ▸ one)] at fails ⊢

/-- A class of lexemes that is tried before others keeps its place if its measure is kept. -/
theorem sized_or_eq {own cls : LexemeClass} {old new n : Nat}
    {others others' : Option (LexemeClass × Nat)}
    (found : (sized own old).or others = some (cls, n))
    (kept : old = 0 ∨ cls = own ∧ n = old → new = old)
    (goesOn : others = some (cls, n) → others' = some (cls, n)) :
    (sized own new).or others' = some (cls, n) := by
  obtain here | ⟨absent, later⟩ := Option.or_eq_some_iff.mp found
  · rw [kept (.inr (eq_of_sized here)), here]
    rfl
  · have zero : old = 0 := by
      unfold sized at absent
      split at absent
      case isTrue zero => exact zero
      case isFalse => cases absent
    rw [kept (.inl zero), absent, Option.none_or]
    exact goesOn later

/-- **A lexeme does not depend on what comes later.**  What is skipped may be a comment, which
only ends before the closing parenthesis if more follows in the front. -/
theorem next?_local (nonempty : front ≠ []) {cls : LexemeClass} {n : Nat}
    (found : next? (front ++ more) = some (cls, n)) (inside : n ≤ front.length)
    (ended : cls = .skipped → n < front.length) : next? (front ++ [')']) = some (cls, n) := by
  have kept : ∀ {own : LexemeClass} {measure : List Char → Nat}, Local measure →
      measure (front ++ more) = 0 ∨ cls = own ∧ n = measure (front ++ more) →
        measure (front ++ [')']) = measure (front ++ more) := by
    intro own measure isLocal small
    refine isLocal front more ?_
    obtain zero | ⟨-, same⟩ := small <;> omega
  simp only [next?, Option.orElse_eq_orElse, Option.orElse_eq_or] at found ⊢
  refine sized_or_eq found (kept blankLength_local) fun found => ?_
  refine sized_or_eq found (kept continuationLength_local) fun found => ?_
  refine sized_or_eq found (fun small => ?_) fun found => ?_
  · refine commentLength_local nonempty (small.imp_right fun both => ?_)
    exact both.2 ▸ ended both.1
  refine sized_or_eq found (kept lineBreakLength_local) fun found => ?_
  refine sized_or_eq found (kept stringLength_local) fun found => ?_
  refine sized_or_eq found (kept numberLength_local) fun found => ?_
  refine sized_or_eq found (kept wordLength_local) fun found => ?_
  exact mark?_local nonempty found inside

section Bounds

variable {q : Char} {chars : List Char} {n : Nat}

/-- A run is no longer than the text. -/
theorem length_takeWhile_le (p : Char → Bool) (chars : List Char) :
    (chars.takeWhile p).length ≤ chars.length :=
  (List.takeWhile_prefix p).length_le

theorem quotedBody?_le (found : n ∈ quotedBody? q chars) : n ≤ chars.length := by
  induction chars using quotedBody?.induct q generalizing n with
  | case1 => cases found
  | case2 | case4 =>
      rw [quotedBody?_closes] at found
      cases found
      exact Nat.le_add_left 1 _
  | case3 c other =>
      rw [quotedBody?, if_neg other] at found
      cases found
  | case5 ds other =>
      simp only [quotedBody?, if_neg other, if_true] at found
      cases found
  | case6 d ds plain other ih =>
      simp only [quotedBody?, if_neg other, if_true, if_neg plain] at found
      obtain ⟨m, inner, rfl⟩ := Option.map_eq_some_iff.mp found
      exact Nat.succ_le_succ (Nat.succ_le_succ (ih inner))
  | case7 c d ds other unescaped ends =>
      simp only [quotedBody?, if_neg other, if_neg unescaped, if_pos ends] at found
      cases found
  | case8 c d ds other unescaped goesOn ih =>
      simp only [quotedBody?, if_neg other, if_neg unescaped, if_neg goesOn] at found
      obtain ⟨m, inner, rfl⟩ := Option.map_eq_some_iff.mp found
      exact Nat.succ_le_succ (ih inner)

theorem tripleBody?_le (found : n ∈ tripleBody? q chars) : n ≤ chars.length := by
  induction chars generalizing n with
  | nil => cases found
  | cons c chars ih =>
      rw [tripleBody?] at found
      split at found
      case isTrue closes =>
        cases found
        exact (List.isPrefixOf_iff_prefix.mp closes).length_le
      case isFalse =>
        obtain ⟨m, inner, rfl⟩ := Option.map_eq_some_iff.mp found
        exact Nat.succ_le_succ (ih inner)

theorem quoted?_le (found : n ∈ quoted? chars) : n ≤ chars.length := by
  cases chars with
  | nil => cases found
  | cons q chars =>
      have single : ∀ n ∈ (quotedBody? q chars).map (· + 1), n ≤ (q :: chars).length := by
        intro n found
        obtain ⟨m, inner, rfl⟩ := Option.map_eq_some_iff.mp found
        exact Nat.succ_le_succ (quotedBody?_le inner)
      unfold quoted? at found
      dsimp only at found
      split at found
      · split at found
        case isTrue twice =>
          obtain triple | ⟨-, found⟩ := Option.or_eq_some_iff.mp found
          · obtain ⟨m, inner, rfl⟩ := Option.map_eq_some_iff.mp triple
            have two := (List.isPrefixOf_iff_prefix.mp twice).length_le
            have short := tripleBody?_le inner
            simp only [List.length_drop, List.length_cons, List.length_nil] at short two ⊢
            omega
          · exact single n found
        case isFalse => exact single n found
      · cases found

theorem stringLength_le (chars : List Char) : stringLength chars ≤ chars.length := by
  have letters := length_takeWhile_le isStringLetter chars
  unfold stringLength
  dsimp only
  split
  · split
    case h_1 n found =>
      have short := quoted?_le found
      rw [List.length_drop] at short
      omega
    case h_2 => exact Nat.zero_le _
  · exact Nat.zero_le _

theorem radixLength_le (chars : List Char) : radixLength chars ≤ chars.length := by
  unfold radixLength
  split
  case h_1 c cs =>
    split
    case h_1 digit known =>
      have digits := length_takeWhile_le digit cs
      dsimp only
      split
      · exact Nat.zero_le _
      · simp only [List.length_cons]
        omega
    case h_2 => exact Nat.zero_le _
  case h_2 => exact Nat.zero_le _

theorem fractionLength_le (chars : List Char) : fractionLength chars ≤ chars.length := by
  unfold fractionLength
  split
  case h_1 cs =>
    have digits := length_takeWhile_le isDigitPart cs
    simp only [List.length_cons]
    omega
  case h_2 => exact Nat.zero_le _

theorem mantissaLength_le (chars : List Char) : mantissaLength chars ≤ chars.length := by
  unfold mantissaLength
  split
  case h_1 => exact Nat.le_refl _
  case h_2 c cs =>
    have digits := length_takeWhile_le isDigitPart cs
    have fraction := fractionLength_le (cs.drop (cs.takeWhile isDigitPart).length)
    rw [List.length_drop] at fraction
    split
    · simp only [List.length_cons]
      omega
    · split
      · split
        case h_1 d ds =>
          have digits := length_takeWhile_le isDigitPart ds
          simp only [List.length_cons]
          split <;> omega
        case h_2 => exact Nat.zero_le _
      · exact Nat.zero_le _

theorem exponentLength_le (chars : List Char) : exponentLength chars ≤ chars.length := by
  unfold exponentLength
  split
  case h_1 => exact Nat.le_refl _
  case h_2 c cs =>
    split
    · dsimp only
      generalize (if cs.head? = some '+' ∨ cs.head? = some '-' then 1 else 0) = sign
      have digits := length_takeWhile_le isDigitPart (cs.drop sign)
      rw [List.length_drop] at digits
      simp only [List.length_cons]
      split <;> omega
    · exact Nat.zero_le _

theorem imaginaryLength_le (chars : List Char) : imaginaryLength chars ≤ chars.length := by
  unfold imaginaryLength
  split
  · split <;> simp
  · exact Nat.le_refl _

theorem numberLength_le (chars : List Char) : numberLength chars ≤ chars.length := by
  unfold numberLength
  split
  · unfold decimalLength
    dsimp only
    have mantissa := mantissaLength_le chars
    have exponent := exponentLength_le (chars.drop (mantissaLength chars))
    have imaginary := imaginaryLength_le
      (chars.drop (mantissaLength chars + exponentLength (chars.drop (mantissaLength chars))))
    rw [List.length_drop] at exponent imaginary
    split <;> omega
  · exact radixLength_le chars

/-- A lexeme is part of its text. -/
theorem next?_le {cls : LexemeClass} (found : next? chars = some (cls, n)) : n ≤ chars.length := by
  simp only [next?, Option.orElse_eq_orElse, Option.orElse_eq_or, Option.or_eq_some_iff] at found
  rcases found with blank | ⟨-, hidden | ⟨-, comment | ⟨-, ending | ⟨-, string | ⟨-, number | ⟨-,
    word | ⟨-, mark⟩⟩⟩⟩⟩⟩⟩
  · obtain ⟨-, rfl⟩ := eq_of_sized blank
    exact length_takeWhile_le isBlank chars
  · obtain ⟨-, rfl⟩ := eq_of_sized hidden
    unfold continuationLength
    split <;> simp
  · obtain ⟨-, rfl⟩ := eq_of_sized comment
    unfold commentLength
    split
    case h_1 cs =>
      have inside := length_takeWhile_le (fun c => !isBreak c) cs
      simp only [List.length_cons]
      omega
    case h_2 => exact Nat.zero_le _
  · obtain ⟨-, rfl⟩ := eq_of_sized ending
    unfold lineBreakLength
    split <;> simp
  · obtain ⟨-, rfl⟩ := eq_of_sized string
    exact stringLength_le chars
  · obtain ⟨-, rfl⟩ := eq_of_sized number
    exact numberLength_le chars
  · obtain ⟨-, rfl⟩ := eq_of_sized word
    unfold wordLength
    split
    case h_1 => exact Nat.le_refl _
    case h_2 c cs =>
      have parts := length_takeWhile_le isWordPart cs
      simp only [List.length_cons]
      split <;> omega
  · obtain ⟨entry, listed, same⟩ := Option.map_eq_some_iff.mp mark
    have begins := List.find?_some listed
    cases same
    exact (List.isPrefixOf_iff_prefix.mp begins).length_le

end Bounds

end Lexeme

end DocSketch
