import DocSketch.Proofs.Text.Lines

/-!
# Looking a place up

The line of a place can also be found by going through the lines of the text, one after the
other, while the bytes before them are counted; places at the end of the text or beyond it are
found by counting line breaks.  The search never fails, and where its line starts, how far it
reaches and which number it has can be read off the text.

* `Text.lines`, `searchLines`, `findLine?`: the search.
* `Text.IsLineStart`, `Text.IsFirstLine`, `Text.HasColumn`: where lines start, how far they reach,
  and which places belong to them.
* `LinePoint.Locates`: the line point of a place, read off the text.
* `lineFrom_of_lineStart`: the line of a place is the one that starts before it.
* `lineAt_locates`: the search finds the one line point that locates a place.
-/

namespace DocSketch

namespace Text

variable {cs line before : List Char} {column position : Nat}

/-! ## Lines -/

/-- The lines of a text with their breaks.  Behind a break at the end there is no line. -/
def lines : List Char → List (List Char)
  | [] => []
  | c :: cs =>
    if c = '\n' then ['\n'] :: lines cs
    else
      match lines cs with
      | [] => [[c]]
      | line :: others => (c :: line) :: others

/-- A text without a line break is one line. -/
theorem lines_of_not_mem (unbroken : '\n' ∉ cs) (some : cs ≠ []) : lines cs = [cs] := by
  induction cs with
  | nil => exact absurd rfl some
  | cons c rest ih =>
      have other : c ≠ '\n' := fun same => unbroken (same ▸ List.mem_cons_self)
      have free : '\n' ∉ rest := fun member => unbroken (List.mem_cons_of_mem _ member)
      rw [lines, if_neg other]
      cases rest with
      | nil => rfl
      | cons next rest => rw [ih free (List.cons_ne_nil _ _)]

/-- A line and its break come before the other lines. -/
theorem lines_break (unbroken : '\n' ∉ line) (later : List Char) :
    lines (line ++ '\n' :: later) = (line ++ ['\n']) :: lines later := by
  induction line with
  | nil => rw [List.nil_append, lines, if_pos rfl, List.nil_append]
  | cons c rest ih =>
      have other : c ≠ '\n' := fun same => unbroken (same ▸ List.mem_cons_self)
      have free : '\n' ∉ rest := fun member => unbroken (List.mem_cons_of_mem _ member)
      rw [List.cons_append, lines, if_neg other, ih free]
      rfl

/-- Whether a line starts behind a text. -/
def IsLineStart (before : List Char) : Prop := before = [] ∨ before.getLast? = some '\n'

/-- Whether `line` is what `cs` has up to and including its first line break, or all of `cs` if
there is none. -/
def IsFirstLine (line cs : List Char) : Prop :=
  (∃ body later, '\n' ∉ body ∧ line = body ++ ['\n'] ∧ cs = line ++ later) ∨
    ('\n' ∉ cs ∧ line = cs)

/-- Whether a place belongs to a line: the place behind a line break does not, but the place
behind a line without a break does. -/
def HasColumn (line : List Char) (column : Nat) : Prop :=
  column < byteLength line ∨ (column = byteLength line ∧ '\n' ∉ line)

/-- The first line of a text is what it is split into first. -/
theorem isFirstLine_iff : IsFirstLine line cs ↔ line = (splitLine cs).1 := by
  constructor
  · rintro (⟨body, later, unbroken, rfl, rfl⟩ | ⟨unbroken, rfl⟩)
    · rw [List.append_assoc, List.singleton_append, splitLine_break unbroken]
    · rw [splitLine_of_not_mem unbroken]
  · rintro rfl
    induction cs using line_induction with
    | last cs unbroken =>
        exact .inr ⟨unbroken, congrArg Prod.fst (splitLine_of_not_mem unbroken)⟩
    | next line later unbroken =>
        refine .inl ⟨line, later, unbroken, congrArg Prod.fst (splitLine_break unbroken later), ?_⟩
        rw [splitLine_break unbroken, List.append_assoc, List.singleton_append]

/-- A line starts behind no text, or behind a line break. -/
theorem isLineStart_of_not_mem (start : IsLineStart before) (unbroken : '\n' ∉ before) :
    before = [] :=
  start.resolve_right fun last => unbroken (List.mem_of_getLast? last)

/-- What is a start of a line depends on what comes behind the last break only. -/
theorem isLineStart_break (line : List Char) {later : List Char} :
    IsLineStart (line ++ '\n' :: later) ↔ IsLineStart later := by
  cases later with
  | nil => simp [IsLineStart]
  | cons c later => simp [IsLineStart, List.getLast?_append, List.getLast?_cons_cons]

/-- Every place of a text belongs to a line of it. -/
theorem exists_lineStart (within : position ≤ byteLength cs) :
    ∃ before after column, cs = before ++ after ∧ IsLineStart before ∧
      byteLength before + column = position ∧ HasColumn (splitLine after).1 column := by
  induction cs using line_induction generalizing position with
  | last cs unbroken =>
      refine ⟨[], cs, position, rfl, .inl rfl, Nat.zero_add _, ?_⟩
      rw [splitLine_of_not_mem unbroken]
      exact within.lt_or_eq.imp_right fun last => ⟨last, unbroken⟩
  | next line later unbroken ih =>
      by_cases early : position < byteLength (line ++ ['\n'])
      · refine ⟨[], line ++ '\n' :: later, position, rfl, .inl rfl, Nat.zero_add _, .inl ?_⟩
        rwa [splitLine_break unbroken]
      · obtain ⟨more, rfl⟩ := Nat.exists_eq_add_of_le (Nat.le_of_not_lt early)
        rw [byteLength_break line later] at within
        obtain ⟨before, after, column, rfl, start, place, inside⟩ :=
          ih (Nat.le_of_add_le_add_left within)
        refine ⟨line ++ '\n' :: before, after, column, ?_, (isLineStart_break line).mpr start, ?_,
          inside⟩
        · rw [List.append_assoc, List.cons_append]
        · rw [byteLength_break, Nat.add_assoc, place]

end Text

open Text

variable {cs before after : List Char} {number position column : Nat}

/-! ## The line of a place -/

/-- A place in the first line. -/
theorem lineFrom_of_hasColumn (inside : HasColumn (splitLine cs).1 column) :
    lineFrom number cs column = ⟨number, (splitLine cs).1, column⟩ := by
  rcases inside with early | ⟨rfl, unbroken⟩
  · exact lineFrom_first early
  · -- Without a break the first line is the whole text, and the place is its end.
    have free : '\n' ∉ cs := by
      rcases isFirstLine_iff.mpr rfl with ⟨body, later, -, same, -⟩ | ⟨free, -⟩
      · exact absurd (same ▸ List.mem_append_right body List.mem_cons_self) unbroken
      · exact free
    rw [splitLine_of_not_mem free, lineFrom_end number cs (Nat.le_refl _),
      List.count_eq_zero_of_not_mem free, lastLine_of_not_mem free, Nat.add_zero]

/-- The line of a place is the one that starts before it. -/
theorem lineFrom_of_lineStart (number : Nat) (start : IsLineStart before)
    (inside : HasColumn (splitLine after).1 column) :
    lineFrom number (before ++ after) (byteLength before + column) =
      ⟨number + before.count '\n', (splitLine after).1, column⟩ := by
  -- The induction is on the lines that end before the place.
  induction before using line_induction generalizing number with
  | last before unbroken =>
      obtain rfl := isLineStart_of_not_mem start unbroken
      rw [List.nil_append, byteLength_nil, Nat.zero_add, lineFrom_of_hasColumn inside]
      rfl
  | next line later unbroken ih =>
      rw [List.append_assoc, List.cons_append, byteLength_break, Nat.add_assoc,
        lineFrom_next unbroken, ih _ ((isLineStart_break line).mp start), List.count_append,
        List.count_cons_self, List.count_eq_zero_of_not_mem unbroken]
      refine congrArg (LinePoint.mk · _ _) ?_
      omega

/-- Places beyond the end of a text stand at its end. -/
theorem lineFrom_min (number : Nat) (cs : List Char) (position : Nat) :
    lineFrom number cs (min position (byteLength cs)) = lineFrom number cs position := by
  rcases Nat.le_total position (byteLength cs) with within | beyond
  · rw [Nat.min_eq_left within]
  · rw [Nat.min_eq_right beyond, lineFrom_end number cs (Nat.le_refl _),
      lineFrom_end number cs beyond]

/-- Whether a line point locates the place behind the first `place` bytes of `cs`; its line starts
between `before` and `after`. -/
structure LinePoint.Locates (point : LinePoint) (cs : List Char) (place : Nat)
    (before after : List Char) : Prop where
  halves : cs = before ++ after
  start : IsLineStart before
  place_eq : byteLength before + point.column = place
  number_eq : point.number = before.count '\n' + 1
  text : IsFirstLine point.text after
  inside : HasColumn point.text point.column

/-- A place has one line point. -/
theorem lineFrom_eq_iff (within : position ≤ byteLength cs) (point : LinePoint) :
    point = lineFrom 1 cs position ↔ ∃ before after, point.Locates cs position before after := by
  constructor
  · rintro rfl
    obtain ⟨before, after, column, rfl, start, rfl, inside⟩ := exists_lineStart within
    rw [lineFrom_of_lineStart 1 start inside]
    exact ⟨before, after, rfl, start, rfl, Nat.add_comm _ _, isFirstLine_iff.mpr rfl, inside⟩
  · rintro ⟨before, after, located⟩
    obtain ⟨number, text, column⟩ := point
    obtain ⟨rfl, start, rfl, rfl, first, inside⟩ := located
    obtain rfl := isFirstLine_iff.mp first
    rw [lineFrom_of_lineStart 1 start inside, Nat.add_comm]

/-! ## The search -/

/-- Goes through the lines of a text for the one with a place; `start` is the place where they
start. -/
def searchLines (position : Nat) : Nat → Nat → List (List Char) → Option LinePoint
  | _, _, [] => none
  | number, start, line :: others =>
    let stop := start + byteLength line
    if start ≤ position ∧ position < stop then some ⟨number, line, position - start⟩
    else searchLines position (number + 1) stop others

/-- The line point of a byte offset, if the search comes to an end at a line.  Offsets at the end
of the text or beyond it are not searched for. -/
def findLine? (source : String) (position : Nat) : Option LinePoint :=
  let cs := source.toList
  if byteLength cs ≤ position then
    some ⟨cs.count '\n' + 1, lastLine cs, byteLength (lastLine cs)⟩
  else searchLines position 1 0 (lines cs)

/-- The search finds the line of every place in a text. -/
theorem searchLines_eq_some {start : Nat} (behind : start ≤ position)
    (within : position < start + byteLength cs) :
    searchLines position number start (lines cs) =
      some (lineFrom number cs (position - start)) := by
  -- The induction is on the lines; what the search keeps is that the place is not before them.
  induction cs using line_induction generalizing number start with
  | last cs unbroken =>
      have some : cs ≠ [] := by
        rintro rfl
        exact absurd within (Nat.not_lt.mpr behind)
      have whole : (splitLine cs).1 = cs := congrArg Prod.fst (splitLine_of_not_mem unbroken)
      have inside : position - start < byteLength (splitLine cs).1 := by
        rw [whole]
        omega
      rw [lines_of_not_mem unbroken some, searchLines, if_pos ⟨behind, within⟩,
        lineFrom_first inside, whole]
  | next line later unbroken ih =>
      have whole : (splitLine (line ++ '\n' :: later)).1 = line ++ ['\n'] :=
        congrArg Prod.fst (splitLine_break unbroken later)
      rw [byteLength_break] at within
      rw [lines_break unbroken, searchLines]
      by_cases early : position < start + byteLength (line ++ ['\n'])
      · have inside : position - start < byteLength (splitLine (line ++ '\n' :: later)).1 := by
          rw [whole]
          omega
        rw [if_pos ⟨behind, early⟩, lineFrom_first inside, whole]
      · obtain ⟨more, rfl⟩ := Nat.exists_eq_add_of_le (Nat.le_of_not_lt early)
        have next : start + byteLength (line ++ ['\n']) + more - start =
            byteLength (line ++ ['\n']) + more := by omega
        rw [if_neg fun here => early here.2, ih (Nat.le_add_right _ _) (by omega), next,
          lineFrom_next unbroken, Nat.add_sub_cancel_left]

/-- Each place is found in a line. -/
theorem findLine?_eq_some (source : String) (position : Nat) :
    findLine? source position = some (lineAt source position) := by
  rw [findLine?, lineAt]
  split
  case isTrue beyond => rw [lineFrom_end 1 _ beyond, Nat.add_comm]
  case isFalse within =>
    rw [searchLines_eq_some (Nat.zero_le _) (by omega), Nat.sub_zero]

/-- **Lines of places.** The search finds a line for every byte offset, and what it finds is the
one point that locates the offset, or the end of the text if that comes first: the place is
`column` bytes behind the start of a line, whose number counts the line breaks before it, and
which reaches up to and including the next line break, or to the end of the text. -/
theorem lineAt_locates (source : String) (position : Nat) :
    findLine? source position = some (lineAt source position) ∧
      ∀ point : LinePoint, point = lineAt source position ↔
        ∃ before after,
          point.Locates source.toList (min position (byteLength source.toList)) before after := by
  refine ⟨findLine?_eq_some source position, fun point => ?_⟩
  rw [← lineFrom_eq_iff (Nat.min_le_right _ _), lineFrom_min, lineAt]

/-- A line break belongs to the line it ends; the place behind it starts the next line, which may
be empty. -/
example : findLine? "a\n" 1 = some ⟨1, ['a', '\n'], 1⟩ ∧ findLine? "a\n" 2 = some ⟨2, [], 0⟩ := by
  decide

end DocSketch
