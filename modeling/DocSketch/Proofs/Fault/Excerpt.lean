import DocSketch.Fault.Excerpt
import DocSketch.Proofs.Text.Ascii
import DocSketch.Proofs.Text.Lines

/-!
# The caret of an excerpt

The three lines of an excerpt have their bars in one column, and the line of the source is shown
without its indentation behind the second bar.  The dashes up to the caret stand for the bytes
between what is shown first and the place of the fault, so that the caret stands under its place
exactly if nothing but ASCII comes before it.

* `Text.IsPastIndentation`: places that are not within the indentation of their line.
* `Text.shownBefore`: what an excerpt shows of a line before a place.
* `Fault.excerpt_caret`: the lines of an excerpt, their bars and the dashes up to the caret.
-/

namespace DocSketch

namespace Text

variable {cs before after : List Char} {c : Char}

/-! ## What is shown of a line -/

/-- The place between two texts is not within the indentation of its line. -/
def IsPastIndentation (before after : List Char) : Prop :=
  (∀ c ∈ lastLine before, isIndentation c = true) → ∀ c ∈ after.head?, isIndentation c = false

/-- What is shown of the line of a place before that place. -/
def shownBefore (before : List Char) : List Char := (lastLine before).dropWhile isIndentation

/-- The part of a line that is shown is within that line. -/
theorem not_mem_shownBefore (before : List Char) : '\n' ∉ shownBefore before := fun member =>
  not_mem_lastLine before ((List.dropWhile_sublist _).subset member)

/-- The indentation of a line ends before every place that is past it. -/
theorem dropWhile_indentation (past : IsPastIndentation before after) :
    (lastLine before ++ (splitLine after).1).dropWhile isIndentation =
      shownBefore before ++ (splitLine after).1 := by
  rw [List.dropWhile_append, shownBefore]
  split
  case isFalse => rfl
  case isTrue none =>
    -- All before the place is indentation, so the place is at its end.
    have none := List.isEmpty_iff.mp none
    have stops := past (List.dropWhile_eq_nil_iff.mp none)
    rw [none, List.nil_append]
    cases after with
    | nil => rfl
    | cons c after =>
        have visible := stops c rfl
        rw [splitLine]
        split <;> exact List.dropWhile_cons_of_neg (by rw [visible]; exact Bool.false_ne_true)

/-- Indentation and what is shown make up the start of the line. -/
theorem length_indentation (past : IsPastIndentation before after) :
    byteLength ((lastLine before ++ (splitLine after).1).takeWhile isIndentation) +
      byteLength (shownBefore before) = byteLength (lastLine before) := by
  have whole := congrArg byteLength (List.takeWhile_append_dropWhile
    (p := isIndentation) (l := lastLine before ++ (splitLine after).1))
  rw [dropWhile_indentation past] at whole
  simp only [byteLength_append] at whole
  omega

/-- Nothing is added where spaces at the end are cut off. -/
theorem mem_of_mem_trimEnd (member : c ∈ trimEnd cs) : c ∈ cs :=
  List.mem_reverse.mp ((List.dropWhile_sublist _).subset (List.mem_reverse.mp member))

/-- A space at the end is cut off. -/
theorem trimEnd_append_space (space : isSpacing c = true) (cs : List Char) :
    trimEnd (cs ++ [c]) = trimEnd cs := by
  rw [trimEnd, List.reverse_concat, List.dropWhile_cons_of_pos space, trimEnd]

/-- A line without its break at the end. -/
theorem splitLine_cases (cs : List Char) :
    ∃ line, '\n' ∉ line ∧ ((splitLine cs).1 = line ∨ (splitLine cs).1 = line ++ ['\n']) := by
  induction cs using line_induction with
  | last cs unbroken =>
      exact ⟨cs, unbroken, .inl (congrArg Prod.fst (splitLine_of_not_mem unbroken))⟩
  | next line later unbroken =>
      exact ⟨line, unbroken, .inr (congrArg Prod.fst (splitLine_break unbroken later))⟩

/-- The break at the end of a line is not shown. -/
theorem not_mem_trimEnd_splitLine (unbroken : '\n' ∉ before) (after : List Char) :
    '\n' ∉ trimEnd (before ++ (splitLine after).1) := by
  obtain ⟨line, free, same⟩ := splitLine_cases after
  have whole : '\n' ∉ before ++ line := List.not_mem_append unbroken free
  rcases same with same | same
  · rw [same]
    exact fun member => whole (mem_of_mem_trimEnd member)
  · rw [same, ← List.append_assoc, trimEnd_append_space (by decide)]
    exact fun member => whole (mem_of_mem_trimEnd member)

end Text

open Text

/-! ## Bars and dashes -/

variable {front more : List Char}

/-- The number of the line of a place, as it is shown. -/
def lineNumber (before : List Char) : List Char := (toString (before.count '\n' + 1)).toList

/-- Column of the bar of a line. -/
def barColumn (line : List Char) : Nat := line.idxOf '|'

/-- Number of dashes before the caret of a line. -/
def dashes (line : List Char) : Nat := (line.takeWhile (· != '^')).count '-'

/-- Whether a line is within one line of a text and has its first bar in a column. -/
structure HasBarAt (column : Nat) (line : List Char) : Prop where
  unbroken : '\n' ∉ line
  bar : '|' ∈ line
  column_eq : barColumn line = column

/-- A line with digits and blanks up to its bar. -/
theorem hasBarAt_append {column : Nat} (blank : ∀ c ∈ front, c = ' ' ∨ c.isDigit = true)
    (wide : front.length = column) (unbroken : '\n' ∉ more) :
    HasBarAt column (front ++ '|' :: more) where
  unbroken := by
    refine List.not_mem_append (fun member => absurd (blank _ member) (by decide)) ?_
    exact List.not_mem_cons_of_ne_of_not_mem (by decide) unbroken
  bar := List.mem_append_right _ List.mem_cons_self
  column_eq := by
    have free : '|' ∉ front := fun member => absurd (blank _ member) (by decide)
    rw [barColumn, List.idxOf_append_of_notMem free, List.idxOf_cons_self, Nat.add_zero, wide]

/-- The third line of an excerpt, with `n` dashes. -/
def pointerLine (width n : Nat) : List Char :=
  gutter width ++ ' ' :: List.replicate n '-' ++ ['^']

/-- Up to the caret, the last line is made of spaces, the bar and dashes. -/
theorem pointerLine_free {width n : Nat} {c : Char}
    (member : c ∈ gutter width ++ ' ' :: List.replicate n '-') : c = ' ' ∨ c = '|' ∨ c = '-' := by
  simp only [gutter, List.mem_append, List.mem_cons, List.not_mem_nil, or_false,
    List.mem_replicate] at member
  tauto

/-- The caret stands behind a bar, a blank and the dashes. -/
theorem idxOf_pointerLine (width n : Nat) :
    (pointerLine width n).idxOf '^' = width - 1 + 2 + n := by
  have free : '^' ∉ gutter width ++ ' ' :: List.replicate n '-' := fun member =>
    absurd (pointerLine_free member) (by decide)
  rw [pointerLine, List.idxOf_append_of_notMem free, List.idxOf_cons_self]
  simp only [gutter, List.length_append, List.length_cons, List.length_replicate, List.length_nil]
  omega

/-- The dashes of the last line are those it is written with. -/
theorem dashes_pointerLine (width n : Nat) : dashes (pointerLine width n) = n := by
  have front : (gutter width ++ ' ' :: List.replicate n '-').takeWhile (· != '^') =
      gutter width ++ ' ' :: List.replicate n '-' := by
    refine List.takeWhile_eq_self_iff.mpr fun c member => ?_
    rcases pointerLine_free member with rfl | rfl | rfl <;> rfl
  rw [dashes, pointerLine, takeWhile_upTo (p := fun c => c != '^') rfl, front, gutter]
  simp [List.count_replicate]

/-- The three lines of an excerpt, one after the other. -/
theorem lineAt_excerpt {source : String} {before after : List Char}
    (halves : source.toList = before ++ after) (past : IsPastIndentation before after) :
    (lineAt source (byteLength before)).excerpt =
      gutter ((lineNumber before).length + 2) ++
        '\n' :: (lineNumber before ++ [' ', '|', ' '] ++
          trimEnd (shownBefore before ++ (splitLine after).1)) ++
        '\n' :: pointerLine ((lineNumber before).length + 2) (byteLength (shownBefore before)) ++
        ['\n'] := by
  have removed := length_indentation past
  have dashed : byteLength (lastLine before) -
      byteLength ((lastLine before ++ (splitLine after).1).takeWhile isIndentation) =
        byteLength (shownBefore before) := by omega
  rw [lineAt_append halves]
  simp only [LinePoint.excerpt, pointer, pointerLine, dropWhile_indentation past, dashed,
    lineNumber, List.append_assoc, List.cons_append, List.nil_append]

/-- The bars of the three lines of an excerpt are below each other. -/
theorem hasBarAt_excerpt {number shown : List Char} (digits : ∀ c ∈ number, c.isDigit = true)
    (unbroken : '\n' ∉ shown) (n : Nat) :
    HasBarAt (number.length + 1) (gutter (number.length + 2)) ∧
      HasBarAt (number.length + 1) (number ++ [' ', '|', ' '] ++ shown) ∧
      HasBarAt (number.length + 1) (pointerLine (number.length + 2) n) := by
  have blanks : ∀ c ∈ List.replicate (number.length + 1) ' ', c = ' ' ∨ c.isDigit = true :=
    fun c member => .inl (List.eq_of_mem_replicate member)
  have numbered : ∀ c ∈ number ++ [' '], c = ' ' ∨ c.isDigit = true := by
    intro c member
    rcases List.mem_append.mp member with member | member
    · exact .inr (digits c member)
    · exact .inl (List.mem_singleton.mp member)
  have dashed : '\n' ∉ ' ' :: (List.replicate n '-' ++ ['^']) := by
    refine List.not_mem_cons_of_ne_of_not_mem (by decide) (List.not_mem_append ?_ (by decide))
    exact fun member => absurd (List.eq_of_mem_replicate member) (by decide)
  refine ⟨hasBarAt_append blanks List.length_replicate List.not_mem_nil, ?shown, ?marked⟩
  case shown =>
    rw [List.append_assoc, List.cons_append, List.append_cons]
    exact hasBarAt_append numbered List.length_append
      (List.not_mem_cons_of_ne_of_not_mem (by decide) unbroken)
  case marked =>
    rw [pointerLine, gutter, List.append_assoc, List.append_assoc]
    exact hasBarAt_append blanks List.length_replicate dashed

/-- The lines of an excerpt.  The line of the source is shown from the first character that is
not indentation on, and the dashes are as many as the bytes of what is shown before the place. -/
theorem Fault.excerpt_caret (fault : Fault) (file source : String) {before after : List Char}
    (halves : source.toList = before ++ after)
    (here : fault.position.offset = byteLength before)
    (past : IsPastIndentation before after) :
    ∃ (top shown marked : List Char) (column : Nat),
      (fault.excerpt file source).toList =
        (fault.headline ++ s!"-> {file}\n").toList ++
          (top ++ '\n' :: shown ++ '\n' :: marked ++ ['\n']) ∧
      (∀ line ∈ [top, shown, marked], HasBarAt column line) ∧
      shown = lineNumber before ++ [' ', '|', ' '] ++
        trimEnd (shownBefore before ++ (splitLine after).1) ∧
      marked.idxOf '^' = column + 2 + dashes marked ∧
      dashes marked = byteLength (shownBefore before) ∧
      (dashes marked = (shownBefore before).length ↔ isAscii (shownBefore before) = true) := by
  have digits : ∀ c ∈ lineNumber before, c.isDigit = true := fun c => isDigit_of_mem_toString
  obtain ⟨top, shown, marked⟩ := hasBarAt_excerpt digits
    (not_mem_trimEnd_splitLine (not_mem_shownBefore before) after) (byteLength (shownBefore before))
  refine ⟨gutter ((lineNumber before).length + 2), _,
    pointerLine ((lineNumber before).length + 2) (byteLength (shownBefore before)),
    (lineNumber before).length + 1, ?lines, ?bars, rfl, ?caret, dashes_pointerLine _ _, ?ascii⟩
  case lines =>
    rw [Fault.excerpt, here, String.toList_append, String.toList_ofList, lineAt_excerpt halves past]
  case bars =>
    simp only [List.forall_mem_cons]
    exact ⟨top, shown, marked, List.forall_mem_nil _⟩
  case caret => rw [dashes_pointerLine, idxOf_pointerLine]; rfl
  case ascii =>
    rw [dashes_pointerLine]
    exact byteLength_eq_length_iff _

/-- A fault in an indented line is drawn under the line without its indentation. -/
theorem Fault.excerpt_caret_indented :
    IsPastIndentation "def f():\n    x = ".toList "$\n".toList ∧
      ∃ (top shown marked : List Char) (column : Nat),
        ((⟨.unrecognisedToken "$", ⟨17, "main.py"⟩⟩ : Fault).excerpt "main.py"
            "def f():\n    x = $\n").toList =
          "Error: UnrecognisedToken\n-> main.py\n".toList ++
            (top ++ '\n' :: shown ++ '\n' :: marked ++ ['\n']) ∧
        (∀ line ∈ [top, shown, marked], HasBarAt column line) ∧
        shown = "2 | x = $".toList ∧ marked.idxOf '^' = column + 6 ∧
        dashes marked = "x = ".toList.length := by
  have past : IsPastIndentation "def f():\n    x = ".toList "$\n".toList := by
    intro _ c found
    cases found
    rfl
  obtain ⟨top, shown, marked, column, lines, bars, text, caret, count, -⟩ :=
    Fault.excerpt_caret ⟨.unrecognisedToken "$", ⟨17, "main.py"⟩⟩ "main.py"
      "def f():\n    x = $\n" (by decide +kernel) (by decide +kernel) past
  have four : dashes marked = 4 := by rw [count]; decide +kernel
  refine ⟨past, top, shown, marked, column, lines, bars, ?text, ?caret, ?count⟩
  case text => rw [text]; decide +kernel
  case caret => rw [caret, four]
  case count => rw [four]; decide +kernel

/-- Behind a letter of two bytes the caret stands one column too far to the right. -/
theorem Fault.excerpt_caret_accented :
    "é = $\n".toList = "é = ".toList ++ "$\n".toList ∧ byteLength "é = ".toList = 5 ∧
      IsPastIndentation "é = ".toList "$\n".toList ∧
      ((⟨.unrecognisedToken "$", ⟨5, "test.py"⟩⟩ : Fault).excerpt "test.py" "é = $\n").toList =
        "Error: UnrecognisedToken\n-> test.py\n".toList ++
          ("  |".toList ++ '\n' :: "1 | é = $".toList ++ '\n' :: "  | -----^".toList ++ ['\n']) ∧
      dashes "  | -----^".toList ≠ (shownBefore "é = ".toList).length := by
  have halves : "é = $\n".toList = "é = ".toList ++ "$\n".toList := by decide +kernel
  have bytes : byteLength "é = ".toList = 5 := by decide +kernel
  have past : IsPastIndentation "é = ".toList "$\n".toList := by
    intro _ c found
    cases found
    rfl
  refine ⟨halves, bytes, past, ?lines, by decide +kernel⟩
  case lines =>
    have lines := lineAt_excerpt halves past
    rw [bytes] at lines
    rw [Fault.excerpt, String.toList_append, String.toList_ofList, lines]
    decide +kernel

end DocSketch
