import DocSketch.Text.Line
import Mathlib.Data.List.DropRight

/-!
# Places in lines

A place in a text is found in the line that starts behind the last line break before it.

* `Text.takeWhile_upTo`, `Text.dropWhile_upTo`: a run ends before a character that does not count.
* `Text.lastLine`: what a text has of its last line.
* `Text.line_induction`: a text is its first line and a text, unless it has no line break.
* `lineFrom_within`, `lineFrom_end`: the line of a place in a text and at its end.
* `lineAt_append`: the line of a place between two characters.
-/

namespace DocSketch

namespace Text

variable {cs line before : List Char}

/-- A run does not go past a character that stops it. -/
theorem takeWhile_upTo {p : Char → Bool} {c : Char} (stops : p c = false)
    (front more : List Char) : (front ++ c :: more).takeWhile p = front.takeWhile p := by
  rw [List.takeWhile_append]
  split
  case isTrue whole =>
    rw [List.takeWhile_cons_of_neg (by rw [stops]; exact Bool.false_ne_true), List.append_nil,
      (List.takeWhile_prefix p).eq_of_length whole]
  case isFalse => rfl

/-- Behind a run comes the character that stops it. -/
theorem dropWhile_upTo {p : Char → Bool} {c : Char} (stops : p c = false)
    (front more : List Char) :
    (front ++ c :: more).dropWhile p = front.dropWhile p ++ c :: more := by
  rw [List.dropWhile_append]
  split
  case isTrue none =>
    rw [List.isEmpty_iff.mp none,
      List.dropWhile_cons_of_neg (by rw [stops]; exact Bool.false_ne_true)]
    rfl
  case isFalse => rfl

/-- What a text has of its last line. -/
def lastLine (cs : List Char) : List Char := cs.rtakeWhile (· != '\n')

/-- There is no line break in the last line. -/
theorem not_mem_lastLine (cs : List Char) : '\n' ∉ lastLine cs := fun member =>
  absurd (List.mem_rtakeWhile_imp member) (by decide)

/-- A text without a line break is its last line. -/
theorem lastLine_of_not_mem (unbroken : '\n' ∉ cs) : lastLine cs = cs := by
  refine List.rtakeWhile_eq_self_iff.mpr fun c member => ?_
  rw [bne_iff_ne]
  rintro rfl
  exact unbroken member

/-- The last line stands behind the line breaks. -/
theorem lastLine_break (front later : List Char) :
    lastLine (front ++ '\n' :: later) = lastLine later := by
  rw [lastLine, lastLine, List.rtakeWhile, List.rtakeWhile, List.reverse_append,
    List.reverse_cons, List.append_assoc, List.singleton_append,
    takeWhile_upTo (p := fun c => c != '\n') rfl]

/-- A text is its first line and another text, unless it has no line break. -/
theorem line_induction {motive : List Char → Prop} (last : ∀ cs, '\n' ∉ cs → motive cs)
    (next : ∀ line later, '\n' ∉ line → motive later → motive (line ++ '\n' :: later))
    (cs : List Char) : motive cs := by
  by_cases broken : '\n' ∈ cs
  · obtain ⟨line, later, rfl, unbroken⟩ := List.eq_append_cons_of_mem broken
    exact next line later unbroken (line_induction last next later)
  · exact last cs broken
termination_by cs.length
decreasing_by
  simp_all only [List.length_append, List.length_cons]
  omega

/-- Text without a line break belongs to the line behind it. -/
theorem splitLine_append_of_not_mem (unbroken : '\n' ∉ before) (after : List Char) :
    splitLine (before ++ after) = (before ++ (splitLine after).1, (splitLine after).2) := by
  induction before with
  | nil => rfl
  | cons c rest ih =>
      have other : c ≠ '\n' := fun same => unbroken (same ▸ List.mem_cons_self)
      rw [List.cons_append, splitLine, if_neg other,
        ih fun member => unbroken (List.mem_cons_of_mem _ member)]
      rfl

/-- A text without a line break is a single line. -/
theorem splitLine_of_not_mem (unbroken : '\n' ∉ cs) : splitLine cs = (cs, none) := by
  have whole := splitLine_append_of_not_mem unbroken []
  rwa [splitLine, List.append_nil] at whole

/-- A line ends with its break. -/
theorem splitLine_break (unbroken : '\n' ∉ line) (later : List Char) :
    splitLine (line ++ '\n' :: later) = (line ++ ['\n'], some later) := by
  rw [splitLine_append_of_not_mem unbroken, splitLine, if_pos rfl]

/-- The bytes of a line and of what follows it. -/
theorem byteLength_break (line later : List Char) :
    byteLength (line ++ '\n' :: later) = byteLength (line ++ ['\n']) + byteLength later := by
  rw [List.append_cons, byteLength_append]

/-- The first line of a text starts with its first character. -/
theorem utf8Size_le_splitLine (c : Char) (after : List Char) :
    c.utf8Size ≤ byteLength (splitLine (c :: after)).1 := by
  rw [splitLine]
  split <;> exact Nat.le_add_right _ _

end Text

open Text

variable {cs line before : List Char} {number position : Nat}

/-- A place behind the first line. -/
theorem lineFrom_next (unbroken : '\n' ∉ line) (later : List Char) :
    lineFrom number (line ++ '\n' :: later) (byteLength (line ++ ['\n']) + position) =
      lineFrom (number + 1) later position := by
  have cut := splitLine_break unbroken later
  rw [lineFrom]
  simp only [cut]
  split
  case h_1 none => exact absurd (cut ▸ none) (Option.some_ne_none _)
  case h_2 rest found =>
    obtain rfl : later = rest := Option.some.inj ((congrArg Prod.snd cut).symm.trans found)
    rw [if_neg (Nat.not_lt.mpr (Nat.le_add_right _ _)), Nat.add_sub_cancel_left]

/-- A place within the first line. -/
theorem lineFrom_first (within : position < byteLength (splitLine cs).1) :
    lineFrom number cs position = ⟨number, (splitLine cs).1, position⟩ := by
  rw [lineFrom]
  split
  case h_1 => rw [min_eq_left within.le]
  case h_2 => rw [if_pos within]

/-- The line of a place in a text, which may be inside of a character. -/
theorem lineFrom_within (number : Nat) (before : List Char) {c : Char} (after : List Char) {k : Nat}
    (inside : k < c.utf8Size) :
    lineFrom number (before ++ c :: after) (byteLength before + k) =
      ⟨number + before.count '\n', lastLine before ++ (splitLine (c :: after)).1,
        byteLength (lastLine before) + k⟩ := by
  -- The induction is on the lines before the place; the last of them goes on behind it.
  induction before using line_induction generalizing number with
  | last before unbroken =>
      have cut := splitLine_append_of_not_mem unbroken (c :: after)
      have wide := utf8Size_le_splitLine c after
      rw [lineFrom_first (by rw [cut, byteLength_append]; omega), cut,
        lastLine_of_not_mem unbroken, List.count_eq_zero_of_not_mem unbroken, Nat.add_zero]
  | next line later unbroken ih =>
      rw [List.append_assoc, List.cons_append, byteLength_break, Nat.add_assoc,
        lineFrom_next unbroken, ih, lastLine_break, List.count_append, List.count_cons_self,
        List.count_eq_zero_of_not_mem unbroken]
      refine congrArg (LinePoint.mk · _ _) ?_
      omega

/-- The line of the end of a text, and of places beyond it. -/
theorem lineFrom_end (number : Nat) (cs : List Char) (beyond : byteLength cs ≤ position) :
    lineFrom number cs position =
      ⟨number + cs.count '\n', lastLine cs, byteLength (lastLine cs)⟩ := by
  induction cs using line_induction generalizing number position with
  | last cs unbroken =>
      have cut := splitLine_of_not_mem unbroken
      rw [lineFrom, lastLine_of_not_mem unbroken, List.count_eq_zero_of_not_mem unbroken]
      split
      case h_1 => simp only [cut, min_eq_right beyond, Nat.add_zero]
      case h_2 rest found => cases (congrArg Prod.snd cut).symm.trans found
  | next line later unbroken ih =>
      obtain ⟨more, rfl⟩ := Nat.exists_eq_add_of_le (byteLength_break line later ▸ beyond)
      rw [Nat.add_assoc, lineFrom_next unbroken, ih _ (Nat.le_add_right _ _), lastLine_break,
        List.count_append, List.count_cons_self, List.count_eq_zero_of_not_mem unbroken]
      refine congrArg (LinePoint.mk · _ _) ?_
      omega

/-- The line of a place between two characters of a text. -/
theorem lineAt_append {source : String} {before after : List Char}
    (halves : source.toList = before ++ after) :
    lineAt source (byteLength before) =
      ⟨before.count '\n' + 1, lastLine before ++ (splitLine after).1,
        byteLength (lastLine before)⟩ := by
  rw [lineAt, halves, Nat.add_comm]
  match after with
  | [] => rw [List.append_nil, lineFrom_end _ _ (Nat.le_refl _), splitLine, List.append_nil]
  | c :: after => exact lineFrom_within 1 before after c.utf8Size_pos

end DocSketch
