import DocSketch.Text.Span

/-!
# Lines of a text

A line reaches up to and including its line break; the last line has none and may
be empty.

* `LinePoint`: a byte offset seen as a line number, the line and a column.
* `lineAt`: the line point of a byte offset.  Offsets beyond the end of the text
  stand at the end of its last line.
-/

namespace DocSketch

/-- A place in a text given by its line. -/
structure LinePoint where
  /-- Number of the line, from one. -/
  number : Nat
  /-- The line, with its line break if it has one. -/
  text : List Char
  /-- Bytes between the start of the line and the place. -/
  column : Nat
deriving DecidableEq, Repr, Inhabited

/-- The first line and what follows it; `none` stands for a line without a break,
after which nothing follows. -/
def splitLine : List Char → List Char × Option (List Char)
  | [] => ([], none)
  | c :: cs =>
    if c = '\n' then ([c], some cs)
    else (c :: (splitLine cs).1, (splitLine cs).2)

/-- What remains behind the first line is shorter than the text. -/
theorem length_lt_of_splitLine {cs rest : List Char} (h : (splitLine cs).2 = some rest) :
    rest.length < cs.length := by
  induction cs with
  | nil => simp [splitLine] at h
  | cons c cs ih =>
    by_cases hc : c = '\n'
    · simp [splitLine, hc] at h
      simp [h]
    · simp [splitLine, hc] at h
      have := ih h
      simp only [List.length_cons]
      omega

/-- Line point of the offset `position` in `cs`, whose first line has the number
`number`. -/
def lineFrom (number : Nat) (cs : List Char) (position : Nat) : LinePoint :=
  let line := (splitLine cs).1
  match _hrest : (splitLine cs).2 with
  | none => ⟨number, line, min position (Text.byteLength line)⟩
  | some rest =>
    if position < Text.byteLength line then ⟨number, line, position⟩
    else lineFrom (number + 1) rest (position - Text.byteLength line)
termination_by cs.length
decreasing_by exact length_lt_of_splitLine _hrest

/-- Line point of a byte offset in a text. -/
def lineAt (source : String) (position : Nat) : LinePoint :=
  lineFrom 1 source.toList position

end DocSketch
