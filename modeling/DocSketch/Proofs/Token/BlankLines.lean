import DocSketch.Proofs.Token.Placement
import DocSketch.Proofs.Token.WithinLines

/-!
# Blank lines between lines

A line with nothing but blanks and a comment leaves no trace among the tokens: where a line starts
outside of brackets, it can come between what has been read and the rest.  All that is read
later moves by its length.

* `Lexeme.BlankLine`: a line with nothing but blanks and a comment.
* `Lexeme.BlankLine.reaches`: reading passes it and is where it was.
* `Reading.Reaches.between`: what was read before it is read as without it.
* `Layout.Moved`: layouts that differ in where their later tokens stand.
* `Reading.outcome_moved`: what is read later moves.
* `Token.scan_blankLine`: the tokens of a text with a blank line more.
-/

namespace DocSketch

open Text

/-! ## Lines that leave no trace -/

namespace Lexeme

/-- A line with nothing but blanks and a comment, in which there are no quotes. -/
inductive BlankLine : List Char → Prop
  | bare {blanks ending : List Char} (blank : ∀ c ∈ blanks, isBlank c = true)
      (ends : LineBreak ending) : BlankLine (blanks ++ ending)
  | remark {blanks text ending : List Char} (blank : ∀ c ∈ blanks, isBlank c = true)
      (inside : ∀ c ∈ text, isBreak c = false) (unquoted : ∀ c ∈ text, c ≠ '"' ∧ c ≠ '\'')
      (ends : LineBreak ending) : BlankLine (blanks ++ '#' :: (text ++ ending))

variable {line blanks ending text back : List Char} {layout : Layout} {file : String}
  {offset : Nat}

/-- A blank is no quote. -/
theorem unquoted_of_isBlank {c : Char} (blank : isBlank c = true) : c ≠ '"' ∧ c ≠ '\'' := by
  constructor <;> rintro rfl <;> exact absurd blank (by decide)

/-- A line break has no quotes. -/
theorem LineBreak.unquoted (ends : LineBreak ending) : ∀ c ∈ ending, c ≠ '"' ∧ c ≠ '\'' := by
  rcases ends with rfl | rfl <;> simp

/-- A blank line has no quotes. -/
theorem BlankLine.unquoted (blank : BlankLine line) : ∀ c ∈ line, c ≠ '"' ∧ c ≠ '\'' := by
  cases blank with
  | bare blank ends =>
      exact List.forall_mem_append.mpr ⟨fun c member => unquoted_of_isBlank (blank c member),
        ends.unquoted⟩
  | remark blank inside unquoted ends =>
      refine List.forall_mem_append.mpr ⟨fun c member => unquoted_of_isBlank (blank c member),
        List.forall_mem_cons.mpr ⟨by decide, List.forall_mem_append.mpr ⟨unquoted, ends.unquoted⟩⟩⟩

/-- A line break is read as one. -/
theorem next?_lineBreak (ends : LineBreak ending) (back : List Char) :
    next? (ending ++ back) = some (.lineBreak, ending.length) := by
  rcases ends with rfl | rfl <;> rfl

/-- A comment is read up to the line break behind it. -/
theorem next?_comment (inside : ∀ c ∈ text, isBreak c = false) (ends : LineBreak ending)
    (back : List Char) :
    next? ('#' :: (text ++ (ending ++ back))) = some (.skipped, 1 + text.length) := by
  have stops : (ending ++ back).takeWhile (fun c => !isBreak c) = [] := by
    rcases ends with rfl | rfl <;> rfl
  have goes : ∀ c ∈ text, (!isBreak c) = true := fun c member => by rw [inside c member]; rfl
  have length : commentLength ('#' :: (text ++ (ending ++ back))) = 1 + text.length := by
    rw [commentLength, List.takeWhile_append_of_pos goes, stops, List.append_nil]
  have earlier : blankLength ('#' :: (text ++ (ending ++ back))) = 0 ∧
      continuationLength ('#' :: (text ++ (ending ++ back))) = 0 := ⟨rfl, rfl⟩
  have nonempty : 1 + text.length ≠ 0 := by omega
  simp only [next?, earlier, length, sized, nonempty, ↓reduceIte, Option.orElse_eq_orElse,
    Option.orElse_eq_or, Option.none_or, Option.some_or]

/-- A blank line is measured as nothing. -/
theorem reaches_unmeasured (blank : ∀ c ∈ blanks, isBlank c = true)
    (starts : layout.lineStart = true) (outside : layout.nesting = 0) {rest : List Char}
    (visible : ∀ c ∈ rest.head?, isBlank c = false) (ended : Layout.isLineEnd rest = true)
    (some : rest ≠ []) :
    (⟨layout, offset, blanks ++ rest⟩ : Reading).Reaches file
      ⟨{ layout with lineStart := false }, offset + byteLength blanks, rest⟩ := by
  have stops : rest.takeWhile isBlank = [] ∧ rest.dropWhile isBlank = rest := by
    cases rest with
    | nil => exact ⟨rfl, rfl⟩
    | cons c rest =>
        have shown : ¬isBlank c = true := by rw [visible c rfl]; exact Bool.false_ne_true
        exact ⟨List.takeWhile_cons_of_neg shown, List.dropWhile_cons_of_neg shown⟩
  have taken : (blanks ++ rest).takeWhile isBlank = blanks := by
    rw [List.takeWhile_append_of_pos blank, stops.1, List.append_nil]
  have left : (blanks ++ rest).dropWhile isBlank = rest := by
    rw [List.dropWhile_append_of_pos blank, stops.2]
  apply Relation.ReflTransGen.single
  rw [Reading.step_atLine (by simp [some]) ⟨starts, outside⟩]
  simp only [taken, left, Layout.beginLine, ended, ↓reduceIte]

/-- The break of a line on which nothing was read. -/
theorem reaches_lineBreak (ends : LineBreak ending) (starts : layout.lineStart = true)
    (outside : layout.nesting = 0) (idle : Layout.endsLine layout.lastKind? = false)
    (back : List Char) :
    (⟨{ layout with lineStart := false }, offset, ending ++ back⟩ : Reading).Reaches file
      ⟨layout, offset + byteLength ending, back⟩ := by
  have found := next?_lineBreak ends back
  have within : ¬(⟨{ layout with lineStart := false }, offset, ending ++ back⟩ : Reading).AtLine :=
    fun again => Bool.false_ne_true again.1
  have unended : Layout.endsLine { layout with lineStart := false }.lastKind? = false := idle
  have again : ({ layout with lineStart := false } : Layout).breakLine ending offset = layout := by
    obtain ⟨tokens, nesting, indents, lineStart⟩ := layout
    cases starts
    cases outside
    simp only [Layout.breakLine, unended, ↓reduceIte, Bool.false_eq_true]
  apply Relation.ReflTransGen.single
  rw [Reading.step_lexeme within found]
  simp only [List.take_left, List.drop_left, Layout.accept, again]

/-- **Blank lines leave no trace.** -/
theorem BlankLine.reaches (blank : BlankLine line) (starts : layout.lineStart = true)
    (outside : layout.nesting = 0) (idle : Layout.endsLine layout.lastKind? = false)
    (file : String) (offset : Nat) (back : List Char) :
    (⟨layout, offset, line ++ back⟩ : Reading).Reaches file
      ⟨layout, offset + byteLength line, back⟩ := by
  cases blank with
  | @bare blanks ending blank ends =>
      have measured : (⟨layout, offset, blanks ++ (ending ++ back)⟩ : Reading).Reaches file
          ⟨{ layout with lineStart := false }, offset + byteLength blanks, ending ++ back⟩ := by
        apply reaches_unmeasured blank starts outside
        · rcases ends with rfl | rfl <;> simp [isBlank]
        · rcases ends with rfl | rfl <;> rfl
        · rcases ends with rfl | rfl <;> simp
      rw [List.append_assoc, byteLength_append, ← Nat.add_assoc]
      exact measured.trans (reaches_lineBreak ends starts outside idle back)
  | @remark blanks text ending blank inside unquoted ends =>
      have measured : (⟨layout, offset, blanks ++ '#' :: (text ++ (ending ++ back))⟩ :
          Reading).Reaches file ⟨{ layout with lineStart := false }, offset + byteLength blanks,
            '#' :: (text ++ (ending ++ back))⟩ := by
        apply reaches_unmeasured blank starts outside
        · simp [isBlank]
        · rfl
        · exact List.cons_ne_nil _ _
      have commented : (⟨{ layout with lineStart := false }, offset + byteLength blanks,
          '#' :: (text ++ (ending ++ back))⟩ : Reading).Reaches file
          ⟨{ layout with lineStart := false },
            offset + byteLength blanks + byteLength ('#' :: text), ending ++ back⟩ := by
        apply Relation.ReflTransGen.single
        rw [Reading.step_lexeme (fun again => Bool.false_ne_true again.1)
          (next?_comment inside ends back)]
        have size : 1 + text.length = ('#' :: text).length := Nat.add_comm 1 _
        rw [size, ← List.cons_append]
        simp only [List.take_left, List.drop_left, Layout.accept]
      have split : blanks ++ '#' :: (text ++ ending) ++ back =
          blanks ++ '#' :: (text ++ (ending ++ back)) := by
        simp only [List.append_assoc, List.cons_append]
      have length : offset + byteLength (blanks ++ '#' :: (text ++ ending)) =
          offset + byteLength blanks + byteLength ('#' :: text) + byteLength ending := by
        rw [← List.cons_append, byteLength_append, byteLength_append]
        omega
      rw [split, length]
      exact (measured.trans commented).trans (reaches_lineBreak ends starts outside idle back)

end Lexeme

/-! ## What comes before -/

/-- Whether a line ends depends on the line only. -/
theorem Layout.isLineEnd_line (line more other : List Char) :
    isLineEnd (line ++ '\n' :: other) = isLineEnd (line ++ '\n' :: more) := by
  cases line <;> rfl

namespace Reading

open Lexeme

variable {file : String} {reading next last : Reading} {line front lines back : List Char}

/-- A round that comes to the start of a line passes a line break. -/
theorem step_breaks (regular : reading.layout.Regular) (goes : reading.step file = .inl next)
    (starts : next.layout.lineStart = true) :
    ∃ line, reading.rest = line ++ '\n' :: next.rest := by
  obtain ⟨begun, -, -, -, rfl⟩ | ⟨cls, length, within, found, rfl⟩ := step_cases goes
  · exact absurd starts Bool.false_ne_true
  · have measured : ¬reading.layout.lineStart = true :=
      fun again => within ⟨again, (regular.between again).1⟩
    have leaves := next?_leaves found
    cases cls with
    | lineBreak =>
        have whole := List.take_append_drop length reading.rest
        rcases leaves with feed | both
        · rw [feed] at whole
          exact ⟨[], whole.symm⟩
        · rw [both] at whole
          exact ⟨['\r'], whole.symm⟩
    | skipped | string | number | word | mark => exact absurd starts measured

/-- A line that starts is behind a line break. -/
theorem Reaches.breaks (reached : next.Reaches file last) (regular : reading.layout.Regular)
    (goes : reading.step file = .inl next) (starts : last.layout.lineStart = true) :
    ∃ line, reading.rest = line ++ '\n' :: last.rest := by
  rcases Relation.ReflTransGen.cases_tail reached with rfl | ⟨middle, earlier, final⟩
  · exact step_breaks regular goes starts
  · have path : reading.Reaches file middle := .head goes earlier
    obtain ⟨front, split, -⟩ := path.passes
    obtain ⟨line, ends⟩ := step_breaks (path.regular regular) final starts
    exact ⟨front ++ line, by rw [split, ends, List.append_assoc]⟩

/-- A round that ends before lines without quotes is the same without them. -/
theorem step_between (free : ∀ c ∈ lines, c ≠ '"' ∧ c ≠ '\'')
    (goes : reading.step file = .inl next) (split : reading.rest = line ++ '\n' :: back)
    (left : next.rest = front ++ back) :
    (⟨reading.layout, reading.offset, line ++ '\n' :: (lines ++ back)⟩ : Reading).step file =
      .inl ⟨next.layout, next.offset, front ++ (lines ++ back)⟩ := by
  obtain ⟨begun, -, starts, measured, rfl⟩ | ⟨cls, length, within, found, rfl⟩ := step_cases goes
  · have blanks := Text.takeWhile_upTo (p := isBlank) (c := '\n') rfl line
    have visible := Text.dropWhile_upTo (p := isBlank) (c := '\n') rfl line
    simp only [split, blanks, visible] at measured left ⊢
    have same : front = line.dropWhile isBlank ++ ['\n'] := by
      rw [List.append_cons] at left
      exact (List.append_cancel_right left).symm
    have begins : reading.layout.beginLine file (line.takeWhile isBlank)
        (line.dropWhile isBlank ++ '\n' :: (lines ++ back)) reading.offset = .ok begun := by
      rw [← measured, Layout.beginLine, Layout.beginLine, Layout.isLineEnd_line]
    have more : (⟨reading.layout, reading.offset, line ++ '\n' :: (lines ++ back)⟩ : Reading).rest ≠
        [] := by simp
    rw [step_atLine more starts]
    simp only [blanks, visible, begins]
    rw [same, ← List.append_cons]
  · rw [split] at found left
    have inside : length ≤ line.length + 1 := by
      have whole := next?_le found
      have lengths := congrArg List.length left
      simp only [List.length_drop, List.length_append, List.length_cons] at whole lengths
      omega
    have fits : length ≤ (line ++ ['\n']).length := by
      rw [List.length_append, List.length_singleton]
      exact inside
    have same : front = (line ++ ['\n']).drop length := by
      rw [List.append_cons, List.drop_append_of_le_length fits] at left
      exact (List.append_cancel_right left).symm
    have still : ¬(⟨reading.layout, reading.offset, line ++ '\n' :: (lines ++ back)⟩ :
        Reading).AtLine := within
    rw [step_lexeme still (next?_between free line back found inside), split, same]
    rw [List.append_cons line '\n' (lines ++ back), List.append_cons line '\n' back]
    simp only [List.take_append_of_le_length fits, List.drop_append_of_le_length fits]

/-- **What comes before.**  A run to the start of a line is the same where lines without quotes
follow. -/
theorem Reaches.between (free : ∀ c ∈ lines, c ≠ '"' ∧ c ≠ '\'')
    (reached : reading.Reaches file last) (starts : last.layout.lineStart = true)
    (regular : reading.layout.Regular) (split : reading.rest = front ++ last.rest) :
    (⟨reading.layout, reading.offset, front ++ (lines ++ last.rest)⟩ : Reading).Reaches file
      ⟨last.layout, last.offset, lines ++ last.rest⟩ := by
  induction reached using Relation.ReflTransGen.head_induction_on generalizing front with
  | refl =>
      cases List.self_eq_append_left.mp split
      exact .refl
  | @head reading next goes later ih =>
      obtain ⟨rest, left, -⟩ := Reaches.passes later
      obtain ⟨line, ends⟩ := Reaches.breaks later regular goes starts
      have same : front = line ++ ['\n'] := by
        rw [split, List.append_cons] at ends
        exact List.append_cancel_right ends
      have first := step_between free goes ends left
      rw [same, ← List.append_cons]
      exact .head first (ih (step_regular regular goes) left)

end Reading

/-! ## What comes later -/

def Span.shift (count : Nat) (span : Span) : Span := ⟨span.start + count, span.stop + count⟩

/-- The same token so many bytes later. -/
def Token.shift (count : Nat) (token : Token) : Token :=
  { token with span := token.span.shift count }

/-- The same fault so many bytes later. -/
def Fault.shift (count : Nat) (fault : Fault) : Fault :=
  { fault with position := { fault.position with offset := fault.position.offset + count } }

/-- The same outcome so many bytes later. -/
def Reading.shift (count : Nat) : Except Fault (List Token) → Except Fault (List Token)
  | .ok tokens => .ok (tokens.map (Token.shift count))
  | .error fault => .error (fault.shift count)

namespace Layout

open Lexeme

variable {count : Nat} {before : List Token} {layout moved next after : Layout} {file : String}
  {offset width : Nat}

/-- Two layouts with the tokens `before` in common; the later ones stand so many bytes later in
the second one. -/
structure Moved (count : Nat) (before : List Token) (layout moved : Layout) : Prop where
  tokens : ∃ later, layout.tokens = later ++ before ∧
    moved.tokens = later.map (Token.shift count) ++ before
  nesting : moved.nesting = layout.nesting
  indents : moved.indents = layout.indents
  lineStart : moved.lineStart = layout.lineStart

namespace Moved

theorem refl (count : Nat) (layout : Layout) : Moved count layout.tokens layout layout :=
  ⟨⟨[], rfl, rfl⟩, rfl, rfl, rfl⟩

/-- The last kind is the same when all is moved. -/
theorem lastKind? (same : Moved count before layout moved) :
    moved.lastKind? = layout.lastKind? := by
  obtain ⟨later, old, new⟩ := same.tokens
  rw [Layout.lastKind?, Layout.lastKind?, old, new]
  cases later <;> rfl

/-- Tokens that are added to both layouts. -/
theorem add (same : Moved count before layout moved) (added : List Token)
    (old : next.tokens = added ++ layout.tokens)
    (new : after.tokens = added.map (Token.shift count) ++ moved.tokens)
    (nesting : after.nesting = next.nesting) (indents : after.indents = next.indents)
    (lineStart : after.lineStart = next.lineStart) : Moved count before next after := by
  obtain ⟨later, split, shifted⟩ := same.tokens
  refine ⟨⟨added ++ later, ?_, ?_⟩, nesting, indents, lineStart⟩
  · rw [old, split, List.append_assoc]
  · rw [new, shifted, List.map_append, List.append_assoc]

/-- The start of a line is moved with it. -/
theorem measured (same : Moved count before layout moved) :
    Moved count before { layout with lineStart := false } { moved with lineStart := false } :=
  same.add [] rfl rfl same.nesting same.indents rfl

/-- A token is pushed on both sides. -/
theorem push (same : Moved count before layout moved) (token : Token) :
    Moved count before (layout.push token) (moved.push (token.shift count)) := by
  refine same.add [token] rfl rfl ?_ same.indents same.lineStart
  simp only [Layout.push, same.nesting]
  rfl

/-- Blocks are closed on both sides. -/
theorem closeTo (same : Moved count before layout moved) (width offset : Nat) :
    Moved count before (layout.closeTo width offset) (moved.closeTo width (offset + count)) := by
  refine same.add _ rfl ?_ same.nesting ?_ same.lineStart
  · rw [Layout.closeTo, same.indents, List.map_replicate]
    rfl
  · rw [Layout.closeTo, Layout.closeTo, same.indents]

/-- Both layouts open and close the same blocks, or refuse the same line. -/
theorem indentTo (same : Moved count before layout moved) (file : String) (width offset : Nat) :
    (∃ next after, layout.indentTo file width offset = .ok next ∧
      moved.indentTo file width (offset + count) = .ok after ∧ Moved count before next after) ∨
    ∃ fault, layout.indentTo file width offset = .error fault ∧
      moved.indentTo file width (offset + count) = .error (fault.shift count) := by
  have innermost : moved.width = layout.width := by rw [Layout.width, Layout.width, same.indents]
  have closed := same.closeTo width offset
  have outer : (moved.closeTo width (offset + count)).width =
      (layout.closeTo width offset).width := by
    rw [Layout.width, Layout.width, closed.indents]
  unfold Layout.indentTo
  dsimp only
  rw [innermost, outer]
  by_cases wider : layout.width < width
  · simp only [wider, ↓reduceIte]
    refine .inl ⟨_, _, rfl, rfl, ?_⟩
    exact same.add [Token.layout .indent offset] rfl rfl same.nesting
      (by rw [same.indents]) same.lineStart
  · simp only [wider, ↓reduceIte]
    by_cases fits : (layout.closeTo width offset).width = width
    · simp only [fits, ↓reduceIte]
      exact .inl ⟨_, _, rfl, rfl, closed⟩
    · simp only [fits, ↓reduceIte]
      exact .inr ⟨_, rfl, rfl⟩

/-- A line begins on both sides, or its indentation is wrong on both. -/
theorem beginLine (same : Moved count before layout moved) (file : String)
    (blanks rest : List Char) (offset : Nat) :
    (∃ next after, layout.beginLine file blanks rest offset = .ok next ∧
      moved.beginLine file blanks rest (offset + count) = .ok after ∧
      Moved count before next after) ∨
    ∃ fault, layout.beginLine file blanks rest offset = .error fault ∧
      moved.beginLine file blanks rest (offset + count) = .error (fault.shift count) := by
  unfold Layout.beginLine
  by_cases ended : isLineEnd rest = true
  · simp only [ended, ↓reduceIte]
    exact .inl ⟨_, _, rfl, rfl, same⟩
  · simp only [ended, ↓reduceIte, Bool.false_eq_true]
    rw [Nat.add_right_comm]
    exact same.indentTo file _ _

/-- A lexeme is pushed on both sides. -/
theorem pushLexeme (same : Moved count before layout moved) (kind : TokenKind) (chars : List Char)
    (offset : Nat) :
    Moved count before (layout.pushLexeme kind chars offset)
      (moved.pushLexeme kind chars (offset + count)) := by
  have pushed := same.push ⟨kind, String.ofList chars, ⟨offset, offset + byteLength chars⟩⟩
  simp only [Token.shift, Span.shift, Nat.add_right_comm _ (byteLength chars)] at pushed
  exact pushed

/-- A line ends on both sides. -/
theorem breakLine (same : Moved count before layout moved) (chars : List Char) (offset : Nat) :
    Moved count before (layout.breakLine chars offset)
      (moved.breakLine chars (offset + count)) := by
  have pushed := same.push ⟨.newline, "\n", ⟨offset, offset + byteLength chars⟩⟩
  simp only [Token.shift, Span.shift, Nat.add_right_comm _ (byteLength chars)] at pushed
  unfold Layout.breakLine
  rw [same.nesting, same.lastKind?]
  split
  · dsimp only
    split
    · exact pushed.add [] rfl rfl pushed.nesting pushed.indents rfl
    · exact same.add [] rfl rfl same.nesting same.indents rfl
  · exact same

/-- A lexeme is accepted on both sides. -/
theorem accept (same : Moved count before layout moved) (cls : LexemeClass) (chars : List Char)
    (offset : Nat) :
    Moved count before (layout.accept cls chars offset)
      (moved.accept cls chars (offset + count)) := by
  cases cls with
  | skipped => exact same
  | lineBreak => exact same.breakLine chars offset
  | string | number | word | mark => exact same.pushLexeme _ chars offset

/-- The text ends on both sides. -/
theorem finish (same : Moved count before layout moved) (offset : Nat) :
    ∃ later, layout.finish offset = before.reverse ++ later ∧
      moved.finish (offset + count) = before.reverse ++ later.map (Token.shift count) := by
  have ended : ∃ later, (if endsText layout.lastKind? then
        Token.layout .newline offset :: layout.tokens else layout.tokens) = later ++ before ∧
      (if endsText layout.lastKind? then
        Token.layout .newline (offset + count) :: moved.tokens else moved.tokens) =
        later.map (Token.shift count) ++ before := by
    obtain ⟨later, old, new⟩ := same.tokens
    rw [old, new]
    split
    · exact ⟨Token.layout .newline offset :: later, rfl, rfl⟩
    · exact ⟨later, rfl, rfl⟩
  obtain ⟨later, old, new⟩ := ended
  refine ⟨(Token.layout .eof offset :: (List.replicate (layout.indents.length - 1)
    (Token.layout .dedent offset) ++ later)).reverse, ?_, ?_⟩
  · rw [Layout.finish, old, ← List.append_assoc, ← List.cons_append, List.reverse_append]
  · rw [Layout.finish, same.lastKind?, new, same.indents, ← List.append_assoc, ← List.cons_append,
      List.reverse_append, List.map_reverse, List.map_cons, List.map_append, List.map_replicate]
    rfl

end Moved

end Layout

namespace Reading

open Lexeme

variable {count : Nat} {before : List Token} {reading other next last : Reading} {file : String}

/-- Two points of which the second one is so many bytes later, with the same text left. -/
structure Moved (count : Nat) (before : List Token) (reading other : Reading) : Prop where
  layout : Layout.Moved count before reading.layout other.layout
  offset : other.offset = reading.offset + count
  rest : other.rest = reading.rest

/-- Two outcomes with the tokens `before` in common, behind which the second one is so many bytes
later. -/
def Displaced (count : Nat) (before : List Token) (outcome other : Except Fault (List Token)) :
    Prop :=
  ∃ later, outcome = later.map (before.reverse ++ ·) ∧
    other = (shift count later).map (before.reverse ++ ·)

/-- A round and the same round so many bytes later. -/
theorem step_moved (file : String) (same : Moved count before reading other) :
    (∃ next after, reading.step file = .inl next ∧ other.step file = .inl after ∧
      Moved count before next after) ∨
    ∃ result shifted, reading.step file = .inr result ∧ other.step file = .inr shifted ∧
      Displaced count before result shifted := by
  obtain ⟨layout, offset, text⟩ := reading
  obtain ⟨layout', offset', rest⟩ := other
  obtain ⟨layouts, offsets, rests⟩ := same
  dsimp only at layouts offsets rests
  subst offsets rests
  have starts : (⟨layout', offset + count, rest⟩ : Reading).AtLine ↔
      (⟨layout, offset, rest⟩ : Reading).AtLine := by
    rw [AtLine, AtLine, layouts.nesting, layouts.lineStart]
  cases rest with
  | nil =>
      obtain ⟨later, old, new⟩ := layouts.finish offset
      refine .inr ⟨_, _, rfl, rfl, .ok later, ?_, ?_⟩
      · rw [old]
        rfl
      · rw [new]
        rfl
  | cons c rest =>
      simp only [step, starts]
      by_cases atLine : (⟨layout, offset, c :: rest⟩ : Reading).AtLine
      · simp only [atLine, ↓reduceIte]
        obtain ⟨next, after, old, new, begun⟩ | ⟨fault, old, new⟩ := layouts.beginLine file
          ((c :: rest).takeWhile isBlank) ((c :: rest).dropWhile isBlank) offset
        · rw [old, new]
          exact .inl ⟨_, _, rfl, rfl, begun.measured, Nat.add_right_comm _ _ _, rfl⟩
        · rw [old, new]
          exact .inr ⟨_, _, rfl, rfl, .error fault, rfl, rfl⟩
      · simp only [atLine, ↓reduceIte]
        cases next? (c :: rest) with
        | none => exact .inr ⟨_, _, rfl, rfl, .error _, rfl, rfl⟩
        | some lexeme =>
            exact .inl ⟨_, _, rfl, rfl, layouts.accept lexeme.1 _ offset,
              Nat.add_right_comm _ _ _, rfl⟩

/-- A scan from a moved place comes to the moved places. -/
theorem Reaches.moved (reached : reading.Reaches file last)
    (same : Moved count before reading other) :
    ∃ final, other.Reaches file final ∧ Moved count before last final := by
  induction reached with
  | refl => exact ⟨other, .refl, same⟩
  | tail _ goes ih =>
      obtain ⟨middle, reached, same⟩ := ih
      obtain ⟨next, after, old, new, goesOn⟩ | ⟨result, shifted, old, -⟩ := step_moved file same
      · cases old.symm.trans goes
        exact ⟨after, .tail reached new, goesOn⟩
      · cases old.symm.trans goes

/-- **What comes later moves.** -/
theorem outcome_moved (file : String) (same : Moved count before reading other) :
    Displaced count before (reading.outcome file) (other.outcome file) := by
  obtain ⟨last, reached, stops⟩ := exists_last file reading
  obtain ⟨final, moved, same⟩ := reached.moved same
  obtain ⟨next, after, old, -⟩ | ⟨result, shifted, old, new, displaced⟩ :=
    step_moved file same
  · cases old.symm.trans stops
  · cases old.symm.trans stops
    rw [moved.outcome_eq, outcome_of_stop new]
    exact displaced

end Reading

namespace Token

open Lexeme

/-- **Blank lines.**  Where the reading of `front ++ back` comes to `back` at the start of a line
outside of brackets, a blank line can come between the two.  The tokens that have been read by
then are the same.  The later ones, or the fault that is met in their place, are the same but for
their places, which move by the length of the line. -/
theorem scan_blankLine {front back line file : String} {layout : Layout}
    (reached : (Reading.start (front ++ back).toList).Reaches file
      ⟨layout, byteLength front.toList, back.toList⟩)
    (starts : layout.lineStart = true) (outside : layout.nesting = 0)
    (blank : BlankLine line.toList) :
    (Reading.start (front ++ line ++ back).toList).Reaches file
      ⟨layout, byteLength front.toList, (line ++ back).toList⟩ ∧
    ∃ later, scan (front ++ back) file = later.map (layout.tokens.reverse ++ ·) ∧
      scan (front ++ line ++ back) file =
        (Reading.shift (byteLength line.toList) later).map (layout.tokens.reverse ++ ·) := by
  have regular : layout.Regular := reached.regular Layout.regular_initial
  have idle := (regular.between starts).2
  have before : (Reading.start (front ++ line ++ back).toList).Reaches file
      ⟨layout, byteLength front.toList, (line ++ back).toList⟩ := by
    have split : (Reading.start (front ++ back).toList).rest = front.toList ++ back.toList :=
      String.toList_append
    have kept := reached.between blank.unquoted starts Layout.regular_initial split
    rw [String.toList_append, String.toList_append, String.toList_append, List.append_assoc]
    exact kept
  have passed : (⟨layout, byteLength front.toList, (line ++ back).toList⟩ : Reading).Reaches file
      ⟨layout, byteLength front.toList + byteLength line.toList, back.toList⟩ := by
    rw [String.toList_append]
    exact blank.reaches starts outside idle file _ _
  have same : Reading.Moved (byteLength line.toList) layout.tokens
      ⟨layout, byteLength front.toList, back.toList⟩
      ⟨layout, byteLength front.toList + byteLength line.toList, back.toList⟩ :=
    ⟨.refl _ layout, rfl, rfl⟩
  obtain ⟨later, first, second⟩ := Reading.outcome_moved file same
  refine ⟨before, later, ?_, ?_⟩
  · exact reached.outcome_eq.trans first
  · have whole : (Reading.start (front ++ line ++ back).toList).Reaches file
        ⟨layout, byteLength front.toList + byteLength line.toList, back.toList⟩ :=
      before.trans passed
    exact whole.outcome_eq.trans second

/-- A remark between a block and the line that closes it. -/
theorem scan_blankLine_block :
    ∃ (layout : Layout) (later : Except Fault (List Token)),
      layout.tokens.map Token.kind = [.newline, .identifier, .indent, .newline, .identifier] ∧
      scan ("a\n b\n" ++ "c") "m.py" = later.map (layout.tokens.reverse ++ ·) ∧
      scan ("a\n b\n" ++ "\t# d\r\n" ++ "c") "m.py" =
        (Reading.shift 6 later).map (layout.tokens.reverse ++ ·) := by
  have reached : (Reading.start ("a\n b\n" ++ "c").toList).Reaches "m.py"
      ⟨⟨[⟨.newline, "\n", ⟨4, 5⟩⟩, ⟨.identifier, "b", ⟨3, 4⟩⟩, ⟨.indent, "", ⟨3, 3⟩⟩,
        ⟨.newline, "\n", ⟨1, 2⟩⟩, ⟨.identifier, "a", ⟨0, 1⟩⟩], 0, [1, 0], true⟩,
        5, "c".toList⟩ := by
    iterate 6 refine .head (by with_unfolding_all rfl) ?_
    exact .refl
  have blank : BlankLine "\t# d\r\n".toList :=
    @BlankLine.remark ['\t'] [' ', 'd'] ['\r', '\n'] (by simp [isBlank]) (by simp [isBreak])
      (by simp) (.inr rfl)
  obtain ⟨-, later, short, long⟩ := scan_blankLine reached rfl rfl blank
  exact ⟨_, later, rfl, short, long⟩

end Token

end DocSketch
