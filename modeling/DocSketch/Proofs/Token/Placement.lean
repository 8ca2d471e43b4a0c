import DocSketch.Proofs.Token.Nesting
import DocSketch.Proofs.Token.Reading
import Mathlib.Data.List.Basic

/-!
# Where layout tokens stand

Line ends, and the tokens that open and close blocks and end a text, come from three places:
where a line is measured, where it breaks and where the text ends.  Wherever they come from,
they stand in the same order, and the widths of the open blocks grow from zero inwards.

* `Token.Arranged`: how layout tokens stand among the tokens of a text.
* `Layout.Stacked`: widths of blocks that grow inwards.
* `Layout.Regular`: what holds at every point of a run.
* `Reading.Reaches.regular`: every round keeps it.
* `Token.scan_arranged`: this for the tokens, the widths and the faults of every text.
-/

namespace DocSketch

namespace Token

/-- How layout tokens stand among the tokens of a text. -/
structure Arranged (tokens : List Token) : Prop where
  /-- Wherever tokens are cut, at most as many blocks have closed as have opened. -/
  opened : ∀ front back, tokens = front ++ back →
    front.countP (·.kind = .dedent) ≤ front.countP (·.kind = .indent)
  /-- In the end all blocks have closed. -/
  closed : tokens.countP (·.kind = .dedent) = tokens.countP (·.kind = .indent)
  /-- The last token ends the text, and no other does. -/
  ended : ∃ body stop, tokens = body ++ [stop] ∧ stop.kind = .eof ∧
    ∀ token ∈ body, token.kind ≠ .eof
  /-- A line end is not the first token, and it stands directly behind no other line end and no
  end of a block. -/
  lined : ∀ front token back, tokens = front ++ token :: back → token.kind = .newline →
    ∃ earlier, front.getLast? = some earlier ∧ earlier.kind ≠ .newline ∧ earlier.kind ≠ .dedent
  /-- Blocks open and close, and the text ends, directly behind line ends and borders of
  blocks. -/
  bordered : ∀ front earlier token back, tokens = front ++ earlier :: token :: back →
    token.kind = .indent ∨ token.kind = .dedent ∨ token.kind = .eof →
    earlier.kind = .newline ∨ earlier.kind = .indent ∨ earlier.kind = .dedent

variable {token : Token} {tokens : List Token} {level after : Nat}

/-- The blocks that are open are those that have opened and not closed. -/
theorem level?_count (known : level? level tokens = some after) :
    after + tokens.countP (·.kind = .dedent) = level + tokens.countP (·.kind = .indent) := by
  induction tokens generalizing level with
  | nil =>
      cases known
      rfl
  | cons token tokens ih =>
      rw [level?_cons] at known
      obtain ⟨next, layered, known⟩ := Option.bind_eq_some_iff.mp known
      have counted := ih known
      rw [List.countP_cons, List.countP_cons]
      unfold layer? at layered
      split at layered
      case h_1 opens =>
        cases layered
        simp only [opens, reduceCtorEq, decide_false, Bool.false_eq_true, ↓reduceIte, decide_true]
        omega
      case h_2 closes =>
        split at layered
        case isTrue => cases layered
        case isFalse positive =>
          cases layered
          simp only [closes, reduceCtorEq, decide_false, Bool.false_eq_true, ↓reduceIte,
            decide_true]
          omega
      case h_3 unopened unclosed =>
        cases layered
        have dedents : decide (token.kind = .dedent) = false := decide_eq_false unclosed
        have indents : decide (token.kind = .indent) = false := decide_eq_false unopened
        simpa only [dedents, indents, Bool.false_eq_true, ↓reduceIte, Nat.add_zero] using counted

/-- What stands directly before a token, if anything does, allows for it. -/
def Follows (earlier : Option TokenKind) (kind : TokenKind) : Prop :=
  (kind = .newline → Layout.endsText earlier = true) ∧
    (kind.isBorder = true → Layout.endsLine earlier = false)

/-- Tokens, the latest first, of which each may stand behind the one before it. -/
def Chained : List Token → Prop
  | [] => True
  | token :: earlier => Follows (earlier.head?.map Token.kind) token.kind ∧ Chained earlier

/-- Each token follows the one before it rightly. -/
theorem Chained.follows {later earlier : List Token}
    (chained : Chained (later ++ token :: earlier)) :
    Follows (earlier.head?.map Token.kind) token.kind := by
  induction later with
  | nil => exact chained.1
  | cons first later ih => exact ih chained.2

/-- A token with a text of its own may stand anywhere. -/
theorem follows_of_visible {kind : TokenKind} (visible : Lexeme.isLayoutKind kind = false)
    (earlier : Option TokenKind) : Follows earlier kind := by
  constructor
  · intro ends
    rw [ends] at visible
    cases visible
  · intro border
    rw [TokenKind.isBorder_of_visible visible] at border
    cases border

/-- Blocks may close behind a line, one after the other. -/
theorem Chained.dedents (chained : Chained tokens)
    (between : Layout.endsLine (tokens.head?.map Token.kind) = false) (count offset : Nat) :
    Chained (List.replicate count (layout .dedent offset) ++ tokens) ∧
      Layout.endsLine ((List.replicate count (layout .dedent offset) ++ tokens).head?.map
        Token.kind) = false := by
  induction count with
  | zero => exact ⟨chained, between⟩
  | succ count ih => exact ⟨⟨⟨TokenKind.noConfusion, fun _ => ih.2⟩, ih.1⟩, rfl⟩

end Token

namespace Layout

open Token Lexeme

variable {layout next : Layout} {indents stack : List Nat} {width offset : Nat}

/-- Widths of open blocks, the innermost first: they grow inwards, and the outermost is zero. -/
def Stacked (indents : List Nat) : Prop :=
  indents.Pairwise (fun inner outer => outer < inner) ∧ indents.getLast? = some 0

/-- What remains of the stack is stacked. -/
theorem Stacked.of_suffix (stacked : Stacked indents) (suffix : stack <:+ indents)
    (some : stack ≠ []) : Stacked stack := by
  obtain ⟨closed, rfl⟩ := suffix
  refine ⟨(List.pairwise_append.mp stacked.1).2.1, ?_⟩
  rw [← stacked.2, List.getLast?_append_of_ne_nil _ some]

/-- A wider indentation may be stacked. -/
theorem Stacked.opened (stacked : Stacked indents) (wider : indents.headD 0 < width) :
    Stacked (width :: indents) := by
  obtain ⟨growing, outermost⟩ := stacked
  cases indents with
  | nil => cases outermost
  | cons innermost outer =>
      refine ⟨List.pairwise_cons.mpr ⟨fun other member => ?_, growing⟩, outermost⟩
      rcases List.mem_cons.mp member with rfl | inside
      · exact wider
      · exact Nat.lt_trans ((List.pairwise_cons.mp growing).1 other inside) wider

/-- Not all blocks are wider than a line. -/
theorem Stacked.dropWhile_ne_nil (stacked : Stacked indents) (width : Nat) :
    indents.dropWhile (width < ·) ≠ [] := by
  intro all
  have wider := List.dropWhile_eq_nil_iff.mp all 0 (List.mem_of_getLast? stacked.2)
  exact Nat.not_lt_zero width (of_decide_eq_true wider)

/-- The stack stays stacked when blocks are closed. -/
theorem Stacked.closed (stacked : Stacked indents) (width : Nat) :
    Stacked (indents.dropWhile (width < ·)) :=
  stacked.of_suffix (List.dropWhile_suffix _) (stacked.dropWhile_ne_nil width)

/-- A width that a block has is that of the innermost block that is not wider. -/
theorem Stacked.headD_of_mem (stacked : Stacked indents) (member : width ∈ indents) :
    (indents.dropWhile (width < ·)).headD 0 = width := by
  induction indents with
  | nil => cases member
  | cons innermost outer ih =>
      rcases List.mem_cons.mp member with rfl | inside
      · rw [List.dropWhile_cons_of_neg (by simp)]
        rfl
      · have wider := (List.pairwise_cons.mp stacked.1).1 width inside
        rw [List.dropWhile_cons_of_pos (p := (width < ·)) (decide_eq_true wider)]
        exact ih (stacked.of_suffix (List.suffix_cons _ _) (List.ne_nil_of_mem inside)) inside

/-- What holds of the layout at every point of a run. -/
structure Regular (layout : Layout) : Prop where
  chained : Chained layout.tokens
  /-- A line starts outside of brackets, where no line is left to be ended. -/
  between : layout.lineStart = true → layout.nesting = 0 ∧ endsLine layout.lastKind? = false
  stacked : Stacked layout.indents

/-- The scan starts regularly. -/
theorem regular_initial : initial.Regular :=
  ⟨trivial, fun _ => ⟨rfl, rfl⟩, List.pairwise_singleton _ 0, rfl⟩

/-- What the next line changes nothing about. -/
theorem Regular.measured (regular : layout.Regular) :
    Regular { layout with lineStart := false } :=
  ⟨regular.chained, fun starts => absurd starts Bool.false_ne_true, regular.stacked⟩

/-- A token that may follow keeps the scan regular. -/
theorem Regular.push {token : Token} (regular : layout.Regular) (within : layout.lineStart = false)
    (follows : Follows layout.lastKind? token.kind) : (layout.push token).Regular :=
  ⟨⟨follows, regular.chained⟩, fun starts => absurd (within.symm.trans starts) Bool.false_ne_true,
    regular.stacked⟩

/-- A new indentation keeps the scan regular. -/
theorem Regular.indentTo {file : String} (regular : layout.Regular)
    (starts : layout.lineStart = true)
    (indented : layout.indentTo file width offset = .ok next) :
    Regular { next with lineStart := false } := by
  have ended := (regular.between starts).2
  unfold Layout.indentTo at indented
  split at indented
  case isTrue wider =>
    cases indented
    refine ⟨⟨⟨TokenKind.noConfusion, fun _ => ended⟩, regular.chained⟩,
      fun again => absurd again Bool.false_ne_true, regular.stacked.opened wider⟩
  case isFalse =>
    dsimp only at indented
    split at indented
    case isTrue =>
      cases indented
      exact ⟨(regular.chained.dedents ended _ offset).1,
        fun again => absurd again Bool.false_ne_true, regular.stacked.closed width⟩
    case isFalse => cases indented

/-- A new line keeps the scan regular. -/
theorem Regular.beginLine {file : String} {blanks rest : List Char} (regular : layout.Regular)
    (starts : layout.lineStart = true)
    (begun : layout.beginLine file blanks rest offset = .ok next) :
    Regular { next with lineStart := false } := by
  unfold Layout.beginLine at begun
  split at begun
  · cases begun
    exact regular.measured
  · exact regular.indentTo starts begun

/-- A line end comes where a line is left to be ended. -/
theorem endsText_of_endsLine {kind : Option TokenKind} (ends : endsLine kind = true) :
    endsText kind = true := by
  unfold endsLine at ends
  unfold endsText
  split at ends
  case h_5 => split <;> simp_all
  all_goals cases ends

/-- A line that needs no end at the end of the text needs none before. -/
theorem endsLine_of_endsText {kind : Option TokenKind} (done : endsText kind = false) :
    endsLine kind = false := by
  by_contra ends
  rw [Bool.not_eq_false] at ends
  exact Bool.false_ne_true (done.symm.trans (endsText_of_endsLine ends))

/-- A line that needs no end has just begun. -/
theorem kinds_of_endsLine {kind : TokenKind} (ended : endsLine (some kind) = false) :
    kind = .newline ∨ kind = .indent ∨ kind = .dedent := by
  unfold endsLine at ended
  split at ended <;> simp_all

/-- The end of a line keeps the scan regular. -/
theorem Regular.breakLine (regular : layout.Regular) (within : layout.lineStart = false)
    (chars : List Char) (offset : Nat) : (layout.breakLine chars offset).Regular := by
  unfold Layout.breakLine
  split
  case isFalse => exact regular
  case isTrue outside =>
    dsimp only
    split
    case isTrue ends =>
      have pushed : (layout.push
          ⟨.newline, "\n", ⟨offset, offset + Text.byteLength chars⟩⟩).Regular :=
        regular.push within ⟨fun _ => endsText_of_endsLine ends, Bool.noConfusion⟩
      exact ⟨pushed.chained, fun _ => ⟨outside, rfl⟩, pushed.stacked⟩
    case isFalse ended =>
      rw [Bool.not_eq_true] at ended
      exact ⟨regular.chained, fun _ => ⟨outside, ended⟩, regular.stacked⟩

/-- A lexeme keeps the scan regular. -/
theorem Regular.accept {cs : List Char} {cls : LexemeClass} {length : Nat}
    (regular : layout.Regular) (within : layout.lineStart = false)
    (found : next? cs = some (cls, length)) (offset : Nat) :
    (layout.accept cls (cs.take length) offset).Regular := by
  have leaves := next?_leaves found
  cases cls with
  | skipped => exact regular
  | lineBreak => exact regular.breakLine within _ offset
  | string | number => exact regular.push within (follows_of_visible rfl _)
  | word => exact regular.push within (follows_of_visible (isLayoutKind_wordKind _) _)
  | mark kind => exact regular.push within (follows_of_visible leaves _)

/-- At the end of a text the last line ends, then all blocks close, then the text ends. -/
theorem Regular.finish (regular : layout.Regular) (offset : Nat) :
    Chained (layout.finish offset).reverse := by
  obtain ⟨ended, chained, between, read⟩ : ∃ ended, Chained ended ∧
      endsLine (ended.head?.map Token.kind) = false ∧
      ended = if endsText layout.lastKind? then
        Token.layout .newline offset :: layout.tokens else layout.tokens := by
    split
    case isTrue ends =>
      exact ⟨Token.layout .newline offset :: layout.tokens,
        ⟨⟨fun _ => ends, Bool.noConfusion⟩, regular.chained⟩, rfl, rfl⟩
    case isFalse done =>
      rw [Bool.not_eq_true] at done
      exact ⟨_, regular.chained, endsLine_of_endsText done, rfl⟩
  obtain ⟨closed, last⟩ := chained.dedents between (layout.indents.length - 1) offset
  rw [Layout.finish, List.reverse_reverse, ← read]
  exact ⟨⟨TokenKind.noConfusion, fun _ => last⟩, closed⟩

/-- A line is refused if no open block has its width. -/
theorem not_mem_of_beginLine {file : String} {blanks rest : List Char} {fault : Fault}
    (regular : layout.Regular)
    (failed : layout.beginLine file blanks rest offset = .error fault) :
    ∃ width position, fault = ⟨.inconsistentIndentation width, position⟩ ∧
      width ∉ layout.indents := by
  unfold Layout.beginLine at failed
  split at failed
  · cases failed
  · unfold Layout.indentTo at failed
    split at failed
    · cases failed
    · dsimp only at failed
      split at failed
      case isTrue => cases failed
      case isFalse other =>
        cases failed
        exact ⟨_, _, rfl, fun member => other (regular.stacked.headD_of_mem member)⟩

end Layout

namespace Reading

variable {file : String} {reading next last : Reading}

/-- **Rounds keep the layout regular.** -/
theorem step_regular (regular : reading.layout.Regular) (goes : reading.step file = .inl next) :
    next.layout.Regular := by
  obtain ⟨begun, -, starts, measured, rfl⟩ | ⟨cls, length, within, found, rfl⟩ := step_cases goes
  · exact regular.beginLine starts.1 measured
  · have measured : reading.layout.lineStart = false := by
      rw [← Bool.not_eq_true]
      exact fun starts => within ⟨starts, (regular.between starts).1⟩
    exact regular.accept measured found reading.offset

/-- The scan stays regular. -/
theorem Reaches.regular (reached : reading.Reaches file last) (regular : reading.layout.Regular) :
    last.layout.Regular :=
  reached.invariant step_regular regular

end Reading

namespace Token

variable {tokens : List Token}

/-- Tokens that close the blocks they open, of which each may stand behind the one before it. -/
theorem arranged_of_chained {body : List Token} {stop : Token} (nested : Nested body)
    (goesOn : ∀ token ∈ body, token.kind ≠ .eof) (stops : stop.kind = .eof)
    (chained : Chained (body ++ [stop]).reverse) : Arranged (body ++ [stop]) := by
  have whole : level? 0 (body ++ [stop]) = some 0 := by
    rw [level?_append, nested, Option.bind_some, level?_cons, layer?, stops]
    rfl
  have behind : ∀ front token back, body ++ [stop] = front ++ token :: back →
      Follows (front.getLast?.map Token.kind) token.kind := by
    intro front token back split
    rw [split, List.reverse_append, List.reverse_cons, List.append_assoc, List.singleton_append]
      at chained
    rw [← List.head?_reverse]
    exact chained.follows
  constructor
  case opened =>
    intro front back split
    rw [split] at whole
    obtain ⟨level, known, -⟩ := Nested.level?_suffix whole
    have counted := level?_count known
    omega
  case closed =>
    have counted := level?_count whole
    omega
  case ended => exact ⟨body, stop, rfl, stops, goesOn⟩
  case lined =>
    intro front token back split ends
    have line := (behind front token back split).1 ends
    cases last : front.getLast? with
    | none =>
        rw [last] at line
        cases line
    | some earlier =>
        rw [last] at line
        refine ⟨earlier, rfl, fun same => ?_, fun same => ?_⟩
        · simp [Layout.endsText, same] at line
        · simp [Layout.endsText, same] at line
  case bordered =>
    intro front earlier token back split borders
    have border : token.kind.isBorder = true := by
      rcases borders with same | same | same <;> rw [same] <;> rfl
    have apart : body ++ [stop] = front ++ [earlier] ++ token :: back := by
      rw [split, List.append_assoc, List.singleton_append]
    have between := (behind (front ++ [earlier]) token back apart).2 border
    rw [List.getLast?_append_of_ne_nil _ (List.cons_ne_nil _ _)] at between
    exact Layout.kinds_of_endsLine between

/-- **Layout tokens are arranged.**  The tokens of a text open and close blocks and end lines in
good order.  At every point of its reading the open blocks grow inwards from width zero, also
while some of them are being closed.  A line that is refused has a width that no block had that
was open where the line starts. -/
theorem scan_arranged (source file : String) :
    (∀ tokens, scan source file = .ok tokens → Arranged tokens) ∧
    (∀ reading : Reading, (Reading.start source.toList).Reaches file reading →
      ∀ stack, stack ≠ [] → stack <:+ reading.layout.indents → Layout.Stacked stack) ∧
    ∀ fault width, scan source file = .error fault → fault.cause = .inconsistentIndentation width →
      ∃ line : Reading, (Reading.start source.toList).Reaches file line ∧ line.AtLine ∧
        line.step file = .inr (.error fault) ∧ width ∉ line.layout.indents := by
  have kept : ∀ reading : Reading, (Reading.start source.toList).Reaches file reading →
      reading.layout.Regular := fun _ reached => reached.regular Layout.regular_initial
  obtain ⟨last, reached, stops⟩ := Reading.exists_last file (.start source.toList)
  have regular := kept last reached
  refine ⟨fun tokens scanned => ?_, fun reading reached stack some suffix => ?_,
    fun fault width failed caused => ?_⟩
  · obtain ⟨body, stop, rfl, ends, nested, goesOn⟩ := scan_nested scanned
    have done : (Reading.start source.toList).outcome file = .ok (body ++ [stop]) := scanned
    rw [done] at stops
    obtain ⟨-, read⟩ | ⟨fault, -, -, read⟩ | ⟨token, read⟩ := Reading.stop_cases stops
    · have chained := regular.finish last.offset
      rw [← Except.ok.inj read] at chained
      exact arranged_of_chained nested goesOn ends chained
    · cases read
    · cases read
  · exact (kept reading reached).stacked.of_suffix suffix some
  · have refused : (Reading.start source.toList).outcome file = .error fault := failed
    rw [refused] at stops
    obtain ⟨-, read⟩ | ⟨other, starts, measured, read⟩ | ⟨token, read⟩ := Reading.stop_cases stops
    · cases read
    · cases read
      obtain ⟨wide, position, rfl, absent⟩ := Layout.not_mem_of_beginLine regular measured
      cases caused
      exact ⟨last, reached, starts, stops, absent⟩
    · cases read
      cases caused

/-- A block that ends with the text, and a line between the widths of two blocks. -/
theorem scan_arranged_blocks :
    (∃ tokens, scan "if x:\n  y" "m.py" = .ok tokens ∧
      tokens.map Token.kind = [.ifKw, .identifier, .colon, .newline, .indent, .identifier, .newline,
        .dedent, .eof] ∧
      Arranged tokens) ∧
    scan "if x:\n  y\n z" "m.py" = .error ⟨.inconsistentIndentation 1, ⟨11, "m.py"⟩⟩ ∧
    ∃ line : Reading, (Reading.start "if x:\n  y\n z".toList).Reaches "m.py" line ∧
      line.AtLine ∧ 1 ∉ line.layout.indents := by
  have block : Layout.scanWithin 20 .initial "m.py" 0 "if x:\n  y".toList =
      some (.ok [⟨.ifKw, "if", ⟨0, 2⟩⟩, ⟨.identifier, "x", ⟨3, 4⟩⟩, ⟨.colon, ":", ⟨4, 5⟩⟩,
        ⟨.newline, "\n", ⟨5, 6⟩⟩, ⟨.indent, "", ⟨8, 8⟩⟩, ⟨.identifier, "y", ⟨8, 9⟩⟩,
        ⟨.newline, "", ⟨9, 9⟩⟩, ⟨.dedent, "", ⟨9, 9⟩⟩, ⟨.eof, "", ⟨9, 9⟩⟩]) := by
    with_unfolding_all rfl
  have between : Layout.scanWithin 20 .initial "m.py" 0 "if x:\n  y\n z".toList =
      some (.error ⟨.inconsistentIndentation 1, ⟨11, "m.py"⟩⟩) := by
    with_unfolding_all rfl
  have scanned := Layout.scanFrom_of_scanWithin block
  have failed := Layout.scanFrom_of_scanWithin between
  obtain ⟨line, reached, starts, -, absent⟩ :=
    (scan_arranged "if x:\n  y\n z" "m.py").2.2 _ 1 failed rfl
  exact ⟨⟨_, scanned, rfl, (scan_arranged "if x:\n  y" "m.py").1 _ scanned⟩, failed, line, reached,
    starts, absent⟩

end Token

end DocSketch
