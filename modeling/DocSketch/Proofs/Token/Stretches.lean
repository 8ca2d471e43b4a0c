import DocSketch.Proofs.Grammar.Readers
import DocSketch.Proofs.Token.Locality
import DocSketch.Proofs.Token.Tiling

/-!
# Stretches of a text

Tokens that follow each other are read from a stretch of the text.  Read again between
parentheses, this stretch gives the same tokens, if its brackets are balanced: then all of
it is inside the parentheses, where line breaks do not count.

* `Token.depth?`, `Token.Balanced`: the brackets that a list of tokens opens and closes.
* `Token.Traced`: the lexemes that the tokens of a text come from.
* `Token.Lexed`: this for a stretch that ends with a token.
* `Token.scan_parenthesised`: the tokens of a stretch in parentheses.
-/

namespace DocSketch

namespace Token

/-- Number of open brackets behind a token of the given kind, where `depth` are open before
it; `none` if it closes a bracket that is not open. -/
def turn? (depth : Nat) (kind : TokenKind) : Option Nat :=
  if kind.isOpening then some (depth + 1)
  else if kind.isClosing then (if depth = 0 then none else some (depth - 1))
  else some depth

/-- Number of open brackets behind the tokens, where `depth` are open before them. -/
def depth? : Nat → List Token → Option Nat
  | depth, [] => some depth
  | depth, token :: tokens => (turn? depth token.kind).bind fun next => depth? next tokens

/-- The tokens close exactly the brackets that they open. -/
def Balanced (tokens : List Token) : Prop := depth? 0 tokens = some 0

instance (tokens : List Token) : Decidable (Balanced tokens) :=
  inferInstanceAs (Decidable (depth? 0 tokens = some 0))

section Depth

variable {token : Token} {tokens others : List Token} {depth after : Nat} {kind : TokenKind}

/-- An opening bracket goes one deeper. -/
theorem turn?_opening (opens : kind.isOpening = true) (depth : Nat) :
    turn? depth kind = some (depth + 1) := by
  rw [turn?, if_pos opens]

/-- A closing bracket comes one back. -/
theorem turn?_closing (closes : kind.isClosing = true) (depth : Nat) :
    turn? (depth + 1) kind = some depth := by
  cases kind <;> cases closes <;> rfl

/-- Any other token stays as deep. -/
theorem turn?_other (unopened : kind.isOpening = false) (unclosed : kind.isClosing = false)
    (depth : Nat) : turn? depth kind = some depth := by
  rw [turn?, unopened, unclosed]
  rfl

/-- More brackets that are open before a token stay open. -/
theorem turn?_add (known : turn? depth kind = some after) (more : Nat) :
    turn? (depth + more) kind = some (after + more) := by
  unfold turn? at known ⊢
  split at known
  case isTrue opens =>
    cases known
    rw [if_pos opens, Nat.add_right_comm]
  case isFalse unopened =>
    rw [if_neg unopened]
    split at known
    case isTrue closes =>
      split at known
      case isTrue => cases known
      case isFalse positive =>
        cases known
        have still : depth + more ≠ 0 := by omega
        rw [if_pos closes, if_neg still]
        congr 1
        omega
    case isFalse unclosed =>
      cases known
      rw [if_neg unclosed]

theorem depth?_append (depth : Nat) (tokens others : List Token) :
    depth? depth (tokens ++ others) =
      (depth? depth tokens).bind fun next => depth? next others := by
  induction tokens generalizing depth with
  | nil => rfl
  | cons token tokens ih =>
      simp only [List.cons_append, depth?, Option.bind_assoc, ih]

/-- The brackets outside do not count. -/
theorem depth?_add (known : depth? depth tokens = some after) (more : Nat) :
    depth? (depth + more) tokens = some (after + more) := by
  induction tokens generalizing depth with
  | nil =>
      cases known
      rfl
  | cons token tokens ih =>
      obtain ⟨next, turned, others⟩ := Option.bind_eq_some_iff.mp known
      rw [depth?, turn?_add turned]
      exact ih others

namespace Balanced

theorem nil : Balanced [] := rfl

/-- Balanced tokens end as deep as they start. -/
theorem depth?_eq (balanced : Balanced tokens) (depth : Nat) :
    depth? depth tokens = some depth := by
  have shifted := depth?_add balanced depth
  rwa [Nat.zero_add] at shifted

theorem append (first : Balanced tokens) (second : Balanced others) :
    Balanced (tokens ++ others) := by
  rw [Balanced, depth?_append, first.depth?_eq]
  exact second

theorem cons (unopened : token.kind.isOpening = false) (unclosed : token.kind.isClosing = false)
    (balanced : Balanced tokens) : Balanced (token :: tokens) := by
  rw [Balanced, depth?, turn?_other unopened unclosed]
  exact balanced

/-- Balanced tokens between two brackets. -/
theorem enclosed {closing : Token} (opens : token.kind.isOpening = true)
    (closes : closing.kind.isClosing = true) (balanced : Balanced tokens) :
    Balanced (token :: (tokens ++ [closing])) := by
  rw [Balanced, depth?, turn?_opening opens, Option.bind_some, depth?_append, balanced.depth?_eq,
    Option.bind_some, depth?, turn?_closing closes]
  rfl

end Balanced

end Depth

end Token

/-- Kind of the token that a lexeme of the class `cls` leaves, unless it leaves none. -/
def LexemeClass.kind? (cls : LexemeClass) (chars : List Char) : Option TokenKind :=
  match cls with
  | .skipped | .lineBreak => none
  | .string => some .string
  | .number => some .number
  | .word => some (wordKind (String.ofList chars))
  | .mark kind => some kind

namespace Token

open Lexeme Text

/-- The token of a lexeme at the byte offset `offset`. -/
def ofLexeme (kind : TokenKind) (chars : List Char) (offset : Nat) : Token :=
  ⟨kind, String.ofList chars, ⟨offset, offset + byteLength chars⟩⟩

/-- A text at the byte offset `offset` is read lexeme by lexeme; tokens that stand for the
layout of lines may be anywhere between the others. -/
inductive Traced : Nat → List Char → List Token → Prop
  | done {offset : Nat} : Traced offset [] []
  | layout {offset : Nat} {chars : List Char} {token : Token} {tokens : List Token}
      (isLayout : isLayoutKind token.kind = true) (others : Traced offset chars tokens) :
      Traced offset chars (token :: tokens)
  | skip {offset : Nat} {chars rest : List Char} {cls : LexemeClass} {tokens : List Token}
      (found : next? (chars ++ rest) = some (cls, chars.length)) (absent : cls.kind? chars = none)
      (others : Traced (offset + byteLength chars) rest tokens) :
      Traced offset (chars ++ rest) tokens
  | token {offset : Nat} {chars rest : List Char} {cls : LexemeClass} {kind : TokenKind}
      {tokens : List Token} (found : next? (chars ++ rest) = some (cls, chars.length))
      (known : cls.kind? chars = some kind)
      (others : Traced (offset + byteLength chars) rest tokens) :
      Traced offset (chars ++ rest) (ofLexeme kind chars offset :: tokens)

/-- The text of a stretch, which `after` follows, is read lexeme by lexeme, and the last one
leaves a token. -/
inductive Lexed (after : List Char) : Nat → List Char → List Token → Prop
  | nil {offset : Nat} : Lexed after offset [] []
  | skip {offset : Nat} {chars rest : List Char} {cls : LexemeClass} {tokens : List Token}
      (found : next? (chars ++ (rest ++ after)) = some (cls, chars.length))
      (absent : cls.kind? chars = none) (goesOn : rest ≠ [])
      (others : Lexed after (offset + byteLength chars) rest tokens) :
      Lexed after offset (chars ++ rest) tokens
  | token {offset : Nat} {chars rest : List Char} {cls : LexemeClass} {kind : TokenKind}
      {tokens : List Token} (found : next? (chars ++ (rest ++ after)) = some (cls, chars.length))
      (known : cls.kind? chars = some kind)
      (others : Lexed after (offset + byteLength chars) rest tokens) :
      Lexed after offset (chars ++ rest) (ofLexeme kind chars offset :: tokens)

section Traced

variable {offset : Nat} {chars rest : List Char} {tokens : List Token}

/-- Layout tokens need no characters. -/
theorem Traced.layouts {added : List Token} (all : ∀ token ∈ added, isLayoutKind token.kind = true)
    (traced : Traced offset chars tokens) : Traced offset chars (added ++ tokens) := by
  induction added with
  | nil => exact traced
  | cons token added ih =>
      obtain ⟨first, others⟩ := List.forall_mem_cons.mp all
      exact .layout first (ih others)

/-- Blanks are a lexeme that leaves no token. -/
theorem Traced.blanks (cs : List Char)
    (traced : Traced (offset + byteLength (cs.takeWhile isBlank)) (cs.dropWhile isBlank) tokens) :
    Traced offset cs tokens := by
  by_cases none : cs.takeWhile isBlank = []
  · have whole := List.takeWhile_append_dropWhile (p := isBlank) (l := cs)
    rw [none, List.nil_append] at whole
    rwa [none, whole, byteLength_nil, Nat.add_zero] at traced
  · have found : next? (cs.takeWhile isBlank ++ cs.dropWhile isBlank) =
        some (.skipped, (cs.takeWhile isBlank).length) := by
      rw [List.takeWhile_append_dropWhile]
      have positive : blankLength cs ≠ 0 := fun zero => none (List.eq_nil_of_length_eq_zero zero)
      simp only [next?, Option.orElse_eq_orElse, Option.orElse_eq_or, sized, if_neg positive]
      rfl
    rw [← List.takeWhile_append_dropWhile (p := isBlank) (l := cs)]
    exact .skip found rfl traced

/-- The tokens in front of a traced text, as far as none stands for the layout of lines. -/
theorem Traced.front {stretch back : List Token} (traced : Traced offset chars (stretch ++ back))
    (plain : ∀ token ∈ stretch, isLayoutKind token.kind = false) :
    ∃ text after, chars = text ++ after ∧ Lexed after offset text stretch ∧
      (stretch ≠ [] → text ≠ []) := by
  generalize whole : stretch ++ back = tokens at traced
  induction traced generalizing stretch with
  | @done offset =>
      obtain ⟨rfl, -⟩ := List.append_eq_nil_iff.mp whole
      exact ⟨[], [], rfl, .nil, fun absent => absurd rfl absent⟩
  | @layout offset chars token tokens isLayout others ih =>
      cases stretch with
      | nil => exact ⟨[], chars, rfl, .nil, fun absent => absurd rfl absent⟩
      | cons first stretch =>
          obtain ⟨rfl, -⟩ := List.cons.inj whole
          exact absurd (plain first List.mem_cons_self) (by rw [isLayout]; decide)
  | @skip offset chars rest cls tokens found absent others ih =>
      by_cases none : stretch = []
      · exact ⟨[], chars ++ rest, rfl, none ▸ .nil, fun some => absurd none some⟩
      · obtain ⟨text, after, rfl, lexed, nonempty⟩ := ih plain whole
        refine ⟨chars ++ text, after, (List.append_assoc ..).symm, ?_, fun _ => ?_⟩
        · exact .skip found absent (nonempty none) lexed
        · exact List.append_ne_nil_of_right_ne_nil _ (nonempty none)
  | @token offset chars rest cls kind tokens found known others ih =>
      cases stretch with
      | nil => exact ⟨[], chars ++ rest, rfl, .nil, fun absent => absurd rfl absent⟩
      | cons first stretch =>
          obtain ⟨rfl, rfl⟩ := List.cons.inj whole
          obtain ⟨-, plain⟩ := List.forall_mem_cons.mp plain
          obtain ⟨text, after, rfl, lexed, -⟩ := ih plain rfl
          refine ⟨chars ++ text, after, (List.append_assoc ..).symm, .token found known lexed, ?_⟩
          have positive := pos_of_next? found
          exact fun _ => List.append_ne_nil_of_left_ne_nil
            (List.ne_nil_of_length_pos positive) _

/-- Tokens that follow each other come from a stretch of the text, which starts with the
first of them. -/
theorem Traced.stretch {front back stretch : List Token} {first : Token}
    (traced : Traced offset chars (front ++ (first :: stretch ++ back)))
    (plain : ∀ token ∈ first :: stretch, isLayoutKind token.kind = false) :
    ∃ before text after, chars = before ++ (text ++ after) ∧
      first.span.start = offset + byteLength before ∧
      Lexed after (offset + byteLength before) text (first :: stretch) := by
  generalize whole : front ++ (first :: stretch ++ back) = tokens at traced
  induction traced generalizing front with
  | done => simp at whole
  | @layout offset chars token tokens isLayout others ih =>
      cases front with
      | nil =>
          obtain ⟨rfl, -⟩ := List.cons.inj whole
          exact absurd (plain first List.mem_cons_self) (by rw [isLayout]; decide)
      | cons earlier front => exact ih (List.cons.inj whole).2
  | @skip offset chars rest cls tokens found absent others ih =>
      obtain ⟨before, text, after, rfl, starts, lexed⟩ := ih whole
      refine ⟨chars ++ before, text, after, (List.append_assoc ..).symm, ?_, ?_⟩
      · rw [starts, byteLength_append, Nat.add_assoc]
      · rwa [byteLength_append, ← Nat.add_assoc]
  | @token offset chars rest cls kind tokens found known others ih =>
      cases front with
      | nil =>
          have traced : Traced offset (chars ++ rest) (first :: stretch ++ back) := by
            rw [List.nil_append] at whole
            rw [whole]
            exact .token found known others
          obtain ⟨text, after, same, lexed, -⟩ := traced.front plain
          obtain ⟨rfl, -⟩ := List.cons.inj whole
          exact ⟨[], text, after, same, rfl, lexed⟩
      | cons earlier front =>
          obtain ⟨before, text, after, rfl, starts, lexed⟩ := ih (List.cons.inj whole).2
          refine ⟨chars ++ before, text, after, (List.append_assoc ..).symm, ?_, ?_⟩
          · rw [starts, byteLength_append, Nat.add_assoc]
          · rwa [byteLength_append, ← Nat.add_assoc]

/-- No tokens are lexed from no characters. -/
theorem Lexed.eq_nil {after : List Char} (lexed : Lexed after offset chars []) : chars = [] := by
  generalize empty : [] = tokens at lexed
  induction lexed with
  | nil => rfl
  | skip found absent goesOn others ih => exact absurd (ih empty) goesOn
  | token => cases empty

/-- The last token of a stretch ends it. -/
theorem Lexed.getLast? {after : List Char} (lexed : Lexed after offset chars tokens) :
    ∀ last ∈ tokens.getLast?, last.span.stop = offset + byteLength chars := by
  induction lexed with
  | nil => simp
  | skip found absent goesOn others ih =>
      intro last member
      rw [ih last member, byteLength_append, Nat.add_assoc]
  | @token offset chars rest cls kind tokens found known others ih =>
      intro last member
      cases tokens with
      | nil =>
          cases member
          rw [others.eq_nil, List.append_nil]
          rfl
      | cons second tokens =>
          rw [List.getLast?_cons_cons] at member
          rw [ih last member, byteLength_append, Nat.add_assoc]

end Traced

end Token

namespace Layout

open Lexeme Text Token

variable {layout next : Layout} {offset : Nat} {chars rest : List Char} {cls : LexemeClass}

/-- The tokens that have been added stand for the layout of lines. -/
def AddsLayout (layout next : Layout) : Prop :=
  ∃ added, next.tokens.reverse = layout.tokens.reverse ++ added ∧
    ∀ token ∈ added, isLayoutKind token.kind = true

/-- Adding no token adds layout only. -/
theorem addsLayout_of_eq (same : next.tokens = layout.tokens) : layout.AddsLayout next :=
  ⟨[], by rw [same, List.append_nil], fun _ member => by cases member⟩

theorem addsLayout_of_cons {token : Token} (isLayout : isLayoutKind token.kind = true)
    (pushed : next.tokens = token :: layout.tokens) : layout.AddsLayout next := by
  refine ⟨[token], by rw [pushed, List.reverse_cons], fun other member => ?_⟩
  rwa [List.mem_singleton.mp member]

/-- The start of a line adds layout only. -/
theorem beginLine_addsLayout {file : String} {blanks : List Char}
    (begun : layout.beginLine file blanks rest offset = .ok next) : layout.AddsLayout next := by
  unfold beginLine at begun
  split at begun
  · cases begun
    exact addsLayout_of_eq rfl
  · unfold indentTo at begun
    split at begun
    · cases begun
      exact addsLayout_of_cons rfl rfl
    · dsimp only at begun
      split at begun
      · cases begun
        refine ⟨List.replicate _ _, by rw [closeTo, List.reverse_append, List.reverse_replicate],
          fun token member => ?_⟩
        rw [List.eq_of_mem_replicate member]
        rfl
      · cases begun

/-- A lexeme without a token adds layout only. -/
theorem accept_addsLayout (absent : cls.kind? chars = none) :
    layout.AddsLayout (layout.accept cls chars offset) := by
  cases cls with
  | skipped => exact addsLayout_of_eq rfl
  | lineBreak =>
      unfold accept breakLine
      dsimp only
      split
      · split
        · exact addsLayout_of_cons rfl rfl
        · exact addsLayout_of_eq rfl
      · exact addsLayout_of_eq rfl
  | string | number | word | mark => cases absent

/-- A lexeme with a token adds it. -/
theorem accept_eq {kind : TokenKind} (known : cls.kind? chars = some kind) :
    layout.accept cls chars offset = layout.push (ofLexeme kind chars offset) := by
  cases cls with
  | skipped | lineBreak => cases known
  | string | number | word | mark =>
      cases known
      rfl

/-- The end of the text adds layout only. -/
theorem finish_addsLayout (layout : Layout) (offset : Nat) :
    ∃ added, layout.finish offset = layout.tokens.reverse ++ added ∧
      ∀ token ∈ added, isLayoutKind token.kind = true := by
  have ends : ∀ token ∈ List.replicate (layout.indents.length - 1) (Token.layout .dedent offset) ++
      [Token.layout .eof offset], isLayoutKind token.kind = true := by
    intro token member
    rcases List.mem_append.mp member with closing | last
    · rw [List.eq_of_mem_replicate closing]
      rfl
    · rw [List.mem_singleton.mp last]
      rfl
  unfold finish
  dsimp only
  split
  · refine ⟨Token.layout .newline offset :: (List.replicate _ _ ++ [_]), ?_,
      List.forall_mem_cons.mpr ⟨rfl, ends⟩⟩
    simp only [List.reverse_cons, List.reverse_append, List.reverse_replicate, List.append_assoc,
      List.cons_append, List.nil_append]
  · refine ⟨List.replicate _ _ ++ [_], ?_, ends⟩
    simp only [List.reverse_cons, List.reverse_append, List.reverse_replicate, List.append_assoc]

/-- Every lexeme of a text that is read can be traced. -/
theorem scanFrom_traced {file : String} {tokens : List Token} (layout : Layout) (offset : Nat)
    (cs : List Char) (scanned : layout.scanFrom file offset cs = .ok tokens) :
    ∃ added, tokens = layout.tokens.reverse ++ added ∧ Traced offset cs added := by
  -- Along the scan: the end of the text, the start of a line (which may fail), and a lexeme.
  induction layout, offset, cs using Layout.scanFrom.induct file with
  | case1 layout offset =>
      rw [scanFrom] at scanned
      cases scanned
      obtain ⟨added, same, all⟩ := layout.finish_addsLayout offset
      refine ⟨added, same, ?_⟩
      rw [← List.append_nil added]
      exact Traced.done.layouts all
  | case2 layout offset c rest atStart blanks after fault begun =>
      rw [scanFrom] at scanned
      simp only [atStart, and_self, ↓reduceIte] at scanned
      rw [begun] at scanned
      cases scanned
  | case3 layout offset c rest atStart blanks after next begun ih =>
      rw [scanFrom] at scanned
      simp only [atStart, and_self, ↓reduceIte] at scanned
      rw [begun] at scanned
      obtain ⟨later, rfl, traced⟩ := ih scanned
      obtain ⟨added, grown, all⟩ := beginLine_addsLayout begun
      refine ⟨added ++ later, ?_, .blanks _ (traced.layouts all)⟩
      rw [← List.append_assoc, ← grown]
  | case4 layout offset c rest within unknown =>
      rw [scanFrom, if_neg within] at scanned
      split at scanned
      case h_1 => cases scanned
      case h_2 found => exact absurd (unknown.symm.trans found) (by simp)
  | case5 layout offset c rest within cls length known chars ih =>
      rw [scanFrom, if_neg within] at scanned
      split at scanned
      case h_1 unknown => exact absurd (unknown.symm.trans known) (by simp)
      case h_2 found =>
        cases known.symm.trans found
        obtain ⟨later, rfl, traced⟩ := ih scanned
        have whole : chars ++ (c :: rest).drop length = c :: rest := List.take_append_drop _ _
        have size : chars.length = length := List.length_take_of_le (next?_le known)
        have found : next? (chars ++ (c :: rest).drop length) = some (cls, chars.length) := by
          rw [whole, size, known]
        rw [← whole]
        cases leaves : cls.kind? chars with
        | none =>
            have adds : layout.AddsLayout (layout.accept cls chars offset) :=
              accept_addsLayout leaves
            obtain ⟨added, grown, all⟩ := adds
            refine ⟨added ++ later, ?_, .skip found leaves (traced.layouts all)⟩
            rw [← List.append_assoc, ← grown]
        | some kind =>
            refine ⟨ofLexeme kind chars offset :: later, ?_, .token found leaves traced⟩
            rw [accept_eq leaves]
            simp only [push, List.reverse_cons, List.append_assoc, List.cons_append,
              List.nil_append]

/-- One lexeme of a text, unless a line has to be measured. -/
theorem scanFrom_accept {file : String} {text : List Char}
    (within : ¬(layout.lineStart = true ∧ layout.nesting = 0)) (nonempty : chars ≠ [])
    (found : next? (chars ++ text) = some (cls, chars.length)) :
    layout.scanFrom file offset (chars ++ text) =
      (layout.accept cls chars offset).scanFrom file (offset + byteLength chars) text := by
  cases chars with
  | nil => exact absurd rfl nonempty
  | cons c chars =>
      rw [List.cons_append] at found
      rw [List.cons_append, scanFrom, if_neg within]
      split
      case h_1 unknown => exact absurd (unknown.symm.trans found) (by simp)
      case h_2 other length known =>
        cases known.symm.trans found
        rw [← List.cons_append, List.take_left, List.drop_left]

/-- Inside a bracket line breaks do not count. -/
theorem accept_nested (absent : cls.kind? chars = none) (nested : layout.nesting ≠ 0) :
    layout.accept cls chars offset = layout := by
  cases cls with
  | skipped => rfl
  | lineBreak =>
      unfold accept breakLine
      dsimp only
      rw [if_neg nested]
  | string | number | word | mark => cases absent

/-- Inside of a parenthesis all is one deeper. -/
theorem nestingAfter_succ {depth after : Nat} {kind : TokenKind}
    (turned : turn? depth kind = some after) : nestingAfter (depth + 1) kind = after + 1 := by
  unfold turn? at turned
  unfold nestingAfter
  split at turned
  case isTrue opens =>
    cases turned
    rw [if_pos opens]
  case isFalse unopened =>
    rw [if_neg unopened]
    split at turned
    case isTrue closes =>
      split at turned
      case isTrue => cases turned
      case isFalse positive =>
        cases turned
        rw [if_pos closes]
        omega
    case isFalse unclosed =>
      cases turned
      rw [if_neg unclosed]

/-- A lexeme of a stretch is found again before a closing parenthesis. -/
theorem next?_closed {after : List Char}
    (found : next? (chars ++ (rest ++ after)) = some (cls, chars.length))
    (goesOn : cls.kind? chars = none → rest ≠ []) :
    chars ≠ [] ∧ next? (chars ++ (rest ++ [')'])) = some (cls, chars.length) := by
  have nonempty : chars ≠ [] := List.ne_nil_of_length_pos (pos_of_next? found)
  refine ⟨nonempty, ?_⟩
  rw [← List.append_assoc] at found ⊢
  refine next?_local (List.append_ne_nil_of_left_ne_nil nonempty rest) found ?_ fun skipped => ?_
  · rw [List.length_append]
    exact Nat.le_add_right _ _
  · have more : 0 < rest.length := List.length_pos_iff.mpr (goesOn (skipped ▸ rfl))
    rw [List.length_append]
    omega

/-- A stretch that stands before a closing parenthesis, inside a bracket that it does not
close, is read as before. -/
theorem scanFrom_lexed (file : String) {after text : List Char} {start depth last : Nat}
    {stretch : List Token} (lexed : Lexed after start text stretch)
    (deep : depth? depth stretch = some last) (layout : Layout)
    (nested : layout.nesting = depth + 1) (offset : Nat) :
    ∃ added : List Token, layout.scanFrom file offset (text ++ [')']) =
        { layout with tokens := added.reverse ++ layout.tokens, nesting := last + 1 }.scanFrom file
          (offset + byteLength text) [')'] ∧
      added.map Token.spelling = stretch.map Token.spelling := by
  induction lexed generalizing layout depth offset with
  | nil =>
      cases deep
      refine ⟨[], ?_, rfl⟩
      rw [← nested]
      rfl
  | @skip start chars rest cls tokens found absent goesOn others ih =>
      have deeper : layout.nesting ≠ 0 := nested ▸ Nat.succ_ne_zero depth
      obtain ⟨nonempty, found⟩ := next?_closed found fun _ => goesOn
      obtain ⟨added, scanned, same⟩ := ih deep layout nested (offset + byteLength chars)
      refine ⟨added, ?_, same⟩
      rw [List.append_assoc, scanFrom_accept (fun both => deeper both.2) nonempty found,
        accept_nested absent deeper, scanned, byteLength_append, Nat.add_assoc]
  | @token start chars rest cls kind tokens found known others ih =>
      have deeper : layout.nesting ≠ 0 := nested ▸ Nat.succ_ne_zero depth
      obtain ⟨next, turned, deep⟩ := Option.bind_eq_some_iff.mp deep
      have leaves : cls.kind? chars ≠ none := by
        rw [known]
        exact Option.some_ne_none kind
      obtain ⟨nonempty, found⟩ := next?_closed found fun absent => absurd absent leaves
      have pushed : (layout.push (ofLexeme kind chars offset)).nesting = next + 1 := by
        rw [← nestingAfter_succ turned, ← nested]
        rfl
      obtain ⟨added, scanned, same⟩ :=
        ih deep (layout.push (ofLexeme kind chars offset)) pushed (offset + byteLength chars)
      refine ⟨ofLexeme kind chars offset :: added, ?_, ?_⟩
      · rw [List.append_assoc, scanFrom_accept (fun both => deeper both.2) nonempty found,
          accept_eq known, scanned, byteLength_append, Nat.add_assoc, List.reverse_cons,
          List.append_assoc]
        rfl
      · rw [List.map_cons, List.map_cons, same]
        rfl

/-- A parenthesis is a lexeme of its own. -/
theorem next?_openParen (rest : List Char) :
    next? ('(' :: rest) = some (.mark .openParen, 1) := by
  have number : numberLength ('(' :: rest) = 0 := by
    rw [numberLength, radixLength_of_ne (by decide)]
    rfl
  have word : wordLength ('(' :: rest) = 0 := rfl
  have mark : mark? ('(' :: rest) = some (.mark .openParen, 1) := by
    simp only [mark?, marks, List.find?, String.reduceToList, List.isPrefixOf, Char.reduceBEq,
      Bool.false_and, Bool.true_and, Option.map_some]
    rfl
  simp only [next?, Option.orElse_eq_orElse, Option.orElse_eq_or, number, word, mark]
  rfl

/-- At the start of a text an opening parenthesis opens no block. -/
theorem scanFrom_openParen (file : String) (rest : List Char) :
    initial.scanFrom file 0 ('(' :: rest) =
      scanFrom ⟨[ofLexeme .openParen ['('] 0], 1, [0], false⟩ file 1 rest := by
  have measured : initial.scanFrom file 0 ('(' :: rest) =
      scanFrom ⟨[], 0, [0], false⟩ file 0 ('(' :: rest) := by
    rw [scanFrom]
    rfl
  have found : next? (['('] ++ rest) = some (.mark .openParen, ['('].length) :=
    next?_openParen rest
  rw [measured]
  exact scanFrom_accept (fun both => Bool.false_ne_true both.1) (List.cons_ne_nil _ _) found

/-- A closing parenthesis ends a text that it closes. -/
theorem scanFrom_closeParen (file : String) (layout : Layout) (offset : Nat)
    (nested : layout.nesting = 1) (block : layout.indents = [0]) :
    layout.scanFrom file offset [')'] =
      .ok (layout.tokens.reverse ++ [ofLexeme .closeParen [')'] offset,
        Token.layout .newline (offset + 1), Token.layout .eof (offset + 1)]) := by
  have found : next? ([')'] ++ []) = some (.mark .closeParen, [')'].length) := by decide
  have within : ¬(layout.lineStart = true ∧ layout.nesting = 0) := by
    rw [nested]
    exact fun both => absurd both.2 Nat.one_ne_zero
  have accepted : layout.scanFrom file offset ([')'] ++ []) = _ :=
    scanFrom_accept within (List.cons_ne_nil _ _) found
  rw [List.append_nil] at accepted
  rw [accepted, scanFrom, accept_eq rfl, finish]
  simp only [push, lastKind?, List.head?_cons, Option.map_some, ofLexeme, endsText, if_true, block,
    List.length_singleton, Nat.sub_self, List.replicate_zero, List.nil_append, List.reverse_cons,
    List.append_assoc, List.cons_append]
  rfl

end Layout

/-- **A stretch in parentheses gives the same tokens.** -/
theorem Token.scan_parenthesised (file : String) {after text : List Char} {start : Nat}
    {stretch : List Token} (lexed : Lexed after start text stretch) (balanced : Balanced stretch) :
    ∃ first inner last newline stop,
      scan (String.ofList ('(' :: (text ++ [')']))) file =
        .ok (first :: (inner ++ [last, newline, stop])) ∧
      first.spelling = (.openParen, "(") ∧ inner.map spelling = stretch.map spelling ∧
      last.spelling = (.closeParen, ")") ∧ newline.kind = .newline ∧ stop.kind = .eof := by
  obtain ⟨inner, scanned, same⟩ := Layout.scanFrom_lexed file lexed balanced
    ⟨[ofLexeme .openParen ['('] 0], 1, [0], false⟩ rfl 1
  rw [Layout.scanFrom_closeParen _ _ _ rfl rfl] at scanned
  have whole : scan (String.ofList ('(' :: (text ++ [')']))) file =
      .ok (ofLexeme .openParen ['('] 0 :: (inner ++
        [ofLexeme .closeParen [')'] (1 + Text.byteLength text),
          layout .newline (1 + Text.byteLength text + 1),
          layout .eof (1 + Text.byteLength text + 1)])) := by
    rw [scan, String.toList_ofList, Layout.scanFrom_openParen, scanned]
    simp
  exact ⟨_, inner, _, _, _, whole, rfl, same, rfl, rfl, rfl⟩

end DocSketch
