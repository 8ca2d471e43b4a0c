import DocSketch.Proofs.Token.Steps
import DocSketch.Proofs.Token.Words

/-!
# Tokens and the text they come from

The tokens of a text lie in it one after the other, each over the characters that it is
written with.  What lies between two of them leaves no token: blanks, line breaks that do
not count, and comments.

* `Lexeme.Gap`: a stretch of text that leaves no token.
* `Token.Tiles`: tokens that lie in a text, from a given offset on.
* `Token.Tiling`: what this says about each token and about neighbours.
* `Token.scan_tiling`: the tokens of a text.
-/

namespace DocSketch

namespace Lexeme

/-- A line break as it is written. -/
def LineBreak (chars : List Char) : Prop := chars = ['\n'] ∨ chars = ['\r', '\n']

/-- Nothing of the line is left. -/
def EndsLine (chars : List Char) : Prop := ∀ c ∈ chars.head?, isBreak c = true

/-- A stretch of text that leaves no token where `after` follows it: blanks, line breaks,
line breaks behind a backslash, and comments up to the end of their line. -/
inductive Gap (after : List Char) : List Char → Prop
  | nil : Gap after []
  | blank {c : Char} {chars : List Char} (blank : isBlank c = true) (others : Gap after chars) :
      Gap after (c :: chars)
  | continuation {ending chars : List Char} (ends : LineBreak ending) (others : Gap after chars) :
      Gap after ('\\' :: (ending ++ chars))
  | comment {text chars : List Char} (inside : ∀ c ∈ text, isBreak c = false)
      (ends : EndsLine (chars ++ after)) (others : Gap after chars) :
      Gap after ('#' :: (text ++ chars))
  | lineBreak {ending chars : List Char} (ends : LineBreak ending) (others : Gap after chars) :
      Gap after (ending ++ chars)

namespace Gap

variable {after chars : List Char}

/-- Blanks are a gap. -/
theorem blanks (all : ∀ c ∈ chars, isBlank c = true) : Gap after chars := by
  induction chars with
  | nil => exact .nil
  | cons c chars ih =>
      obtain ⟨first, others⟩ := List.forall_mem_cons.mp all
      exact .blank first (ih others)

theorem append {front : List Char} (first : Gap (chars ++ after) front)
    (second : Gap after chars) : Gap after (front ++ chars) := by
  induction first with
  | nil => exact second
  | blank blank _ ih => exact .blank blank ih
  | continuation ends _ ih =>
      rw [List.cons_append, List.append_assoc]
      exact .continuation ends ih
  | comment inside ends _ ih =>
      rw [List.cons_append, List.append_assoc]
      rw [← List.append_assoc] at ends
      exact .comment inside ends ih
  | lineBreak ends _ ih =>
      rw [List.append_assoc]
      exact .lineBreak ends ih

end Gap

/-- Kinds of tokens that stand for the layout of lines. -/
def isLayoutKind : TokenKind → Bool
  | .newline | .indent | .dedent | .eof => true
  | _ => false

/-- What a lexeme of a class leaves of the characters it is written with, where `after`
follows it. -/
def Leaves (after chars : List Char) : LexemeClass → Prop
  | .skipped => Gap after chars
  | .lineBreak => LineBreak chars
  | .mark kind => isLayoutKind kind = false
  | .string | .number | .word => True

/-- No mark is layout. -/
theorem isLayoutKind_of_mem_marks : ∀ mark ∈ marks, isLayoutKind mark.2 = false := by
  decide

/-- What holds of identifiers and of all reserved words holds of every word. -/
theorem wordKind_of {P : TokenKind → Prop} (identifier : P .identifier)
    (reserved : ∀ entry ∈ reservedWords, P entry.2) (word : String) : P (wordKind word) := by
  unfold wordKind
  cases found : reservedWords.lookup word with
  | none => exact identifier
  | some kind =>
      obtain ⟨front, back, split, -⟩ := List.lookup_eq_some_iff.mp found
      exact reserved (word, kind) (split ▸ List.mem_append_right front List.mem_cons_self)

/-- No word is layout. -/
theorem isLayoutKind_wordKind (word : String) : isLayoutKind (wordKind word) = false :=
  wordKind_of (P := fun kind => isLayoutKind kind = false) rfl (by decide) word

/-- Characters that a run of a class takes, and what it leaves. -/
theorem split_takeWhile (p : Char → Bool) (chars : List Char) :
    chars.take (chars.takeWhile p).length = chars.takeWhile p ∧
      chars.drop (chars.takeWhile p).length = chars.dropWhile p := by
  induction chars with
  | nil => exact ⟨rfl, rfl⟩
  | cons c chars ih =>
      by_cases inside : p c = true
      · simp only [List.takeWhile_cons_of_pos inside, List.dropWhile_cons_of_pos inside,
          List.length_cons, List.take_succ_cons, List.drop_succ_cons, ih, and_self]
      · simp only [List.takeWhile_cons_of_neg inside, List.dropWhile_cons_of_neg inside,
          List.length_nil, List.take_zero, List.drop_zero, and_self]

/-- The blanks before a lexeme are a gap. -/
theorem gap_blanks (cs : List Char) :
    Gap (cs.drop (blankLength cs)) (cs.take (blankLength cs)) := by
  rw [blankLength, (split_takeWhile isBlank cs).1]
  exact .blanks fun c member => List.mem_takeWhile_imp member

/-- A continued line is a gap. -/
theorem gap_continuation (cs : List Char) :
    Gap (cs.drop (continuationLength cs)) (cs.take (continuationLength cs)) := by
  unfold continuationLength
  split
  · exact .continuation (.inl rfl) .nil
  · exact .continuation (.inr rfl) .nil
  · exact .nil

/-- A comment is a gap. -/
theorem gap_comment (cs : List Char) :
    Gap (cs.drop (commentLength cs)) (cs.take (commentLength cs)) := by
  unfold commentLength
  split
  case h_1 _ cs =>
    obtain ⟨taken, left⟩ := split_takeWhile (fun c => !isBreak c) cs
    rw [Nat.add_comm, List.take_succ_cons, List.drop_succ_cons, taken, left,
      ← List.append_nil (cs.takeWhile _)]
    refine .comment (fun c member => ?_) (fun c first => ?_) .nil
    · simpa using List.mem_takeWhile_imp member
    · have stops := List.head?_dropWhile_not (fun c => !isBreak c) cs
      rw [List.nil_append, Option.mem_def] at first
      simpa only [first, Bool.not_eq_false'] using stops
  case h_2 => exact .nil

/-- A line break of positive length is one. -/
theorem lineBreak_take {cs : List Char} (found : lineBreakLength cs ≠ 0) :
    LineBreak (cs.take (lineBreakLength cs)) := by
  revert found
  unfold lineBreakLength
  split
  · exact fun _ => .inl rfl
  · exact fun _ => .inr rfl
  · exact fun found => absurd rfl found

/-- What a lexeme leaves: skipped ones a gap, line breaks themselves, and marks no layout. -/
theorem next?_leaves {cs : List Char} {cls : LexemeClass} {n : Nat}
    (found : next? cs = some (cls, n)) : Leaves (cs.drop n) (cs.take n) cls := by
  have counted := pos_of_next? found
  simp only [next?, Option.orElse_eq_orElse, Option.orElse_eq_or, Option.or_eq_some_iff] at found
  rcases found with blank | ⟨-, hidden | ⟨-, comment | ⟨-, ending | ⟨-, string | ⟨-, number | ⟨-,
    word | ⟨-, mark⟩⟩⟩⟩⟩⟩⟩
  · obtain ⟨rfl, rfl⟩ := eq_of_sized blank
    exact gap_blanks cs
  · obtain ⟨rfl, rfl⟩ := eq_of_sized hidden
    exact gap_continuation cs
  · obtain ⟨rfl, rfl⟩ := eq_of_sized comment
    exact gap_comment cs
  · obtain ⟨rfl, rfl⟩ := eq_of_sized ending
    exact lineBreak_take (Nat.pos_iff_ne_zero.mp counted)
  · obtain ⟨rfl, -⟩ := eq_of_sized string
    exact trivial
  · obtain ⟨rfl, -⟩ := eq_of_sized number
    exact trivial
  · obtain ⟨rfl, -⟩ := eq_of_sized word
    exact trivial
  · unfold mark? at mark
    obtain ⟨entry, listed, same⟩ := Option.map_eq_some_iff.mp mark
    cases same
    exact isLayoutKind_of_mem_marks entry (List.mem_of_find?_eq_some listed)

end Lexeme

namespace Token

open Lexeme Text

/-- The tokens at the end of a text after its last line: all blocks close, and the text
ends. -/
inductive Ending (offset : Nat) : List Token → Prop
  | eof : Ending offset [layout .eof offset]
  | dedent {tokens : List Token} (others : Ending offset tokens) :
      Ending offset (layout .dedent offset :: tokens)

/-- The characters that a token lies over where the text `rest` and the tokens `later`
follow: those it is written with, a line break, or none where a block opens or closes, or
where the text ends in the middle of a line. -/
inductive Covers (rest : List Char) (later : List Token) : Token → List Char → Prop
  | lexeme {kind : TokenKind} (plain : isLayoutKind kind = false) (chars : List Char)
      (span : Span) : Covers rest later ⟨kind, String.ofList chars, span⟩ chars
  | lineBreak {chars : List Char} (ends : LineBreak chars) (span : Span) :
      Covers rest later ⟨.newline, "\n", span⟩ chars
  | opening (offset : Nat) : Covers rest later (layout .indent offset) []
  | closing (offset : Nat) : Covers rest later (layout .dedent offset) []
  | lastLine (offset : Nat) (done : rest = []) (ends : Ending offset later) :
      Covers rest later (layout .newline offset) []
  | eof (offset : Nat) (done : rest = []) (ends : later = []) :
      Covers rest later (layout .eof offset) []

/-- Tokens lie in the text `chars`, which starts at the byte offset `offset`, one after
the other and with nothing but gaps between them; the last one ends the text. -/
inductive Tiles : Nat → List Char → List Token → Prop
  | eof {offset : Nat} {gap : List Char} (blank : Gap [] gap) :
      Tiles offset gap [layout .eof (offset + byteLength gap)]
  | token {offset : Nat} {gap chars rest : List Char} {token : Token} {tokens : List Token}
      (blank : Gap (chars ++ rest) gap) (covers : Covers rest tokens token chars)
      (starts : token.span.start = offset + byteLength gap)
      (stops : token.span.stop = token.span.start + byteLength chars)
      (others : Tiles token.span.stop rest tokens) :
      Tiles offset (gap ++ (chars ++ rest)) (token :: tokens)

namespace Tiles

variable {offset : Nat} {chars rest : List Char} {tokens : List Token}

/-- A gap in front of a text belongs to the gap before its first token. -/
theorem skip (blank : Gap rest chars) (tiles : Tiles (offset + byteLength chars) rest tokens) :
    Tiles offset (chars ++ rest) tokens := by
  cases tiles with
  | eof later =>
      rw [Nat.add_assoc, ← byteLength_append]
      refine .eof (.append ?_ later)
      rwa [List.append_nil]
  | token later covers starts stops others =>
      rw [← List.append_assoc]
      rw [Nat.add_assoc, ← byteLength_append] at starts
      exact .token (.append blank later) covers starts stops others

/-- A token without text in front of a text. -/
theorem opens (tiles : Tiles offset chars tokens) :
    Tiles offset chars (layout .indent offset :: tokens) :=
  .token .nil (.opening offset) rfl rfl tiles

/-- Dedents tile no characters. -/
theorem closes (tiles : Tiles offset chars tokens) (count : Nat) :
    Tiles offset chars (List.replicate count (layout .dedent offset) ++ tokens) := by
  induction count with
  | zero => exact tiles
  | succ count ih => exact .token .nil (.closing offset) rfl rfl ih

/-- The tokens at the end tile no characters. -/
theorem of_ending (ends : Ending offset tokens) : Tiles offset [] tokens := by
  induction ends with
  | eof => exact .eof .nil
  | dedent _ ih => exact ih.closes 1

end Tiles

end Token

namespace Layout

open Lexeme Text Token

variable {layout next : Layout} {offset : Nat} {chars rest : List Char}

/-- Between two layouts the text `chars` is read, which `rest` follows: the tokens added lie
in that text, whatever tokens lie in the rest. -/
def Lays (layout next : Layout) (offset : Nat) (chars rest : List Char) : Prop :=
  ∃ added, next.tokens.reverse = layout.tokens.reverse ++ added ∧
    ∀ more, Tiles (offset + byteLength chars) rest more →
      Tiles offset (chars ++ rest) (added ++ more)

/-- A gap is laid without a token. -/
theorem Lays.gap (blank : Gap rest chars) (same : next.tokens = layout.tokens) :
    layout.Lays next offset chars rest :=
  ⟨[], by rw [same, List.append_nil], fun _ tiles => tiles.skip blank⟩

/-- A token is laid over its characters. -/
theorem Lays.token {token : Token} (covers : ∀ later, Covers rest later token chars)
    (spans : token.span = ⟨offset, offset + byteLength chars⟩)
    (pushed : next.tokens = token :: layout.tokens) : layout.Lays next offset chars rest := by
  refine ⟨[token], by rw [pushed, List.reverse_cons], fun more tiles => ?_⟩
  refine .token .nil (covers more) ?_ ?_ ?_
  · rw [spans, byteLength_nil, Nat.add_zero]
  · rw [spans]
  · rwa [spans]

/-- The start of a line is laid over its blanks. -/
theorem beginLine_lays {file : String} {blanks : List Char}
    (all : ∀ c ∈ blanks, isBlank c = true)
    (begun : layout.beginLine file blanks rest offset = .ok next) :
    layout.Lays next offset blanks rest := by
  have blank : Gap rest blanks := .blanks all
  unfold beginLine at begun
  split at begun
  · cases begun
    exact .gap blank rfl
  · unfold indentTo at begun
    split at begun
    · cases begun
      exact ⟨[Token.layout .indent _], List.reverse_cons, fun more tiles => tiles.opens.skip blank⟩
    · dsimp only at begun
      split at begun
      · cases begun
        have closed :
            (layout.closeTo (indentWidth blanks) (offset + byteLength blanks)).tokens.reverse =
            layout.tokens.reverse ++ List.replicate
              (layout.indents.takeWhile (indentWidth blanks < ·)).length
              (Token.layout .dedent (offset + byteLength blanks)) := by
          rw [closeTo, List.reverse_append, List.reverse_replicate]
        exact ⟨_, closed, fun more tiles => (tiles.closes _).skip blank⟩
      · cases begun

/-- The end of a line is laid over its break. -/
theorem breakLine_lays (ends : LineBreak chars) :
    layout.Lays (layout.breakLine chars offset) offset chars rest := by
  have blank : Gap rest chars := List.append_nil chars ▸ .lineBreak ends .nil
  unfold breakLine
  split
  · dsimp only
    split
    · exact .token (fun _ => .lineBreak ends _) rfl rfl
    · exact .gap blank rfl
  · exact .gap blank rfl

/-- A lexeme is laid over its characters. -/
theorem accept_lays {cls : LexemeClass} (leaves : Leaves rest chars cls) :
    layout.Lays (layout.accept cls chars offset) offset chars rest := by
  cases cls with
  | skipped => exact .gap leaves rfl
  | lineBreak => exact breakLine_lays leaves
  | string => exact .token (fun _ => .lexeme rfl chars _) rfl rfl
  | number => exact .token (fun _ => .lexeme rfl chars _) rfl rfl
  | word => exact .token (fun _ => .lexeme (isLayoutKind_wordKind _) chars _) rfl rfl
  | mark kind => exact .token (fun _ => .lexeme leaves chars _) rfl rfl

/-- A text ends with dedents and the end of the file. -/
theorem ending_dedents (offset count : Nat) :
    Ending offset
      (List.replicate count (Token.layout .dedent offset) ++ [Token.layout .eof offset]) := by
  induction count with
  | zero => exact .eof
  | succ count ih => exact .dedent ih

/-- The end of the text is tiled. -/
theorem finish_tiles (layout : Layout) (offset : Nat) :
    ∃ added, layout.finish offset = layout.tokens.reverse ++ added ∧ Tiles offset [] added := by
  have ends := ending_dedents offset (layout.indents.length - 1)
  unfold finish
  dsimp only
  split
  · refine ⟨Token.layout .newline offset :: (List.replicate _ _ ++ [_]), ?_,
      .token .nil (.lastLine offset rfl ends) rfl rfl (.of_ending ends)⟩
    simp only [List.reverse_cons, List.reverse_append, List.reverse_replicate, List.append_assoc,
      List.cons_append, List.nil_append]
  · refine ⟨List.replicate _ _ ++ [_], ?_, .of_ending ends⟩
    simp only [List.reverse_cons, List.reverse_append, List.reverse_replicate, List.append_assoc]

/-- Tokens that are read from a text lie in it. -/
theorem scanFrom_tiles {file : String} {tokens : List Token} (layout : Layout) (offset : Nat)
    (cs : List Char) (scanned : layout.scanFrom file offset cs = .ok tokens) :
    ∃ added, tokens = layout.tokens.reverse ++ added ∧ Tiles offset cs added := by
  induction layout, offset, cs using Layout.scanFrom.induct file with
  | case1 layout offset =>
      rw [scanFrom] at scanned
      cases scanned
      exact layout.finish_tiles offset
  | case2 layout offset c rest atStart blanks after fault begun =>
      rw [scanFrom] at scanned
      simp only [atStart, and_self, ↓reduceIte] at scanned
      rw [begun] at scanned
      cases scanned
  | case3 layout offset c rest atStart blanks after next begun ih =>
      rw [scanFrom] at scanned
      simp only [atStart, and_self, ↓reduceIte] at scanned
      rw [begun] at scanned
      obtain ⟨later, rfl, tiles⟩ := ih scanned
      obtain ⟨added, grown, lays⟩ :=
        beginLine_lays (fun c member => List.mem_takeWhile_imp member) begun
      refine ⟨added ++ later, ?_, ?_⟩
      · rw [← List.append_assoc, ← grown]
      · rw [← List.takeWhile_append_dropWhile (p := isBlank) (l := c :: rest)]
        exact lays later tiles
  | case4 layout offset c rest within unknown =>
      rw [scanFrom, if_neg within] at scanned
      split at scanned
      case h_1 => cases scanned
      case h_2 found => exact absurd (unknown.symm.trans found) (by simp)
  | case5 layout offset c rest within cls length known chars ih =>
      rw [scanFrom, if_neg within] at scanned
      split at scanned
      case h_1 unknown => exact absurd (unknown.symm.trans known) (by simp)
      case h_2 found =>
        cases known.symm.trans found
        obtain ⟨later, rfl, tiles⟩ := ih scanned
        have accepted : layout.Lays (layout.accept cls chars offset) offset chars _ :=
          accept_lays (next?_leaves known)
        obtain ⟨added, grown, lays⟩ := accepted
        refine ⟨added ++ later, ?_, ?_⟩
        · rw [← List.append_assoc, ← grown]
        · rw [← List.take_append_drop length (c :: rest)]
          exact lays later tiles

end Layout

namespace Token

open Lexeme Text

variable {offset : Nat} {chars : List Char} {token : Token} {tokens : List Token}

/-- Where a token lies: behind some of the text, over its own characters, with the later
tokens in the rest. -/
theorem Tiles.locate {front back : List Token} (tiles : Tiles offset chars tokens)
    (split : tokens = front ++ token :: back) :
    ∃ before own after, chars = before ++ (own ++ after) ∧
      token.span.start = offset + byteLength before ∧
      token.span.stop = token.span.start + byteLength own ∧ Covers after back token own ∧
      (back = [] ∨ Tiles token.span.stop after back) := by
  induction tiles generalizing front with
  | @eof offset gap blank =>
      obtain ⟨rfl, rfl, rfl⟩ : front = [] ∧ token = layout .eof (offset + byteLength gap) ∧
          back = [] := by
        cases front with
        | nil => simpa [eq_comm] using split
        | cons => simp at split
      exact ⟨gap, [], [], (List.append_nil gap).symm, rfl, rfl, .eof _ rfl rfl, .inl rfl⟩
  | @token offset gap own rest first tokens blank covers starts stops others ih =>
      cases front with
      | nil =>
          cases split
          exact ⟨gap, own, rest, rfl, starts, stops, covers, .inr others⟩
      | cons earlier front =>
          obtain ⟨rfl, tail⟩ := List.cons.inj split
          obtain ⟨before, inner, after, rfl, begins, ends, covers, later⟩ := ih tail
          refine ⟨gap ++ (own ++ before), inner, after, ?_, ?_, ends, covers, later⟩
          · simp only [List.append_assoc]
          · rw [begins, stops, starts, byteLength_append, byteLength_append]
            omega

/-- What lies before the first token is a gap. -/
theorem Tiles.lead (tiles : Tiles offset chars (token :: tokens)) :
    ∃ gap after, chars = gap ++ after ∧ Gap after gap ∧
      token.span.start = offset + byteLength gap := by
  cases tiles with
  | eof blank => exact ⟨chars, [], (List.append_nil chars).symm, blank, rfl⟩
  | token blank covers starts stops others => exact ⟨_, _, rfl, blank, starts⟩

/-- The last token is the end of the file, behind all characters. -/
theorem Tiles.getLast? (tiles : Tiles offset chars tokens) :
    tokens.getLast? = some (layout .eof (offset + byteLength chars)) := by
  induction tiles with
  | eof blank => rfl
  | token blank covers starts stops others ih =>
      rw [List.getLast?_cons, ih, Option.getD_some, stops, starts, byteLength_append,
        byteLength_append, Nat.add_assoc, Nat.add_assoc]

/-- Nothing but a gap lies between two byte offsets of a text. -/
def Apart (source : List Char) (start stop : Nat) : Prop :=
  ∃ front gap after, source = front ++ (gap ++ after) ∧ Gap after gap ∧
    start = byteLength front ∧ stop = byteLength front + byteLength gap

/-- Tokens lie in a text one after the other. -/
structure Tiling (source : List Char) (tokens : List Token) : Prop where
  /-- No span is turned round. -/
  forward : ∀ token ∈ tokens, token.span.start ≤ token.span.stop
  /-- A token starts where an earlier one has stopped. -/
  ordered : tokens.Pairwise fun first second => first.span.stop ≤ second.span.start
  /-- Tokens other than line ends lie over what they are written with. -/
  spelled : ∀ token ∈ tokens, token.kind ≠ .newline →
    slice? token.span source = some token.value.toList
  /-- Blocks open and close, and the text ends, between two characters. -/
  widthless : ∀ token ∈ tokens, token.kind = .indent ∨ token.kind = .dedent ∨ token.kind = .eof →
    token.span.start = token.span.stop
  /-- Line ends lie over line breaks, but for one that the end of the text stands for: only
  the end of blocks and of the text follows it. -/
  broken : ∀ front token back, tokens = front ++ token :: back → token.kind = .newline →
    (∃ chars, LineBreak chars ∧ slice? token.span source = some chars) ∨
      token = layout .newline (byteLength source) ∧ Ending (byteLength source) back
  /-- Between neighbours lies a gap. -/
  parted : ∀ front first second back, tokens = front ++ first :: second :: back →
    Apart source first.span.stop second.span.start
  /-- Before the first token lies a gap. -/
  led : ∀ token ∈ tokens.head?, Apart source 0 token.span.start
  /-- The last token stands at the end of the text. -/
  ended : tokens.getLast? = some (layout .eof (byteLength source))

/-- A token whose characters stand at its span slices them. -/
theorem slice?_located {before own after : List Char}
    (starts : token.span.start = 0 + byteLength before)
    (stops : token.span.stop = token.span.start + byteLength own) :
    slice? token.span (before ++ (own ++ after)) = some own := by
  have spans : token.span = ⟨byteLength before, byteLength before + byteLength own⟩ := by
    rw [Nat.zero_add] at starts
    rw [← starts, ← stops]
  rw [spans, ← List.append_assoc, slice?_append]

/-- A token covers its value unless it is a newline. -/
theorem Covers.value_eq {rest own : List Char} {later : List Token}
    (covers : Covers rest later token own) (other : token.kind ≠ .newline) :
    own = token.value.toList := by
  cases covers with
  | lexeme plain chars span => exact (String.toList_ofList).symm
  | lineBreak ends span => exact absurd rfl other
  | opening offset => rfl
  | closing offset => rfl
  | lastLine offset done ends => exact absurd rfl other
  | eof offset done ends => rfl

/-- Layout covers no characters. -/
theorem Covers.eq_nil {rest own : List Char} {later : List Token}
    (covers : Covers rest later token own)
    (layout : token.kind = .indent ∨ token.kind = .dedent ∨ token.kind = .eof) : own = [] := by
  cases covers with
  | lexeme plain chars span => obtain rfl | rfl | rfl := layout <;> exact absurd plain (by decide)
  | lineBreak ends span => simp at layout
  | opening offset => rfl
  | closing offset => rfl
  | lastLine offset done ends => rfl
  | eof offset done ends => rfl

/-- A newline covers a line break, or nothing at the end of the text. -/
theorem Covers.broken {rest own : List Char} {later : List Token}
    (covers : Covers rest later token own) (ends : token.kind = .newline) :
    LineBreak own ∨ ∃ offset, token = layout .newline offset ∧ own = [] ∧ rest = [] ∧
      Ending offset later := by
  cases covers with
  | lexeme plain chars span =>
      subst ends
      exact absurd plain (by decide)
  | lineBreak ends span => exact .inl ends
  | opening offset => simp [layout] at ends
  | closing offset => simp [layout] at ends
  | lastLine offset done ending => exact .inr ⟨offset, rfl, rfl, done, ending⟩
  | eof offset done ends => simp [layout] at ends

/-- Tiling tokens stand in order. -/
theorem Tiles.ordered (tiles : Tiles offset chars tokens) :
    tokens.Pairwise fun first second => first.span.stop ≤ second.span.start := by
  induction tiles with
  | eof blank => exact List.pairwise_singleton _ _
  | token blank covers starts stops others ih =>
      refine List.pairwise_cons.mpr ⟨fun second member => ?_, ih⟩
      obtain ⟨front, back, split⟩ := List.append_of_mem member
      obtain ⟨before, own, after, -, begins, -⟩ := others.locate split
      rw [begins]
      exact Nat.le_add_right _ _

/-- Tiles from the start on are a tiling of the text. -/
theorem Tiles.tiling (tiles : Tiles 0 chars tokens) : Tiling chars tokens where
  forward token member := by
    obtain ⟨front, back, split⟩ := List.append_of_mem member
    obtain ⟨before, own, after, -, -, stops, -⟩ := tiles.locate split
    rw [stops]
    exact Nat.le_add_right _ _
  ordered := tiles.ordered
  spelled token member other := by
    obtain ⟨front, back, split⟩ := List.append_of_mem member
    obtain ⟨before, own, after, rfl, starts, stops, covers, -⟩ := tiles.locate split
    rw [slice?_located starts stops, covers.value_eq other]
  widthless token member kinds := by
    obtain ⟨front, back, split⟩ := List.append_of_mem member
    obtain ⟨before, own, after, -, -, stops, covers, -⟩ := tiles.locate split
    rw [stops, covers.eq_nil kinds, byteLength_nil, Nat.add_zero]
  broken front token back split ends := by
    obtain ⟨before, own, after, rfl, starts, stops, covers, -⟩ := tiles.locate split
    obtain written | ⟨offset, rfl, rfl, rfl, ending⟩ := covers.broken ends
    · exact .inl ⟨own, written, slice?_located starts stops⟩
    · have begins : offset = 0 + byteLength before := starts
      have finish : offset = byteLength (before ++ ([] ++ [])) := by
        rw [begins, Nat.zero_add, List.append_nil, List.append_nil]
      exact .inr ⟨finish ▸ rfl, finish ▸ ending⟩
  parted front first second back split := by
    obtain ⟨before, own, after, rfl, starts, stops, -, later⟩ := tiles.locate split
    obtain ⟨gap, rest, rfl, blank, begins⟩ := (later.resolve_left (List.cons_ne_nil _ _)).lead
    refine ⟨before ++ own, gap, rest, ?_, blank, ?_, ?_⟩
    · rw [List.append_assoc]
    · rw [stops, starts, Nat.zero_add, byteLength_append]
    · rw [begins, stops, starts, Nat.zero_add, byteLength_append]
  led token member := by
    obtain ⟨others, rfl⟩ : ∃ others, tokens = token :: others :=
      List.head?_eq_some_iff.mp member
    obtain ⟨gap, rest, rfl, blank, begins⟩ := tiles.lead
    exact ⟨[], gap, rest, rfl, blank, rfl, begins⟩
  ended := by
    rw [tiles.getLast?, Nat.zero_add]

/-- **Tokens tile their text.** -/
theorem scan_tiling {source file : String} {tokens : List Token}
    (scanned : scan source file = .ok tokens) : Tiling source.toList tokens := by
  obtain ⟨added, rfl, tiles⟩ := Layout.scanFrom_tiles Layout.initial 0 source.toList scanned
  exact tiles.tiling

/-- A block whose first line ends with a comment and whose last line does not end. -/
theorem scan_tiling_commented_block :
    ∃ tokens, scan "if x: # y\r\n\tz" "m.py" = .ok tokens ∧
      tokens.map Token.span = [⟨0, 2⟩, ⟨3, 4⟩, ⟨4, 5⟩, ⟨9, 11⟩, ⟨12, 12⟩, ⟨12, 13⟩, ⟨13, 13⟩,
        ⟨13, 13⟩, ⟨13, 13⟩] ∧
      Tiling "if x: # y\r\n\tz".toList tokens := by
  have steps : Layout.scanWithin 20 .initial "m.py" 0 "if x: # y\r\n\tz".toList =
      some (.ok [⟨.ifKw, "if", ⟨0, 2⟩⟩, ⟨.identifier, "x", ⟨3, 4⟩⟩, ⟨.colon, ":", ⟨4, 5⟩⟩,
        ⟨.newline, "\n", ⟨9, 11⟩⟩, ⟨.indent, "", ⟨12, 12⟩⟩, ⟨.identifier, "z", ⟨12, 13⟩⟩,
        ⟨.newline, "", ⟨13, 13⟩⟩, ⟨.dedent, "", ⟨13, 13⟩⟩, ⟨.eof, "", ⟨13, 13⟩⟩]) := by
    with_unfolding_all rfl
  have scanned := Layout.scanFrom_of_scanWithin steps
  exact ⟨_, scanned, rfl, scan_tiling scanned⟩

end Token

end DocSketch
