import DocSketch.Proofs.Token.Tiling

/-!
# Blocks among tokens

An `indent` opens a block and a `dedent` closes the innermost one.  The tokens of a text
close all blocks that they open, and only these.

* `Token.level?`: the number of open blocks behind a list of tokens.
* `Token.Nested`: tokens that close exactly the blocks that they open.
* `Token.Flat`: tokens that neither open nor close a block.
* `Token.scan_nested`: the tokens of a text, without the one at its end, are nested.
-/

namespace DocSketch

/-- Kinds of tokens at the borders of blocks and of the file. -/
def TokenKind.isBorder : TokenKind → Bool
  | .indent | .dedent | .eof => true
  | _ => false

/-- A token with a text of its own has no part in the nesting of blocks. -/
theorem TokenKind.isBorder_of_visible {kind : TokenKind}
    (visible : Lexeme.isLayoutKind kind = false) : kind.isBorder = false := by
  cases kind <;> first | rfl | cases visible

namespace Token

/-- Number of open blocks behind a token, where `level` are open before it; `none` if it closes
a block that is not open. -/
def layer? (level : Nat) (token : Token) : Option Nat :=
  match token.kind with
  | .indent => some (level + 1)
  | .dedent => if level = 0 then none else some (level - 1)
  | _ => some level

/-- Number of open blocks behind the tokens, where `level` are open before them. -/
def level? (level : Nat) (tokens : List Token) : Option Nat := tokens.foldlM layer? level

/-- The tokens close exactly the blocks that they open. -/
def Nested (tokens : List Token) : Prop := level? 0 tokens = some 0

instance (tokens : List Token) : Decidable (Nested tokens) :=
  inferInstanceAs (Decidable (level? 0 tokens = some 0))

/-- The tokens neither open nor close a block, and do not end the file. -/
def Flat (tokens : List Token) : Prop := ∀ token ∈ tokens, token.kind.isBorder = false

variable {token opening closing : Token} {tokens others : List Token} {level after : Nat}

/-- An indent opens a layer. -/
theorem layer?_indent (opens : token.kind = .indent) (level : Nat) :
    layer? level token = some (level + 1) := by
  rw [layer?, opens]

/-- A dedent closes a layer. -/
theorem layer?_dedent (closes : token.kind = .dedent) (level : Nat) :
    layer? (level + 1) token = some level := by
  rw [layer?, closes]
  rfl

/-- Any other token stays in its layer. -/
theorem layer?_inside (inside : token.kind.isBorder = false) (level : Nat) :
    layer? level token = some level := by
  unfold layer?
  cases kind : token.kind <;> rw [kind] at inside <;> cases inside

/-- More blocks that are open before a token stay open. -/
theorem layer?_add (known : layer? level token = some after) (more : Nat) :
    layer? (level + more) token = some (after + more) := by
  unfold layer? at known ⊢
  split at known
  case h_1 =>
    cases known
    rw [Nat.add_right_comm]
  case h_2 =>
    split at known
    case isTrue => cases known
    case isFalse positive =>
      cases known
      rw [if_neg (by omega)]
      congr 1
      omega
  case h_3 =>
    cases known
    rfl

theorem level?_cons (level : Nat) (token : Token) (tokens : List Token) :
    level? level (token :: tokens) = (layer? level token).bind fun next => level? next tokens :=
  List.foldlM_cons

theorem level?_append (level : Nat) (tokens others : List Token) :
    level? level (tokens ++ others) =
      (level? level tokens).bind fun next => level? next others :=
  List.foldlM_append

/-- The layers outside do not count. -/
theorem level?_add (known : level? level tokens = some after) (more : Nat) :
    level? (level + more) tokens = some (after + more) := by
  induction tokens generalizing level with
  | nil =>
      cases known
      rfl
  | cons token tokens ih =>
      rw [level?_cons] at known ⊢
      obtain ⟨next, step, known⟩ := Option.bind_eq_some_iff.mp known
      rw [layer?_add step, Option.bind_some]
      exact ih known

/-- As many dedents close as many layers. -/
theorem level?_dedents (level count offset : Nat) :
    level? (level + count) (List.replicate count (layout .dedent offset)) = some level := by
  induction count with
  | zero => rfl
  | succ count ih =>
      rw [List.replicate_succ, level?_cons, ← Nat.add_assoc, layer?_dedent rfl, Option.bind_some,
        ih]

namespace Nested

theorem nil : Nested [] := rfl

/-- Nested tokens end in the layer in which they start. -/
theorem level?_eq (nested : Nested tokens) (level : Nat) : level? level tokens = some level := by
  have shifted := level?_add nested level
  rwa [Nat.zero_add] at shifted

theorem append (first : Nested tokens) (second : Nested others) : Nested (tokens ++ others) := by
  rw [Nested, level?_append, first.level?_eq, Option.bind_some]
  exact second

/-- A block with the tokens that open and close it. -/
theorem block (opens : opening.kind = .indent) (closes : closing.kind = .dedent)
    (inner : Nested tokens) : Nested (opening :: (tokens ++ [closing])) := by
  rw [Nested, level?_cons, layer?_indent opens, Option.bind_some, level?_append, inner.level?_eq,
    Option.bind_some, level?_cons, layer?_dedent closes]
  rfl

end Nested

namespace Flat

theorem nil : Flat [] := fun _ member => by cases member

theorem append (first : Flat tokens) (second : Flat others) : Flat (tokens ++ others) :=
  List.forall_mem_append.mpr ⟨first, second⟩

theorem cons (inside : token.kind.isBorder = false) (others : Flat tokens) :
    Flat (token :: tokens) :=
  List.forall_mem_cons.mpr ⟨inside, others⟩

/-- A token that opens no layer has none. -/
theorem single (inside : token.kind.isBorder = false) : Flat [token] := cons inside nil

/-- Visible tokens open no layers. -/
theorem of_visible (visible : ∀ token ∈ tokens, Lexeme.isLayoutKind token.kind = false) :
    Flat tokens :=
  fun token member => TokenKind.isBorder_of_visible (visible token member)

/-- Tokens without layers are nested. -/
theorem nested (flat : Flat tokens) : Nested tokens := by
  induction tokens with
  | nil => exact .nil
  | cons token tokens ih =>
      obtain ⟨inside, others⟩ := List.forall_mem_cons.mp flat
      rw [Nested, level?_cons, layer?_inside inside, Option.bind_some]
      exact ih others

end Flat

/-- Wherever tokens are cut, what follows closes all blocks that are still open. -/
theorem Nested.level?_suffix {front : List Token} (nested : Nested (front ++ tokens)) :
    ∃ level, level? 0 front = some level ∧ level? level tokens = some 0 := by
  rw [Nested, level?_append] at nested
  exact Option.bind_eq_some_iff.mp nested

end Token

namespace Layout

open Token Lexeme

variable {layout next : Layout} {offset : Nat}

/-- The blocks that the tokens have opened are those whose widths are known, and no token ends
the file. -/
def Tracked (layout : Layout) : Prop :=
  ∃ widths, layout.indents = widths ++ [0] ∧
    level? 0 layout.tokens.reverse = some widths.length ∧
    ∀ token ∈ layout.tokens, token.kind ≠ .eof

/-- At the start no layer is open. -/
theorem tracked_initial : initial.Tracked := ⟨[], rfl, rfl, fun _ member => by cases member⟩

/-- A token that opens no layer keeps the layers tracked. -/
theorem Tracked.push {token : Token} (tracked : layout.Tracked)
    (inside : token.kind.isBorder = false) : (layout.push token).Tracked := by
  obtain ⟨widths, known, opened, goesOn⟩ := tracked
  refine ⟨widths, known, ?_, List.forall_mem_cons.mpr ⟨?_, goesOn⟩⟩
  · rw [Layout.push, List.reverse_cons, level?_append, opened, Option.bind_some, level?_cons,
      layer?_inside inside]
    rfl
  · intro ends
    rw [ends] at inside
    cases inside

/-- Blocks are closed up to one that is not wider; the outermost one never is. -/
theorem Tracked.closeTo (tracked : layout.Tracked) (width offset : Nat) :
    (layout.closeTo width offset).Tracked := by
  obtain ⟨widths, known, opened, goesOn⟩ := tracked
  have taken : (widths ++ [0]).takeWhile (width < ·) = widths.takeWhile (width < ·) := by
    rw [List.takeWhile_append]
    split
    case isTrue whole =>
      rw [(List.takeWhile_prefix _).eq_of_length whole]
      simp
    case isFalse => rfl
  have left : (widths ++ [0]).dropWhile (width < ·) = widths.dropWhile (width < ·) ++ [0] := by
    rw [List.dropWhile_append]
    split <;> simp_all
  have counted : widths.length =
      (widths.dropWhile (width < ·)).length + (widths.takeWhile (width < ·)).length := by
    rw [Nat.add_comm, ← List.length_append, List.takeWhile_append_dropWhile]
  refine ⟨widths.dropWhile (width < ·), ?_, ?_, ?_⟩
  · rw [Layout.closeTo, known, left]
  · rw [Layout.closeTo, known, taken, List.reverse_append, List.reverse_replicate, level?_append,
      opened, Option.bind_some, counted, level?_dedents]
  · rw [Layout.closeTo]
    refine List.forall_mem_append.mpr ⟨fun token member => ?_, goesOn⟩
    rw [List.eq_of_mem_replicate member]
    exact TokenKind.noConfusion

/-- The start of a line opens and closes layers as it opens and closes blocks. -/
theorem Tracked.beginLine {file : String} {blanks rest : List Char} (tracked : layout.Tracked)
    (begun : layout.beginLine file blanks rest offset = .ok next) : next.Tracked := by
  unfold Layout.beginLine at begun
  split at begun
  · cases begun
    exact tracked
  · unfold Layout.indentTo at begun
    split at begun
    · cases begun
      obtain ⟨widths, known, opened, goesOn⟩ := tracked
      refine ⟨_ :: widths, by rw [known]; rfl, ?_,
        List.forall_mem_cons.mpr ⟨TokenKind.noConfusion, goesOn⟩⟩
      rw [List.reverse_cons, level?_append, opened, Option.bind_some, level?_cons,
        layer?_indent rfl]
      rfl
    · dsimp only at begun
      split at begun
      · cases begun
        exact tracked.closeTo _ _
      · cases begun

/-- A lexeme opens no layer. -/
theorem Tracked.accept {cs : List Char} {cls : LexemeClass} {length : Nat}
    (tracked : layout.Tracked) (found : next? cs = some (cls, length)) (offset : Nat) :
    (layout.accept cls (cs.take length) offset).Tracked := by
  have leaves := next?_leaves found
  cases cls with
  | skipped => exact tracked
  | lineBreak =>
      unfold Layout.accept Layout.breakLine
      dsimp only
      split
      · split
        · exact tracked.push rfl
        · exact tracked
      · exact tracked
  | string | number => exact tracked.push rfl
  | word => exact tracked.push (TokenKind.isBorder_of_visible (isLayoutKind_wordKind _))
  | mark kind => exact tracked.push (TokenKind.isBorder_of_visible leaves)

/-- At the end of a text all blocks are closed. -/
theorem Tracked.finish (tracked : layout.Tracked) (offset : Nat) :
    ∃ body, layout.finish offset = body ++ [Token.layout .eof offset] ∧ Nested body ∧
      ∀ token ∈ body, token.kind ≠ .eof := by
  have ended : ∃ ended : Layout, ended.Tracked ∧ ended.indents = layout.indents ∧
      ended.tokens = if endsText layout.lastKind? then
        Token.layout .newline offset :: layout.tokens else layout.tokens := by
    split
    · exact ⟨layout.push (Token.layout .newline offset), tracked.push rfl, rfl, rfl⟩
    · exact ⟨layout, tracked, rfl, rfl⟩
  obtain ⟨ended, ⟨widths, known, opened, goesOn⟩, same, read⟩ := ended
  have count : layout.indents.length - 1 = widths.length := by
    rw [← same, known, List.length_append]
    rfl
  refine ⟨ended.tokens.reverse ++ List.replicate widths.length (Token.layout .dedent offset),
    ?_, ?_, ?_⟩
  · unfold Layout.finish
    dsimp only
    rw [← read, count, List.reverse_cons, List.reverse_append, List.reverse_replicate]
  · have closed := level?_dedents 0 widths.length offset
    rw [Nat.zero_add] at closed
    rw [Nested, level?_append, opened, Option.bind_some, closed]
  · refine List.forall_mem_append.mpr ⟨fun token member => ?_, fun token member => ?_⟩
    · exact goesOn token (List.mem_reverse.mp member)
    · rw [List.eq_of_mem_replicate member]
      exact TokenKind.noConfusion

/-- What holds at the start of a text and is kept by every line and every lexeme holds at its
end. -/
theorem scanFrom_finish {Holds : Layout → Prop} {file : String} {tokens : List Token}
    (begins : ∀ layout next blanks rest offset, Holds layout →
      layout.beginLine file blanks rest offset = .ok next → Holds { next with lineStart := false })
    (accepts : ∀ layout cs cls length offset, Holds layout →
      next? cs = some (cls, length) → Holds (layout.accept cls (cs.take length) offset))
    (layout : Layout) (offset : Nat) (cs : List Char) (holds : Holds layout)
    (scanned : layout.scanFrom file offset cs = .ok tokens) :
    ∃ last stop, Holds last ∧ tokens = last.finish stop := by
  induction layout, offset, cs using Layout.scanFrom.induct file with
  | case1 layout offset =>
      rw [scanFrom] at scanned
      cases scanned
      exact ⟨layout, offset, holds, rfl⟩
  | case2 layout offset c rest atStart blanks after fault begun =>
      rw [scanFrom] at scanned
      simp only [atStart, and_self, ↓reduceIte] at scanned
      rw [begun] at scanned
      cases scanned
  | case3 layout offset c rest atStart blanks after next begun ih =>
      rw [scanFrom] at scanned
      simp only [atStart, and_self, ↓reduceIte] at scanned
      rw [begun] at scanned
      exact ih (begins _ _ _ _ _ holds begun) scanned
  | case4 layout offset c rest within unknown =>
      rw [scanFrom, if_neg within] at scanned
      split at scanned
      case h_1 => cases scanned
      case h_2 found => exact absurd (unknown.symm.trans found) (by simp)
  | case5 layout offset c rest within cls length known chars ih =>
      rw [scanFrom, if_neg within] at scanned
      split at scanned
      case h_1 => cases scanned
      case h_2 found =>
        cases known.symm.trans found
        exact ih (accepts _ _ _ _ _ holds known) scanned

end Layout

/-- The tokens of a text before the one at its end close all blocks that they open. -/
theorem Token.scan_nested {text file : String} {tokens : List Token}
    (scanned : Token.scan text file = .ok tokens) :
    ∃ body stop, tokens = body ++ [stop] ∧ stop.kind = .eof ∧ Nested body ∧
      ∀ token ∈ body, token.kind ≠ .eof := by
  have begins : ∀ (layout next : Layout) (blanks rest : List Char) (offset : Nat), layout.Tracked →
      layout.beginLine file blanks rest offset = .ok next →
      Layout.Tracked { next with lineStart := false } := by
    intro layout next blanks rest offset tracked begun
    have measured : next.Tracked := tracked.beginLine begun
    exact measured
  obtain ⟨last, offset, tracked, rfl⟩ := Layout.scanFrom_finish begins
    (fun _ _ _ _ offset tracked found => tracked.accept found offset) Layout.initial 0 text.toList
    Layout.tracked_initial scanned
  obtain ⟨body, split, nested, goesOn⟩ := tracked.finish offset
  exact ⟨body, _, split, rfl, nested, goesOn⟩

end DocSketch
