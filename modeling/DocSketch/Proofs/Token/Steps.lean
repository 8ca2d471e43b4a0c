import DocSketch.Source

/-!
# Reading in steps

Reading a text recurses on what is left of it.  With a bound on the number of steps it
becomes a recursion on that number, which the kernel can evaluate on a given text.

* `Layout.scanWithin`: the tokens of a text that a given number of steps suffices for.
* `Layout.scanFrom_of_scanWithin`: these are the tokens of the text.
* `Source.read_of_steps`: a text with given tokens and statements.
-/

namespace DocSketch

namespace Layout

/-- Reads the text `cs` in at most `steps` steps; `none` if it needs more. -/
def scanWithin : Nat → Layout → String → Nat → List Char → Option (Except Fault (List Token))
  | 0, _, _, _, _ => none
  | _ + 1, layout, _, offset, [] => some (.ok (layout.finish offset))
  | steps + 1, layout, file, offset, c :: rest =>
    if layout.lineStart ∧ layout.nesting = 0 then
      let blanks := (c :: rest).takeWhile Lexeme.isBlank
      let after := (c :: rest).dropWhile Lexeme.isBlank
      match layout.beginLine file blanks after offset with
      | .error fault => some (.error fault)
      | .ok next =>
        scanWithin steps { next with lineStart := false } file (offset + Text.byteLength blanks)
          after
    else
      match Lexeme.next? (c :: rest) with
      | none => some (.error ⟨.unrecognisedToken (String.singleton c), ⟨offset, file⟩⟩)
      | some (cls, length) =>
        let chars := (c :: rest).take length
        scanWithin steps (layout.accept cls chars offset) file (offset + Text.byteLength chars)
          ((c :: rest).drop length)

/-- What a number of steps suffices for is what reading gives. -/
theorem scanFrom_of_scanWithin {file : String} {outcome : Except Fault (List Token)} :
    ∀ {steps : Nat} {layout : Layout} {offset : Nat} {cs : List Char},
      scanWithin steps layout file offset cs = some outcome →
      layout.scanFrom file offset cs = outcome
  | 0, layout, offset, cs, reached => by simp only [scanWithin, reduceCtorEq] at reached
  | steps + 1, layout, offset, [], reached => by
      simp only [scanWithin, Option.some.injEq] at reached
      rw [scanFrom, reached]
  | steps + 1, layout, offset, c :: rest, reached => by
      rw [scanWithin] at reached
      rw [scanFrom]
      split at reached
      case isTrue atStart =>
        simp only [atStart, ↓reduceIte, and_self]
        cases begun : layout.beginLine file ((c :: rest).takeWhile Lexeme.isBlank)
            ((c :: rest).dropWhile Lexeme.isBlank) offset with
        | error fault =>
            simp only [begun, Option.some.injEq] at reached ⊢
            exact reached
        | ok next =>
            simp only [begun] at reached ⊢
            exact scanFrom_of_scanWithin reached
      case isFalse within =>
        simp only [within, ↓reduceIte]
        split at reached
        case h_1 unknown =>
          cases reached
          split
          · rfl
          case h_2 cls length known => exact absurd (unknown ▸ known) (by simp)
        case h_2 cls length known =>
          split
          case h_1 unknown => exact absurd (known ▸ unknown) (by simp)
          case h_2 other size same =>
            rw [known] at same
            cases same
            exact scanFrom_of_scanWithin reached

end Layout

namespace Source

variable {text file : String} {tokens : List Token}

/-- A text is read by scanning it and parsing its tokens. -/
theorem read_of_scan {program : Program} (scanned : Token.scan text file = .ok tokens)
    (parsed : Program.ofTokens file tokens = .ok program) :
    read text file = .ok (ofProgram text file program) := by
  simp only [read, scanned, parsed, bind, Except.bind, pure, Except.pure]

/-- A text is accepted if its tokens, read in steps, make up a program. -/
theorem read_of_steps {program : Program} (steps : Nat)
    (scanned : Layout.scanWithin steps .initial file 0 text.toList = some (.ok tokens))
    (parsed : Program.ofTokens file tokens = .ok program) :
    read text file = .ok (ofProgram text file program) :=
  read_of_scan (Layout.scanFrom_of_scanWithin scanned) parsed

/-- A text is refused if its tokens, read in steps, make up no program. -/
theorem read_ne_of_steps {fault : Fault} {source : Source} (steps : Nat)
    (scanned : Layout.scanWithin steps .initial file 0 text.toList = some (.ok tokens))
    (refused : Program.ofTokens file tokens = .error fault) : read text file ≠ .ok source := by
  have tokenized : Token.scan text file = .ok tokens := Layout.scanFrom_of_scanWithin scanned
  simp only [read, tokenized, refused, bind, Except.bind, ne_eq, reduceCtorEq, not_false_eq_true]

end Source

end DocSketch
