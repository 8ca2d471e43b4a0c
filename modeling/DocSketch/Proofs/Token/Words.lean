import DocSketch.Proofs.Template.Escaping
import DocSketch.Token.Lexer
import Mathlib.Data.List.TakeWhile

/-!
# Words among tokens

The identifiers that a text is read into are words: letters, numerals and underscores.  So
nothing in them has a meaning in templates.

* `Token.Worded`: a token is a word if it is an identifier.
* `Layout.scanFrom_worded`: reading on adds only such tokens.
* `Token.scan_worded`: the tokens of a text.
-/

namespace DocSketch

/-- A token is a word if it is an identifier. -/
def Token.Worded (token : Token) : Prop :=
  token.kind = .identifier → ∀ c ∈ token.value.toList, Lexeme.isWordPart c = true

namespace Lexeme

/-- A lexeme of some size has that class and length. -/
theorem eq_of_sized {cls kind : LexemeClass} {length n : Nat}
    (found : sized cls length = some (kind, n)) : kind = cls ∧ n = length := by
  unfold sized at found
  split at found
  · exact nomatch found
  · cases found
    exact ⟨rfl, rfl⟩

/-- No mark is an identifier. -/
theorem ne_identifier_of_mem_marks : ∀ mark ∈ marks, mark.2 ≠ .identifier := by
  decide

/-- A word goes as far as it can, and a mark is no identifier. -/
theorem next?_spec {cs : List Char} {cls : LexemeClass} {n : Nat}
    (found : next? cs = some (cls, n)) :
    (cls = .word → n = wordLength cs) ∧ ∀ kind, cls = .mark kind → kind ≠ .identifier := by
  simp only [next?, Option.orElse_eq_orElse, Option.orElse_eq_or, Option.or_eq_some_iff] at found
  rcases found with other | ⟨-, other | ⟨-, other | ⟨-, other | ⟨-, other | ⟨-, other | ⟨-, word |
    ⟨-, mark⟩⟩⟩⟩⟩⟩⟩
  case inr.inr.inr.inr.inr.inr.inl =>
    obtain ⟨rfl, rfl⟩ := eq_of_sized word
    exact ⟨fun _ => rfl, by simp⟩
  case inr.inr.inr.inr.inr.inr.inr =>
    unfold mark? at mark
    obtain ⟨entry, listed, same⟩ := Option.map_eq_some_iff.mp mark
    have known := ne_identifier_of_mem_marks entry (List.mem_of_find?_eq_some listed)
    cases same
    refine ⟨by simp, fun kind same => ?_⟩
    cases same
    exact known
  all_goals
    obtain ⟨rfl, -⟩ := eq_of_sized other
    exact ⟨by simp, by simp⟩

/-- What starts a word may stand in it. -/
theorem isWordPart_of_isWordStart {c : Char} (start : isWordStart c = true) :
    isWordPart c = true := by
  simp only [isWordStart, isWordPart, Bool.or_eq_true] at start ⊢
  obtain letter | line := start
  · exact .inl (.inl letter)
  · exact .inr line

/-- All characters of a word may stand in it. -/
theorem isWordPart_of_mem_word {cs : List Char} :
    ∀ c ∈ cs.take (wordLength cs), isWordPart c = true := by
  cases cs with
  | nil => exact fun c member => absurd member List.not_mem_nil
  | cons first rest =>
      rw [wordLength]
      split
      case isTrue start =>
        intro c member
        have prefixed : rest.take (rest.takeWhile isWordPart).length = rest.takeWhile isWordPart :=
          (List.prefix_iff_eq_take.mp (List.takeWhile_prefix isWordPart)).symm
        rw [Nat.add_comm, List.take_succ_cons, prefixed] at member
        obtain rfl | inside := List.mem_cons.mp member
        · exact isWordPart_of_isWordStart start
        · exact List.mem_takeWhile_imp inside
      case isFalse => exact fun c member => absurd member List.not_mem_nil

end Lexeme

namespace Layout

/-- All tokens read so far are words if they are identifiers. -/
def Worded (layout : Layout) : Prop := ∀ token ∈ layout.tokens, token.Worded

/-- Layout is no identifier. -/
theorem layout_worded {kind : TokenKind} (offset : Nat) (other : kind ≠ .identifier) :
    (Token.layout kind offset).Worded := fun same => absurd same other

/-- A token whose value is a word keeps all of them so. -/
theorem Worded.push {layout : Layout} (worded : layout.Worded) {token : Token}
    (own : token.Worded) : (layout.push token).Worded :=
  List.forall_mem_cons.mpr ⟨own, worded⟩

/-- Dedents have no words. -/
theorem Worded.closeTo {layout : Layout} (worded : layout.Worded) (width offset : Nat) :
    (layout.closeTo width offset).Worded := by
  refine List.forall_mem_append.mpr ⟨fun token member => ?_, worded⟩
  rw [List.eq_of_mem_replicate member]
  exact layout_worded offset nofun

/-- The start of a line has no words. -/
theorem Worded.beginLine {layout next : Layout} (worded : layout.Worded) {file : String}
    {blanks rest : List Char} {offset : Nat}
    (begun : layout.beginLine file blanks rest offset = .ok next) : next.Worded := by
  unfold Layout.beginLine at begun
  split at begun
  · cases begun
    exact worded
  · unfold Layout.indentTo at begun
    split at begun
    · cases begun
      exact List.forall_mem_cons.mpr ⟨layout_worded _ nofun, worded⟩
    · dsimp only at begun
      split at begun
      · cases begun
        exact worded.closeTo _ _
      · exact nomatch begun

/-- An identifier that is accepted is a word. -/
theorem Worded.accept {layout : Layout} (worded : layout.Worded) {cls : LexemeClass}
    {cs : List Char} {length : Nat} (found : Lexeme.next? cs = some (cls, length)) (offset : Nat) :
    (layout.accept cls (cs.take length) offset).Worded := by
  obtain ⟨word, mark⟩ := Lexeme.next?_spec found
  cases cls with
  | skipped => exact worded
  | lineBreak =>
      unfold Layout.accept Layout.breakLine
      dsimp only
      split
      · split
        · exact worded.push (fun same => nomatch same)
        · exact worded
      · exact worded
  | string => exact worded.push (fun same => nomatch same)
  | number => exact worded.push (fun same => nomatch same)
  | word =>
      refine worded.push fun _ => ?_
      rw [word rfl, String.toList_ofList]
      exact Lexeme.isWordPart_of_mem_word
  | mark kind => exact worded.push fun same => absurd same (mark kind rfl)

/-- The end of the text has no words. -/
theorem Worded.finish {layout : Layout} (worded : layout.Worded) (offset : Nat) :
    ∀ token ∈ layout.finish offset, token.Worded := by
  have ended : ∀ token ∈ (if endsText layout.lastKind? then
      Token.layout .newline offset :: layout.tokens else layout.tokens), token.Worded := by
    split
    · exact List.forall_mem_cons.mpr ⟨layout_worded offset nofun, worded⟩
    · exact worded
  intro token member
  obtain rfl | inside := List.mem_cons.mp (List.mem_reverse.mp member)
  · exact layout_worded offset nofun
  · obtain closed | earlier := List.mem_append.mp inside
    · rw [List.eq_of_mem_replicate closed]
      exact layout_worded offset nofun
    · exact ended token earlier

/-- Every identifier that is scanned is a word. -/
theorem scanFrom_worded {file : String} {tokens : List Token} (layout : Layout) (offset : Nat)
    (cs : List Char) (worded : layout.Worded)
    (scanned : layout.scanFrom file offset cs = .ok tokens) :
    ∀ token ∈ tokens, token.Worded := by
  induction layout, offset, cs using Layout.scanFrom.induct file with
  | case1 layout offset =>
      rw [scanFrom] at scanned
      cases scanned
      exact worded.finish offset
  | case2 layout offset c rest atStart blanks after fault begun =>
      rw [scanFrom] at scanned
      simp only [atStart, and_self, ↓reduceIte] at scanned
      rw [begun] at scanned
      exact nomatch scanned
  | case3 layout offset c rest atStart blanks after next begun ih =>
      rw [scanFrom] at scanned
      simp only [atStart, and_self, ↓reduceIte] at scanned
      rw [begun] at scanned
      have measured : next.Worded := worded.beginLine begun
      exact ih measured scanned
  | case4 layout offset c rest within unknown =>
      rw [scanFrom, if_neg within] at scanned
      split at scanned
      case h_1 => exact nomatch scanned
      case h_2 found => exact nomatch unknown.symm.trans found
  | case5 layout offset c rest within cls length known chars ih =>
      rw [scanFrom, if_neg within] at scanned
      split at scanned
      case h_1 => exact nomatch scanned
      case h_2 found =>
        cases known.symm.trans found
        exact ih (worded.accept known offset) scanned

end Layout

/-- The identifiers of a text are words. -/
theorem Token.scan_worded {text file : String} {tokens : List Token}
    (scanned : Token.scan text file = .ok tokens) : ∀ token ∈ tokens, token.Worded :=
  Layout.scanFrom_worded Layout.initial 0 text.toList nofun scanned

/-- No character of a word is reserved in templates. -/
theorem Template.isReserved_of_isWordPart {c : Char} (word : Lexeme.isWordPart c = true) :
    isReserved c = false := by
  by_contra reserved
  simp only [isReserved, List.contains_eq_mem, Bool.not_eq_false, decide_eq_true_eq, List.mem_cons,
    List.not_mem_nil, or_false] at reserved
  obtain rfl | rfl | rfl | rfl | rfl := reserved <;> exact absurd word (by decide)

end DocSketch
