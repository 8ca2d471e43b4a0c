import DocSketch.Proofs.Text.Ascii
import DocSketch.Proofs.Token.Stretches
import DocSketch.Proofs.Token.WithinLines
import DocSketch.Proofs.Types.Marking
import DocSketch.Resolution.Lead

/-!
# Dotted labels

The identifiers of a text may hold letters and numerals of any script, while the identifiers in
a label are looked for among the letters and digits of ASCII.  Where the fragments of a label
are identifiers of a text, what is found in it is what is found in each fragment.  A fragment
within ASCII is found as it is; one beyond ASCII falls apart, and nothing tells its pieces from
the names of built-in types.

* `Token.IsIdentifier`: the identifiers of texts.
* `Label.identifiers_dotted`: what is found in a dotted label.
* `isBuiltinLabel_dotted`: when a dotted label is taken for built in, and when rightly.
-/

namespace DocSketch

/-! ## Identifiers of texts -/

namespace Lexeme

variable {cs : List Char} {c : Char}

/-- Whether a text is a single word. -/
def isWord : List Char → Bool
  | [] => false
  | c :: rest => isWordStart c && rest.all isWordPart

theorem isWord_cons :
    isWord (c :: cs) = true ↔ isWordStart c = true ∧ ∀ d ∈ cs, isWordPart d = true := by
  rw [isWord, Bool.and_eq_true, List.all_eq_true]

/-- All characters of a word may stand in it. -/
theorem isWordPart_of_isWord (word : isWord cs = true) : ∀ d ∈ cs, isWordPart d = true := by
  cases cs with
  | nil => cases word
  | cons first rest =>
      obtain ⟨starts, parts⟩ := isWord_cons.mp word
      exact List.forall_mem_cons.mpr ⟨isWordPart_of_isWordStart starts, parts⟩

/-- What is read as a word is one. -/
theorem isWord_take_wordLength (found : 0 < wordLength cs) :
    isWord (cs.take (wordLength cs)) = true := by
  have parts : ∀ d ∈ cs.take (wordLength cs), isWordPart d = true := isWordPart_of_mem_word
  cases cs with
  | nil => cases found
  | cons first rest =>
      rw [wordLength] at found parts ⊢
      split at found
      case isFalse => cases found
      case isTrue starts =>
        rw [if_pos starts] at parts ⊢
        rw [Nat.add_comm, List.take_succ_cons] at parts ⊢
        exact isWord_cons.mpr ⟨starts, fun d member => parts d (List.mem_cons_of_mem _ member)⟩

/-- Only words are read as identifiers. -/
theorem isWord_of_kind? {chars rest : List Char} {cls : LexemeClass}
    (found : next? (chars ++ rest) = some (cls, chars.length))
    (known : cls.kind? chars = some .identifier) : isWord chars = true := by
  obtain ⟨word, mark⟩ := next?_spec found
  have wide := pos_of_next? found
  cases cls with
  | skipped | lineBreak | string | number => cases known
  | mark kind => exact absurd (Option.some.inj known) (mark kind rfl)
  | word =>
      have length := word rfl
      rw [length] at wide
      have taken := isWord_take_wordLength wide
      rwa [← length, List.take_left] at taken

end Lexeme

namespace Token

open Lexeme

/-- Some text has the name among its identifiers. -/
def IsIdentifier (name : String) : Prop :=
  ∃ text file tokens, scan text file = .ok tokens ∧
    ∃ token ∈ tokens, token.kind = .identifier ∧ token.value = name

/-- Every identifier among the tokens is a word. -/
theorem Traced.isWord {offset : Nat} {chars : List Char} {tokens : List Token}
    (traced : Traced offset chars tokens) :
    ∀ token ∈ tokens, token.kind = .identifier → Lexeme.isWord token.value.toList = true := by
  induction traced with
  | done => exact List.forall_mem_nil _
  | layout isLayout _ ih =>
      refine List.forall_mem_cons.mpr ⟨fun identifier => ?_, ih⟩
      rw [identifier] at isLayout
      cases isLayout
  | skip _ _ _ ih => exact ih
  | @token offset chars rest cls kind tokens found known _ ih =>
      refine List.forall_mem_cons.mpr ⟨fun identifier => ?_, ih⟩
      rw [ofLexeme, String.toList_ofList]
      exact isWord_of_kind? found (known.trans (congrArg some identifier))

/-- An identifier is a word. -/
theorem IsIdentifier.isWord {name : String} (identifier : IsIdentifier name) :
    Lexeme.isWord name.toList = true := by
  obtain ⟨text, file, tokens, scanned, token, member, kind, rfl⟩ := identifier
  obtain ⟨added, rfl, traced⟩ := Layout.scanFrom_traced _ _ _ scanned
  exact traced.isWord token member kind

end Token

/-! ## What is found in a label -/

namespace Label

open Lexeme

variable {cs : List Char} {mark : Char}

/-- Identifiers do not reach across a mark. -/
theorem identifiers_mark (other : isIdentifierPart mark = false) (front back : List Char) :
    identifiers (front ++ mark :: back) = identifiers front ++ identifiers back := by
  induction front using identifiers.induct with
  | case1 =>
      have stop : isIdentifierStart mark = false := by
        rw [← Bool.not_eq_true]
        intro starts
        exact absurd (isIdentifierPart_of_start starts) (Bool.eq_false_iff.mp other)
      rw [List.nil_append, identifiers.eq_def (mark :: back), identifiers]
      simp only [stop, Bool.false_eq_true, ↓reduceIte, List.nil_append]
  | case2 c rest starts ih =>
      rw [List.cons_append, identifiers, identifiers, if_pos starts, if_pos starts,
        Text.takeWhile_upTo other, Text.dropWhile_upTo other, ih, List.cons_append]
  | case3 c rest ends ih =>
      rw [List.cons_append, identifiers, identifiers, if_neg ends, if_neg ends, ih]

/-- What is found in a dotted label is what is found in its fragments. -/
theorem identifiers_dotted (fragments : List (List Char)) :
    identifiers (['.'].intercalate fragments) = fragments.flatMap identifiers := by
  induction fragments with
  | nil => rw [List.intercalate_nil, identifiers, List.flatMap_nil]
  | cons fragment others ih =>
      cases others with
      | nil => rw [List.intercalate_singleton, List.flatMap_singleton]
      | cons next others =>
          have dot : isIdentifierPart '.' = false := by decide
          rw [List.intercalate_cons_cons, List.append_assoc, List.singleton_append,
            identifiers_mark dot, ih]
          rfl

/-- A character of a dotted label is a dot or stands in a fragment. -/
theorem eq_dot_or_of_mem_dotted {c : Char} {fragments : List (List Char)}
    (member : c ∈ ['.'].intercalate fragments) :
    c = '.' ∨ ∃ fragment ∈ fragments, c ∈ fragment := by
  induction fragments with
  | nil => cases member
  | cons fragment others ih =>
      cases others with
      | nil =>
          rw [List.intercalate_singleton] at member
          exact .inr ⟨fragment, List.mem_cons_self, member⟩
      | cons next others =>
          rw [List.intercalate_cons_cons, List.append_assoc, List.mem_append, List.mem_append,
            List.mem_singleton] at member
          obtain own | rfl | later := member
          · exact .inr ⟨fragment, List.mem_cons_self, own⟩
          · exact .inl rfl
          · refine (ih later).imp_right ?_
            rintro ⟨other, listed, inside⟩
            exact ⟨other, List.mem_cons_of_mem _ listed, inside⟩

/-- Within ASCII, words are identifiers. -/
theorem isName_of_isWord (word : Lexeme.isWord cs = true) (ascii : Text.isAscii cs = true) :
    isName cs = true := by
  cases cs with
  | nil => cases word
  | cons c rest =>
      obtain ⟨starts, parts⟩ := Lexeme.isWord_cons.mp word
      obtain ⟨first, others⟩ := Text.isAscii_cons.mp ascii
      refine isName_cons.mpr ⟨?_, fun d member => ?_⟩
      · simpa only [isIdentifierStart, Lexeme.isWordStart, Text.isLetter, first, ↓reduceIte]
          using starts
      · simpa only [isIdentifierPart, Lexeme.isWordPart, Text.isLetter, Text.isNumeral,
          Text.isAscii_iff.mp others d member, ↓reduceIte, Char.isAlphanum] using parts d member

/-- The identifiers of labels are within ASCII. -/
theorem isAscii_of_isName (named : isName cs = true) : Text.isAscii cs = true := by
  refine Text.isAscii_iff.mpr fun c member => ?_
  by_contra beyond
  have other : isIdentifierPart c = false := by
    rw [← Bool.not_eq_true, isIdentifierPart, Bool.or_eq_true, beq_iff_eq]
    rintro (known | rfl)
    · exact beyond (Text.isAscii_of_isAlphanum known)
    · exact beyond (by decide)
  exact not_mem_of_isName named other member

end Label

open Label

/-- A built-in name is all that is found in it. -/
theorem identifiers_of_isBuiltinName {name : String} (builtin : isBuiltinName name = true) :
    identifiers name.toList = [name.toList] :=
  identifiers_of_isName (isName_of_isBuiltinName builtin)

/-- The characters of a dotted label are those of its fragments, with dots between. -/
theorem toList_dotted (fragments : List String) :
    (dotted fragments).toList = ['.'].intercalate (fragments.map String.toList) := by
  rw [dotted, String.toList_intercalate]
  rfl

section Dotted

variable {fragments : List String} (read : ∀ fragment ∈ fragments, Token.IsIdentifier fragment)

include read

/-- There are no blanks in a label whose fragments are identifiers. -/
theorem blank_not_mem_dotted : ' ' ∉ (dotted fragments).toList := by
  rw [toList_dotted]
  intro member
  obtain dot | ⟨chars, listed, inside⟩ := eq_dot_or_of_mem_dotted member
  · cases dot
  · obtain ⟨fragment, known, rfl⟩ := List.mem_map.mp listed
    have part := Lexeme.isWordPart_of_isWord (read fragment known).isWord ' ' inside
    exact absurd part (by decide)

/-- A dotted label counts as built in if all identifiers found in its fragments do, and some are
found. -/
theorem isBuiltinLabel_dotted_iff :
    isBuiltinLabel (dotted fragments) " or " = true ↔
      (∃ fragment ∈ fragments, identifiers fragment.toList ≠ []) ∧
        ∀ fragment ∈ fragments, ∀ name ∈ identifiers fragment.toList,
          isBuiltinName (String.ofList name) = true := by
  rw [isBuiltinLabel_of_not_mem rfl (blank_not_mem_dotted read), toList_dotted,
    identifiers_dotted, List.flatMap_map]
  refine and_congr ?_ List.forall_mem_flatMap
  rw [Ne, List.flatMap_eq_nil_iff]
  simp only [not_forall, exists_prop, ne_eq]

/-- A label is built in if all its fragments are. -/
theorem isBuiltinLabel_of_fragments (some : fragments ≠ [])
    (builtin : ∀ fragment ∈ fragments, isBuiltinName fragment = true) :
    isBuiltinLabel (dotted fragments) " or " = true := by
  rw [isBuiltinLabel_dotted_iff read]
  refine ⟨?_, fun fragment member name found => ?_⟩
  · obtain ⟨fragment, member⟩ := List.exists_mem_of_ne_nil fragments some
    refine ⟨fragment, member, ?_⟩
    rw [identifiers_of_isBuiltinName (builtin fragment member)]
    exact List.cons_ne_nil _ _
  · rw [identifiers_of_isBuiltinName (builtin fragment member)] at found
    rw [List.mem_singleton.mp found, String.ofList_toList]
    exact builtin fragment member

/-- **Dotted labels.**  Where the fragments are identifiers of texts, a dotted label is taken for
built in if anything is found in it, and everything that is found names something built in.  So it
is told rightly whether all of its fragments are built in, unless it is taken for built in and has
a fragment beyond ASCII. -/
theorem isBuiltinLabel_dotted (some : fragments ≠ []) :
    (isBuiltinLabel (dotted fragments) " or " = true ↔
      (∃ fragment ∈ fragments, identifiers fragment.toList ≠ []) ∧
        ∀ fragment ∈ fragments, ∀ name ∈ identifiers fragment.toList,
          isBuiltinName (String.ofList name) = true) ∧
    ((isBuiltinLabel (dotted fragments) " or " = true ↔
        ∀ fragment ∈ fragments, isBuiltinName fragment = true) ↔
      (isBuiltinLabel (dotted fragments) " or " = true →
        ∀ fragment ∈ fragments, Text.isAscii fragment.toList = true)) := by
  refine ⟨isBuiltinLabel_dotted_iff read, fun rightly taken fragment member => ?_, fun ascii => ?_⟩
  · exact isAscii_of_isName (isName_of_isBuiltinName (rightly.mp taken fragment member))
  · refine ⟨fun taken fragment member => ?_, isBuiltinLabel_of_fragments read some⟩
    have named : isName fragment.toList = true :=
      isName_of_isWord (read fragment member).isWord (ascii taken fragment member)
    have each := ((isBuiltinLabel_dotted_iff read).mp taken).2 fragment member
    rw [identifiers_of_isName named, List.forall_mem_singleton, String.ofList_toList] at each
    exact each

end Dotted

/-- Of a name beyond ASCII two pieces are found, which name nothing. -/
theorem isBuiltinLabel_dotted_naive :
    (∀ fragment ∈ ["naïve", "int"], Token.IsIdentifier fragment) ∧
      isBuiltinLabel (dotted ["naïve", "int"]) " or " = false ∧
      (isBuiltinLabel (dotted ["naïve", "int"]) " or " = true ↔
        ∀ fragment ∈ ["naïve", "int"], isBuiltinName fragment = true) := by
  have steps : Layout.scanWithin 10 .initial "m.py" 0 "naïve.int".toList =
      some (.ok [⟨.identifier, "naïve", ⟨0, 6⟩⟩, ⟨.dot, ".", ⟨6, 7⟩⟩,
        ⟨.identifier, "int", ⟨7, 10⟩⟩, ⟨.newline, "", ⟨10, 10⟩⟩, ⟨.eof, "", ⟨10, 10⟩⟩]) := by
    with_unfolding_all rfl
  have scanned := Layout.scanFrom_of_scanWithin steps
  have read : ∀ fragment ∈ ["naïve", "int"], Token.IsIdentifier fragment := by
    refine List.forall_mem_cons.mpr ⟨?_, List.forall_mem_singleton.mpr ?_⟩
    · exact ⟨"naïve.int", "m.py", _, scanned, _, List.mem_cons_self, rfl, rfl⟩
    · exact ⟨"naïve.int", "m.py", _, scanned, _,
        List.mem_cons_of_mem _ (List.mem_cons_of_mem _ List.mem_cons_self), rfl, rfl⟩
  have unknown : isBuiltinLabel (dotted ["naïve", "int"]) " or " = false := by decide +kernel
  refine ⟨read, unknown, (isBuiltinLabel_dotted read (List.cons_ne_nil _ _)).2.mpr fun taken => ?_⟩
  rw [unknown] at taken
  cases taken

/-- A name beyond ASCII is taken for the built-in one that it starts with. -/
theorem isBuiltinLabel_accented :
    Token.IsIdentifier "inté" ∧ isBuiltinName "inté" = false ∧
      ¬(isBuiltinLabel (dotted ["inté"]) " or " = true ↔
        ∀ fragment ∈ ["inté"], isBuiltinName fragment = true) := by
  have steps : Layout.scanWithin 10 .initial "m.py" 0 "inté".toList =
      some (.ok [⟨.identifier, "inté", ⟨0, 5⟩⟩, ⟨.newline, "", ⟨5, 5⟩⟩, ⟨.eof, "", ⟨5, 5⟩⟩]) := by
    with_unfolding_all rfl
  have taken : isBuiltinLabel (dotted ["inté"]) " or " = true := by decide +kernel
  have unknown : isBuiltinName "inté" = false := by decide +kernel
  refine ⟨⟨"inté", "m.py", _, Layout.scanFrom_of_scanWithin steps, _, List.mem_cons_self, rfl, rfl⟩,
    unknown, fun rightly => ?_⟩
  have builtin := rightly.mp taken "inté" List.mem_cons_self
  rw [unknown] at builtin
  cases builtin

end DocSketch
