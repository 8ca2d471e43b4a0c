import Mathlib
import DocSketch.Proofs.Template.Lexemes
import DocSketch.Proofs.Template.Outline

/-!
# Numbered templates can be read

Numbering takes lexemes away from a template, for names and markers, and adds others, for
numbers and for braces that count as text.  As long as it takes whole lexemes, what it writes
is read as the outline of the template: the braces of its fields count, and no others do.

* `Template.Derived`: what numbering does to lexemes.
* `Template.parse_writeAll`: the outline of a template is read back.
* `Template.markerCounts`, `Template.nameEnd?`: where numbering cuts a field.
* `Template.convert_number`: a numbered template can be turned into a snippet.
-/

namespace DocSketch

namespace Template

/-! ## Lexemes of trees -/

mutual

def Segment.lexemes : Segment → List Lexeme
  | .text chars => Template.lexemes chars
  | .group segments => .char '\x7b' :: (Segment.lexemesAll segments ++ [.char '\x7d'])

def Segment.lexemesAll : List Segment → List Lexeme
  | [] => []
  | segment :: segments => segment.lexemes ++ Segment.lexemesAll segments

end

/-- The digits of a number, as lexemes. -/
def digitLexemes (number : Nat) : List Lexeme := (toString number).toList.map .char

mutual

def Element.lexemes : Element → List Lexeme
  | .text chars => Template.lexemes chars
  | .field number preview =>
    (.char '\x7b' :: digitLexemes number) ++
      (if (Element.writeAll preview).isEmpty then []
        else .char ':' :: Element.lexemesAll preview) ++
      [.char '\x7d']
  | .braces content => .escaped '\x7b' :: (Element.lexemesAll content ++ [.escaped '\x7d'])

def Element.lexemesAll : List Element → List Lexeme
  | [] => []
  | element :: elements => element.lexemes ++ Element.lexemesAll elements

end

/-- Plain characters are their own lexemes. -/
theorem flatMap_chars_char (cs : List Char) : (cs.map Lexeme.char).flatMap Lexeme.chars = cs := by
  induction cs with
  | nil => rfl
  | cons c cs ih => rw [List.map_cons, List.flatMap_cons, ih, Lexeme.chars, List.singleton_append]

theorem Element.lexemesAll_append (first second : List Element) :
    lexemesAll (first ++ second) = lexemesAll first ++ lexemesAll second := by
  induction first with
  | nil => rfl
  | cons element first ih => rw [List.cons_append, lexemesAll, lexemesAll, ih, List.append_assoc]

/-- The lexemes of elements are what is written. -/
theorem Element.flatMap_chars_lexemesAll (elements : List Element) :
    (lexemesAll elements).flatMap Lexeme.chars = writeAll elements := by
  induction elements using elements_induction with
  | nil => rfl
  | text chars elements ih =>
      rw [lexemesAll, Element.lexemes, List.flatMap_append, flatMap_chars_lexemes, ih]
      rfl
  | field number preview elements inside ih =>
      rw [lexemesAll, List.flatMap_append, ih, writeAll]
      congr 1
      simp only [Element.lexemes, Element.write, writeField]
      split
      case isTrue => simp [digitLexemes, flatMap_chars_char, Lexeme.chars]
      case isFalse => simp [digitLexemes, flatMap_chars_char, Lexeme.chars, inside]
  | braces content elements inside ih =>
      rw [lexemesAll, List.flatMap_append, ih, writeAll]
      simp [Element.lexemes, Element.write, Lexeme.chars, inside]

/-- The pieces of a template that has been nested so far. -/
def opened (current : List Segment) : List (Nat × List Segment) → List Piece
  | [] => piecesAll current.reverse
  | (_, before) :: outer => opened before outer ++ .opening :: piecesAll current.reverse

theorem piecesAll_append (first second : List Segment) :
    piecesAll (first ++ second) = piecesAll first ++ piecesAll second := by
  induction first with
  | nil => rfl
  | cons segment first ih => rw [List.cons_append, piecesAll, piecesAll, ih, List.append_assoc]

theorem opened_cons (segment : Segment) (current : List Segment)
    (outer : List (Nat × List Segment)) :
    opened (segment :: current) outer = opened current outer ++ segment.pieces := by
  cases outer with
  | nil => simp [opened, piecesAll_append, piecesAll]
  | cons frame outer => simp [opened, piecesAll_append, piecesAll]

/-- Nesting keeps the pieces of a template. -/
theorem piecesAll_of_nest {offset : Nat} {current segments : List Segment}
    {outer : List (Nat × List Segment)} {pieces : List Piece}
    (nested : nest offset current outer pieces = .ok segments) :
    piecesAll segments = opened current outer ++ pieces := by
  induction pieces generalizing offset current outer with
  | nil =>
      cases outer with
      | nil =>
          cases nested
          rw [opened, List.append_nil]
      | cons frame outer =>
          obtain ⟨last, found⟩ := Option.ne_none_iff_exists'.mp
            (mt List.getLast?_eq_none_iff.mp (List.cons_ne_nil frame outer))
          simp only [nest, found] at nested
          cases nested
  | cons piece pieces ih =>
      cases piece with
      | opening =>
          rw [ih nested, opened, List.append_assoc]
          rfl
      | closing =>
          cases outer with
          | nil => cases nested
          | cons frame outer =>
              rw [ih nested, opened_cons, opened]
              simp [Segment.pieces]
      | text chars =>
          rw [ih nested, opened_cons]
          simp [Segment.pieces]

/-- The pieces of segments have the lexemes of the segments. -/
theorem flatMap_lexemes_piecesAll (segments : List Segment) :
    (piecesAll segments).flatMap Piece.lexemes = Segment.lexemesAll segments := by
  induction segments using segments_induction with
  | nil => rfl
  | text chars segments ih => simp [piecesAll, Segment.pieces, Segment.lexemesAll, ih,
      Segment.lexemes, Piece.lexemes]
  | group inner segments inside ih => simp [piecesAll, Segment.pieces, Segment.lexemesAll, ih,
      inside, Segment.lexemes, Piece.lexemes]

/-- The pieces of a parsed text are its lexemes, each put in its place. -/
theorem piecesAll_of_parse {text : String} {segments : List Segment}
    (parsed : parse .standard text = .ok segments) :
    piecesAll segments = (lexemes text.toList).foldr Lexeme.place [] := by
  rw [← cut_eq_foldr, piecesAll_of_nest parsed]
  rfl

/-- A template has the lexemes of its segments. -/
theorem lexemesAll_of_parse {text : String} {segments : List Segment}
    (parsed : parse .standard text = .ok segments) :
    Segment.lexemesAll segments = lexemes text.toList := by
  rw [← flatMap_lexemes_piecesAll, piecesAll_of_parse parsed,
    (foldr_place_lexemes (placed_lexemes text.toList)).1]

/-! ## Reading the outline -/

mutual

/-- The segments of what is written for an element, before `rest`. -/
def Element.segments (rest : List Segment) : Element → List Segment
  | .text chars => prependPlain chars rest
  | .field number preview =>
    .group
      (if (Element.writeAll preview).isEmpty then [.text (toString number).toList]
      else prependPlain ((toString number).toList ++ [':'])
        (Element.segmentsAll [] preview)) :: rest
  | .braces content =>
    prependPlain ['\\', '\x7b'] (Element.segmentsAll (prependPlain ['\\', '\x7d'] rest) content)

def Element.segmentsAll (rest : List Segment) : List Element → List Segment
  | [] => rest
  | element :: elements => element.segments (Element.segmentsAll rest elements)

end

/-- Texts without a brace that counts. -/
def QuietText (chars : List Char) : Prop := ∀ l ∈ lexemes chars, l.IsText

mutual

def Element.Quiet : Element → Prop
  | .text chars => QuietText chars
  | .field _ preview => Element.QuietAll preview
  | .braces content => Element.QuietAll content

/-- All braces that count belong to fields. -/
def Element.QuietAll : List Element → Prop
  | [] => True
  | element :: elements => element.Quiet ∧ Element.QuietAll elements

end

/-- Lexemes of text are hidden text. -/
theorem foldr_place_text {ls : List Lexeme} (text : ∀ l ∈ ls, l.IsText) (pieces : List Piece) :
    ls.foldr Lexeme.place pieces = hide (ls.flatMap Lexeme.chars) pieces := by
  induction ls with
  | nil => rfl
  | cons l ls ih =>
      obtain ⟨⟨opens, closes⟩, rest⟩ := List.forall_mem_cons.mp text
      rw [List.foldr_cons, ih rest, Lexeme.place, if_neg opens, if_neg closes, List.flatMap_cons,
        prependText_hide]
      cases l <;> simp [Lexeme.chars]

/-- Text before a closing brace stays before it. -/
theorem prependText_closing (chars : List Char) (pieces rest : List Piece) :
    prependText chars (pieces ++ .closing :: rest) =
      prependText chars pieces ++ .closing :: rest := by
  cases pieces with
  | nil => rfl
  | cons piece pieces => cases piece <;> rfl

/-- Lexemes before a brace that closes a group do not reach beyond it. -/
theorem foldr_place_closing (ls : List Lexeme) (pieces : List Piece) :
    ls.foldr Lexeme.place (.closing :: pieces) =
      ls.foldr Lexeme.place [] ++ .closing :: pieces := by
  induction ls with
  | nil => rfl
  | cons l ls ih =>
      rw [List.foldr_cons, List.foldr_cons, ih, Lexeme.place, Lexeme.place]
      split
      · rfl
      split
      · rfl
      · exact prependText_closing _ _ _

/-- A character other than a brace is text. -/
theorem isText_char {c : Char} (opens : c ≠ '\x7b') (closes : c ≠ '\x7d') :
    (Lexeme.char c).IsText := ⟨by simpa using opens, by simpa using closes⟩

/-- Digits are text. -/
theorem isText_digitLexemes {number : Nat} {l : Lexeme} (member : l ∈ digitLexemes number) :
    l.IsText := by
  obtain ⟨c, inside, rfl⟩ := List.mem_map.mp member
  obtain ⟨-, opens, closes, -⟩ :=
    ne_of_free (isReserved_of_isDigit (Text.isDigit_of_mem_toString inside))
  exact isText_char opens closes

/-- The digits of a number are hidden text. -/
theorem foldr_place_digits (number : Nat) (pieces : List Piece) :
    (digitLexemes number).foldr Lexeme.place pieces = hide (toString number).toList pieces := by
  rw [foldr_place_text fun _ => isText_digitLexemes, digitLexemes, flatMap_chars_char]

/-- The lexemes of elements are cut into the pieces of their segments. -/
theorem Element.foldr_place_lexemesAll {elements : List Element} (quiet : QuietAll elements)
    (rest : List Segment) :
    (lexemesAll elements).foldr Lexeme.place (piecesAll rest) =
      piecesAll (segmentsAll rest elements) := by
  induction elements using elements_induction generalizing rest with
  | nil => rfl
  | text chars elements ih =>
      rw [lexemesAll, List.foldr_append, ih quiet.2, Element.lexemes, foldr_place_text quiet.1,
        flatMap_chars_lexemes, segmentsAll, Element.segments, piecesAll_prependPlain]
  | field number preview elements inside ih =>
      obtain ⟨within, after⟩ := quiet
      have shown := inside within []
      rw [piecesAll] at shown
      rw [lexemesAll, List.foldr_append, ih after, Element.lexemes, List.foldr_append,
        List.foldr_cons, List.foldr_nil, segmentsAll, Element.segments, piecesAll]
      have closed : (Lexeme.char '\x7d').place (piecesAll (segmentsAll rest elements)) =
          .closing :: piecesAll (segmentsAll rest elements) := rfl
      have opened : ∀ pieces, (Lexeme.char '\x7b').place pieces = .opening :: pieces :=
        fun _ => rfl
      rw [closed, foldr_place_closing, List.foldr_append, List.foldr_cons, opened,
        foldr_place_digits, Segment.pieces]
      split
      case isTrue => simp [hide, prependText, piecesAll, Segment.pieces]
      case isFalse =>
        have colon : ∀ pieces, (Lexeme.char ':').place pieces = prependText [':'] pieces :=
          fun _ => rfl
        rw [List.foldr_cons, shown, colon, piecesAll_prependPlain]
        simp [hide, prependText_prependText]
  | braces content elements inside ih =>
      obtain ⟨within, after⟩ := quiet
      have closed : ∀ pieces, (Lexeme.escaped '\x7d').place pieces =
          prependText ['\\', '\x7d'] pieces := fun _ => rfl
      have opened : ∀ pieces, (Lexeme.escaped '\x7b').place pieces =
          prependText ['\\', '\x7b'] pieces := fun _ => rfl
      have hidden : ∀ (c : Char) segments, prependText ['\\', c] (piecesAll segments) =
          piecesAll (prependPlain ['\\', c] segments) := by
        intro c segments
        rw [piecesAll_prependPlain]
        rfl
      rw [lexemesAll, List.foldr_append, ih after, Element.lexemes, List.foldr_cons,
        List.foldr_append, List.foldr_cons, List.foldr_nil, closed, hidden, inside within, opened,
        hidden, segmentsAll, Element.segments]

/-- What is written for elements is read as their segments. -/
theorem parse_writeAll {elements : List Element} (placed : Placed (Element.lexemesAll elements))
    (quiet : Element.QuietAll elements) :
    parse .standard (String.ofList (Element.writeAll elements)) =
      .ok (Element.segmentsAll [] elements) := by
  obtain ⟨later, nested⟩ := nest_piecesAll (Element.segmentsAll [] elements) 0 [] [] []
  rw [List.append_nil, List.append_nil] at nested
  have pieces := Element.foldr_place_lexemesAll quiet []
  rw [piecesAll] at pieces
  rw [parse, String.toList_ofList, cut_eq_foldr, ← Element.flatMap_chars_lexemesAll,
    lexemes_flatMap placed, pieces, nested, nest]
  simp only [List.getLast?_nil, List.reverse_reverse]

/-! ## What numbering does to lexemes -/

/-- Lexemes that can be put anywhere. -/
def Lexeme.Neutral : Lexeme → Prop
  | escaped _ => True
  | char c => c ≠ '\\' ∧ c ≠ '<' ∧ c ≠ '>'
  | run _ | slash => False

/-- A neutral lexeme is valid. -/
theorem Lexeme.Neutral.valid {l : Lexeme} (neutral : l.Neutral) : l.Valid := by
  cases l with
  | char c => exact neutral.1
  | escaped c => trivial
  | run | slash => exact neutral.elim

/-- A neutral lexeme may stand before any other. -/
theorem Lexeme.Neutral.before {l : Lexeme} (neutral : l.Neutral) (later : Lexeme) :
    l.Before later := by
  cases l with
  | char c =>
      refine ⟨by simp, ?_⟩
      rintro ⟨⟩
      exact absurd rfl neutral.2.1
  | escaped c => exact ⟨by simp, by simp⟩
  | run | slash => exact neutral.elim

/-- A neutral lexeme may stand behind any other than a lone backslash. -/
theorem Lexeme.Neutral.after {l earlier : Lexeme} (neutral : l.Neutral)
    (other : earlier ≠ .slash) : earlier.Before l := by
  refine ⟨other, ?_⟩
  rintro - rfl
  exact absurd rfl neutral.2.2

/-- Neutral lexemes may stand in any order. -/
theorem pairwise_neutral {ls : List Lexeme} (neutral : ∀ l ∈ ls, l.Neutral) :
    ls.Pairwise Lexeme.Before :=
  List.pairwise_of_forall_mem_list fun l member later _ => (neutral l member).before later

/-- Lexemes of which some were taken away and to which neutral ones were added. -/
structure Derived (source result : List Lexeme) : Prop where
  members : ∀ l ∈ result, l ∈ source ∨ l.Neutral
  order : source.Pairwise Lexeme.Before → result.Pairwise Lexeme.Before
  empty : source = [] → result = []

theorem Derived.refl (source : List Lexeme) : Derived source source :=
  ⟨fun _ => .inl, id, id⟩

/-- Fewer lexemes are derived from the same ones. -/
theorem Derived.sublist {source result kept : List Lexeme} (derived : Derived source result)
    (fewer : kept.Sublist result) : Derived source kept where
  members l member := derived.members l (fewer.subset member)
  order placed := (derived.order placed).sublist fewer
  empty none := List.sublist_nil.mp (derived.empty none ▸ fewer)

/-- What is derived from lexemes in their places is in its places. -/
theorem Derived.placed {source result : List Lexeme} (derived : Derived source result)
    (placed : Placed source) : Placed result where
  valid l member := by
    rcases derived.members l member with kept | added
    · exact placed.valid l kept
    · exact added.valid
  order := derived.order placed.order

theorem Derived.append {source source' result result' : List Lexeme}
    (first : Derived source result) (second : Derived source' result') :
    Derived (source ++ source') (result ++ result') where
  members l member := by
    rcases List.mem_append.mp member with left | right
    · exact (first.members l left).imp_left (List.mem_append_left _)
    · exact (second.members l right).imp_left (List.mem_append_right _)
  empty none := by
    obtain ⟨left, right⟩ := List.append_eq_nil_iff.mp none
    rw [first.empty left, second.empty right, List.append_nil]
  order placed := by
    obtain ⟨left, right, across⟩ := List.pairwise_append.mp placed
    apply List.pairwise_append.mpr ⟨first.order left, second.order right, ?_⟩
    intro l member later behind
    rcases first.members l member with kept | added
    · -- Behind a backslash of its own there is nothing, before and after.
      have inner : l ≠ .slash := by
        rintro rfl
        have none : source' = [] := List.eq_nil_iff_forall_not_mem.mpr fun other present =>
          (across .slash kept other present).1 rfl
        rw [second.empty none] at behind
        exact absurd behind List.not_mem_nil
      rcases second.members later behind with kept' | added'
      · exact across l kept later kept'
      · exact added'.after inner
    · exact added.before later

/-- A group can get other braces, and more before its content. -/
theorem Derived.enclosed {source result front back : List Lexeme} (derived : Derived source result)
    (before : ∀ l ∈ front, l.Neutral) (after : ∀ l ∈ back, l.Neutral) :
    Derived (.char '\x7b' :: (source ++ [.char '\x7d'])) (front ++ result ++ back) where
  members l member := by
    rcases List.mem_append.mp member with inside | last
    · rcases List.mem_append.mp inside with first | kept
      · exact .inr (before l first)
      · rcases derived.members l kept with here | added
        · exact .inl (List.mem_cons_of_mem _ (List.mem_append_left _ here))
        · exact .inr added
    · exact .inr (after l last)
  empty none := absurd none (List.cons_ne_nil _ _)
  order placed := by
    obtain ⟨placed, -, across⟩ := List.pairwise_append.mp (List.pairwise_cons.mp placed).2
    have inner : ∀ l ∈ result, l ≠ .slash := by
      rintro l member rfl
      rcases derived.members .slash member with kept | added
      · exact (across .slash kept _ List.mem_cons_self).1 rfl
      · exact added.elim
    apply List.pairwise_append.mpr ⟨List.pairwise_append.mpr ⟨pairwise_neutral before,
      derived.order placed, ?_⟩, pairwise_neutral after, ?_⟩
    · intro l member later _
      exact (before l member).before later
    · intro l member later last
      rcases List.mem_append.mp member with first | kept
      · exact (before l first).before later
      · exact (after later last).after (inner l kept)

/-- Fewer lexemes are in their places. -/
theorem Placed.sublist {ls kept : List Lexeme} (placed : Placed ls) (fewer : kept.Sublist ls) :
    Placed kept :=
  ⟨fun l member => placed.valid l (fewer.subset member), placed.order.sublist fewer⟩

/-- A digit is neutral. -/
theorem neutral_of_isDigit {c : Char} (digit : c.isDigit = true) : (Lexeme.char c).Neutral := by
  obtain ⟨unescaped, -, -, opens, closes⟩ := ne_of_free (isReserved_of_isDigit digit)
  exact ⟨unescaped, opens, closes⟩

/-- The digits of a number are neutral. -/
theorem neutral_digitLexemes {number : Nat} {l : Lexeme} (member : l ∈ digitLexemes number) :
    l.Neutral := by
  obtain ⟨c, inside, rfl⟩ := List.mem_map.mp member
  exact neutral_of_isDigit (Text.isDigit_of_mem_toString inside)

/-- Digits are lexemes of their own. -/
theorem lexemes_digits {digits : List Char} (each : digits.all Char.isDigit = true) :
    lexemes digits = digits.map .char := by
  have neutral : ∀ l ∈ digits.map Lexeme.char, l.Neutral := by
    intro l member
    obtain ⟨c, inside, rfl⟩ := List.mem_map.mp member
    exact neutral_of_isDigit (List.all_eq_true.mp each c inside)
  have placed : Placed (digits.map Lexeme.char) :=
    ⟨fun l member => (neutral l member).valid, pairwise_neutral neutral⟩
  have whole := lexemes_flatMap placed
  rwa [flatMap_chars_char] at whole

/-! ## Where numbering cuts a field -/

mutual

/-- The contents of the fields in a segment. -/
def Segment.fields : Segment → List (List Segment)
  | .text _ => []
  | .group segments =>
    (if isField .standard segments then [segments] else []) ++ Segment.fieldsAll segments

def Segment.fieldsAll : List Segment → List (List Segment)
  | [] => []
  | segment :: segments => segment.fields ++ Segment.fieldsAll segments

end

/-- The contents of the fields of a template. -/
def fieldsOf (text : String) : List (List Segment) :=
  match parse .standard text with
  | .ok segments => Segment.fieldsAll segments
  | .error _ => []

/-- The fields of a parsed text are those of its segments. -/
theorem fieldsOf_of_parse {text : String} {segments : List Segment}
    (parsed : parse .standard text = .ok segments) :
    fieldsOf text = Segment.fieldsAll segments := by
  rw [fieldsOf, parsed]

/-- Whether the marker at the end of a field is not escaped. -/
def markerCounts (segments : List Segment) : Bool :=
  match segments.getLast? with
  | some (.text chars) => [.char '!', .char 'f'].isSuffixOf (lexemes chars)
  | _ => false

/-- The lexeme with the colon that ends the name of a field. -/
def nameEnd? (segments : List Segment) : Option Lexeme :=
  (lexemes (leadingText segments)).find? (·.chars.contains ':')

/-- Opaque text. -/
def Lexeme.isRun : Lexeme → Bool
  | run _ => true
  | escaped _ | char _ | slash => false

/-- The front of a field is read without the marker. -/
theorem lexemes_front {front : List Char}
    (counts : [.char '!', .char 'f'] <:+ lexemes (front ++ ['!', 'f'])) :
    lexemes (front ++ ['!', 'f']) = lexemes front ++ [.char '!', .char 'f'] := by
  obtain ⟨ls, whole⟩ := counts
  have chars := flatMap_chars_lexemes (front ++ ['!', 'f'])
  rw [← whole, List.flatMap_append] at chars
  have same : ls.flatMap Lexeme.chars = front := List.append_cancel_right chars
  have placed := (placed_lexemes (front ++ ['!', 'f'])).sublist
    (whole ▸ List.sublist_append_left ls _)
  rw [← whole, ← same, lexemes_flatMap placed]

/-- What follows the name of a field is read without it. -/
theorem lexemes_preview {name preview : List Char} (absent : ':' ∉ name)
    (cuts : ∀ l, (lexemes (name ++ ':' :: preview)).find? (·.chars.contains ':') = some l →
      l.isRun = false) :
    (lexemes preview).Sublist (lexemes (name ++ ':' :: preview)) := by
  have chars := flatMap_chars_lexemes (name ++ ':' :: preview)
  have placed := placed_lexemes (name ++ ':' :: preview)
  cases found : (lexemes (name ++ ':' :: preview)).find? (·.chars.contains ':') with
  | none =>
      have member : ':' ∈ (lexemes (name ++ ':' :: preview)).flatMap Lexeme.chars := by
        rw [chars]
        simp
      obtain ⟨l, present, holds⟩ := List.mem_flatMap.mp member
      exact absurd (List.contains_iff_mem.mpr holds) (List.find?_eq_none.mp found l present)
  | some l =>
      have shape := cuts l found
      obtain ⟨holds, before, after, whole, earlier⟩ := List.find?_eq_some_iff_append.mp found
      rw [whole, List.flatMap_append, List.flatMap_cons] at chars
      have free : ':' ∉ before.flatMap Lexeme.chars := by
        intro member
        obtain ⟨other, present, inside⟩ := List.mem_flatMap.mp member
        simpa [inside] using earlier other present
      have same : after.flatMap Lexeme.chars = preview := by
        -- The first colon is that of the name, so what is behind it is the preview.
        have unique : ∀ {first : List Char}, ':' ∉ first →
            first ++ ':' :: after.flatMap Lexeme.chars = name ++ ':' :: preview →
              after.flatMap Lexeme.chars = preview := by
          intro first free equal
          have names := congrArg (List.takeWhile (· != ':')) equal
          rw [takeWhile_name free, takeWhile_name absent] at names
          subst names
          simpa using equal
        cases l with
        | char c =>
            have colon : c = ':' := by simpa [Lexeme.chars, eq_comm] using holds
            subst colon
            exact unique free chars
        | escaped c =>
            have colon : c = ':' := by simpa [Lexeme.chars, eq_comm] using holds
            subst colon
            have free' : ':' ∉ before.flatMap Lexeme.chars ++ ['\\'] := by simpa using free
            exact unique free' (by simpa [Lexeme.chars] using chars)
        -- Opaque text could hold the colon, but the field is not cut there.
        | run inner => simp [Lexeme.isRun] at shape
        | slash => simp [Lexeme.chars] at holds
      have fewer : after.Sublist (lexemes (name ++ ':' :: preview)) := by
        rw [whole]
        exact (List.sublist_cons_self l after).trans (List.sublist_append_right before _)
      have read := lexemes_flatMap (placed.sublist fewer)
      rw [same] at read
      rwa [read]

theorem Element.quietAll_append {first second : List Element} :
    QuietAll (first ++ second) ↔ QuietAll first ∧ QuietAll second := by
  induction first with
  | nil => simp [QuietAll]
  | cons element first ih => rw [List.cons_append, QuietAll, QuietAll, ih, and_assoc]

/-- Elements of which lexemes were taken away. -/
structure Shrunk (elements kept : List Element) : Prop where
  fewer : (Element.lexemesAll kept).Sublist (Element.lexemesAll elements)
  quiet : Element.QuietAll elements → Element.QuietAll kept

theorem Shrunk.trans {elements kept less : List Element} (first : Shrunk elements kept)
    (second : Shrunk kept less) : Shrunk elements less :=
  ⟨second.fewer.trans first.fewer, second.quiet ∘ first.quiet⟩

/-- Elements shrink if one of their texts loses lexemes. -/
theorem Shrunk.text (before after : List Element) {chars chars' : List Char}
    (fewer : (lexemes chars').Sublist (lexemes chars)) :
    Shrunk (before ++ .text chars :: after) (before ++ .text chars' :: after) where
  fewer := by
    simp only [Element.lexemesAll_append, Element.lexemesAll, Element.lexemes]
    exact (List.Sublist.refl _).append (fewer.append (List.Sublist.refl _))
  quiet quiet := by
    rw [Element.quietAll_append, Element.QuietAll] at quiet ⊢
    exact ⟨quiet.1, fun l member => quiet.2.1 l (fewer.subset member), quiet.2.2⟩

/-- Where marker and name are whole lexemes, the preview of a field is what is left. -/
theorem shrunk_preview (numbering : Numbering) {segments : List Segment}
    (field : isField .standard segments = true) (marker : markerCounts segments = true)
    (name : (nameEnd? segments).any Lexeme.isRun = false) :
    Shrunk (elements numbering segments).1
      (dropLeading (previewStart (leadingText segments))
        (dropMarker (elements numbering segments).1)) := by
  obtain ⟨before, front, rfl⟩ := isField_iff.mp field
  rw [markerCounts, List.getLast?_concat] at marker
  have last := lexemes_front (List.isSuffixOf_iff_suffix.mp marker)
  rw [elements_append_text, dropMarker_append]
  have unmarked : (lexemes front).Sublist (lexemes (front ++ ['!', 'f'])) := by
    rw [last]
    exact List.sublist_append_left _ _
  apply (Shrunk.text (elements numbering before).1 [] unmarked).trans
  by_cases colon : (leadingText (before ++ [.text (front ++ ['!', 'f'])])).contains ':'
  · obtain ⟨title, rest, absent, leading⟩ := exists_name colon
    obtain ⟨preview, others, first, origin⟩ := exists_named_text numbering absent leading
    rw [leading, previewStart_append absent, first, dropLeading, ← List.drop_drop, List.drop_left,
      List.drop_one, List.tail_cons]
    apply Shrunk.text []
    apply lexemes_preview absent
    intro l found
    rcases origin with ⟨rfl, rfl⟩ | rfl
    · rwa [nameEnd?, List.nil_append, leadingText, last, List.find?_append, found] at name
    · rwa [nameEnd?, leading, found] at name
  · rw [previewStart, if_neg colon, dropLeading_zero]
    exact ⟨List.Sublist.refl _, id⟩

mutual

/-- All braces that count belong to groups. -/
def Segment.Quiet : Segment → Prop
  | .text chars => QuietText chars
  | .group segments => Segment.QuietAll segments

def Segment.QuietAll : List Segment → Prop
  | [] => True
  | segment :: segments => segment.Quiet ∧ Segment.QuietAll segments

end

/-- Segments of quiet pieces are quiet. -/
theorem Segment.quietAll_of_pieces {segments : List Segment}
    (quiet : ∀ piece ∈ piecesAll segments, piece.Quiet) : Segment.QuietAll segments := by
  induction segments using segments_induction with
  | nil => trivial
  | text chars segments ih =>
      obtain ⟨first, rest⟩ := List.forall_mem_cons.mp quiet
      exact ⟨first, ih rest⟩
  | group inner segments inside ih =>
      simp only [piecesAll, Segment.pieces, List.cons_append, List.append_assoc] at quiet
      obtain ⟨-, both⟩ := List.forall_mem_cons.mp quiet
      obtain ⟨within, after⟩ := List.forall_mem_append.mp both
      exact ⟨inside within, ih (List.forall_mem_cons.mp after).2⟩

/-- Where numbering cuts the fields of a template between lexemes. -/
def CutsLexemes (fields : List (List Segment)) : Prop :=
  ∀ field ∈ fields, markerCounts field = true ∧ (nameEnd? field).any Lexeme.isRun = false

theorem CutsLexemes.of_append {first second : List (List Segment)}
    (cuts : CutsLexemes (first ++ second)) : CutsLexemes first ∧ CutsLexemes second :=
  List.forall_mem_append.mp cuts

/-- What becomes of a group, from what becomes of its content. -/
theorem derived_element {segments : List Segment} (numbering : Numbering)
    (cuts : CutsLexemes (Segment.group segments).fields)
    (inside : Derived (Segment.lexemesAll segments)
      (Element.lexemesAll (elements numbering segments).1))
    (quiet : Element.QuietAll (elements numbering segments).1) :
    Derived (Segment.group segments).lexemes
        ((Segment.group segments).element numbering).1.lexemes ∧
      ((Segment.group segments).element numbering).1.Quiet := by
  simp only [Segment.element, Segment.lexemes]
  split
  -- A field: its number and its colon are neutral, and its preview has lost lexemes only.
  case isTrue field =>
    rw [Segment.fields, if_pos field] at cuts
    obtain ⟨marker, name⟩ := (List.forall_mem_append.mp cuts).1 segments List.mem_cons_self
    have shrunk := shrunk_preview numbering field marker name
    refine ⟨?_, shrunk.quiet quiet⟩
    rw [Element.lexemes]
    have brace : ∀ l ∈ [Lexeme.char '\x7d'], l.Neutral := by simp [Lexeme.Neutral]
    have digits : ∀ l ∈ Lexeme.char '\x7b' :: digitLexemes
        (Numbering.numberFor (fieldKey (elements numbering segments).2
          (fieldName (leadingText segments))).2 (fieldKey (elements numbering segments).2
            (fieldName (leadingText segments))).1).1, l.Neutral :=
      List.forall_mem_cons.mpr ⟨by simp [Lexeme.Neutral], fun _ => neutral_digitLexemes⟩
    split
    case isTrue => exact (inside.sublist (List.nil_sublist _)).enclosed digits brace
    case isFalse =>
      have colon : ∀ l ∈ [Lexeme.char ':'], l.Neutral := by simp [Lexeme.Neutral]
      have whole := (inside.sublist shrunk.fewer).enclosed
        (List.forall_mem_append.mpr ⟨digits, colon⟩) brace
      simpa using whole
  split
  -- A numeral stays bare: its digits are neutral, so they are lexemes of their own.
  case isTrue numeral =>
    have each : (Element.writeAll (elements numbering segments).1).all Char.isDigit = true := by
      rw [(writeAll_elements segments numbering).1]
      simp only [Segment.isNumeral, Bool.and_eq_true] at numeral
      exact numeral.2
    have read := lexemes_digits each
    have neutral : ∀ l ∈ lexemes (Element.writeAll (elements numbering segments).1),
        l.Neutral := by
      intro l member
      rw [read] at member
      obtain ⟨c, present, rfl⟩ := List.mem_map.mp member
      exact neutral_of_isDigit (List.all_eq_true.mp each c present)
    constructor
    · rw [Element.lexemes]
      have nothing : ∀ l ∈ ([] : List Lexeme), l.Neutral := by simp
      have whole := (inside.sublist (List.nil_sublist _)).enclosed neutral nothing
      simpa using whole
    · intro l member
      rw [read] at member
      obtain ⟨c, present, rfl⟩ := List.mem_map.mp member
      obtain ⟨-, opens, closes, -⟩ :=
        ne_of_free (isReserved_of_isDigit (List.all_eq_true.mp each c present))
      exact isText_char opens closes
  case isFalse =>
    refine ⟨?_, quiet⟩
    have escaped : ∀ c, ∀ l ∈ [Lexeme.escaped c], l.Neutral := by simp [Lexeme.Neutral]
    exact inside.enclosed (escaped '\x7b') (escaped '\x7d')

/-- The outline of a template derives from it. -/
theorem derived_elements {segments : List Segment} (numbering : Numbering)
    (cuts : CutsLexemes (Segment.fieldsAll segments)) (quiet : Segment.QuietAll segments) :
    Derived (Segment.lexemesAll segments) (Element.lexemesAll (elements numbering segments).1) ∧
      Element.QuietAll (elements numbering segments).1 := by
  induction segments using segments_induction generalizing numbering with
  | nil => exact ⟨.refl [], trivial⟩
  | text chars segments ih =>
      obtain ⟨derived, rest⟩ := ih numbering cuts quiet.2
      exact ⟨(Derived.refl (lexemes chars)).append derived, quiet.1, rest⟩
  | group inner segments inside ih =>
      obtain ⟨here, later⟩ := CutsLexemes.of_append cuts
      have within : CutsLexemes (Segment.fieldsAll inner) := (CutsLexemes.of_append here).2
      obtain ⟨derived, calm⟩ := inside numbering within quiet.1
      obtain ⟨first, own⟩ := derived_element numbering here derived calm
      obtain ⟨others, rest⟩ := ih ((Segment.group inner).element numbering).2 later quiet.2
      exact ⟨first.append others, own, rest⟩

/-! ## The two passes -/

/-- The numbered text of a parsed one writes its numbered elements. -/
theorem number_eq {text : String} {segments : List Segment}
    (parsed : parse .standard text = .ok segments) :
    number .standard text =
      .ok (String.ofList (Element.writeAll (elements .empty segments).1)) := by
  rw [number_of_parse parsed, numberAll_eq]

/-- A numbered template is read as the outline of the template. -/
theorem parse_elements {text : String} {segments : List Segment}
    (parsed : parse .standard text = .ok segments)
    (cuts : CutsLexemes (Segment.fieldsAll segments)) :
    Placed (Element.lexemesAll (elements .empty segments).1) ∧
      parse .standard (String.ofList (Element.writeAll (elements .empty segments).1)) =
        .ok (Element.segmentsAll [] (elements .empty segments).1) := by
  have quiet : Segment.QuietAll segments := by
    apply Segment.quietAll_of_pieces
    rw [piecesAll_of_parse parsed]
    exact (foldr_place_lexemes (placed_lexemes text.toList)).2
  obtain ⟨derived, calm⟩ := derived_elements .empty cuts quiet
  have placed := derived.placed (lexemesAll_of_parse parsed ▸ placed_lexemes text.toList)
  exact ⟨placed, parse_writeAll placed calm⟩

/-- A text that is numbered is parsed. -/
theorem parse_of_number {text numbered : String} (done : number .standard text = .ok numbered) :
    ∃ segments, parse .standard text = .ok segments := by
  cases parsed : parse .standard text with
  | ok segments => exact ⟨segments, rfl⟩
  | error fault =>
      rw [number, build_eq, parsed] at done
      cases done

/-- **Composition.** A template whose numbering cuts fields between lexemes, neither behind a
backslash nor inside opaque text, can be turned into a snippet once it is numbered. -/
theorem convert_number {text numbered : String} (done : number .standard text = .ok numbered)
    (markers : ∀ field ∈ fieldsOf text, markerCounts field = true)
    (names : ∀ field ∈ fieldsOf text, (nameEnd? field).any Lexeme.isRun = false) :
    ∃ snippet, convert .standard numbered = .ok snippet := by
  obtain ⟨segments, parsed⟩ := parse_of_number done
  rw [fieldsOf_of_parse parsed] at markers names
  rw [number_eq parsed] at done
  cases done
  obtain ⟨-, read⟩ := parse_elements parsed fun field member =>
    ⟨markers field member, names field member⟩
  exact ⟨_, convert_of_parse read⟩

/-- A field with another one in its preview, numbered and converted. -/
theorem convert_number_nested :
    let text := "\x7bn:a \x7b<b\x7b>!f\x7d \x7b7\x7d\x7bx\x7d \\\x7b!f\x7d < \x7b:c!f\x7d"
    let numbered := "\x7b2:a \x7b1:<b\x7b>\x7d 7\\\x7bx\\\x7d \\\x7b\x7d < \x7b3:c\x7d"
    number .standard text = .ok numbered ∧
      (∀ field ∈ fieldsOf text, markerCounts field = true) ∧
      (∀ field ∈ fieldsOf text, (nameEnd? field).any Lexeme.isRun = false) ∧
      ∃ snippet, convert .standard numbered = .ok snippet := by
  intro text numbered
  let segments : List Segment :=
    [.group [.text ['n', ':', 'a', ' '], .group [.text ['<', 'b', '\x7b', '>', '!', 'f']],
        .text [' '], .group [.text ['7']], .group [.text ['x']],
        .text [' ', '\\', '\x7b', '!', 'f']],
      .text [' ', '<', ' '], .group [.text [':', 'c', '!', 'f']]]
  have parsed : parse .standard text = .ok segments := by cbv
  have done : number .standard text = .ok numbered := by
    rw [number_of_parse parsed]
    exact congrArg Except.ok (by decide +kernel)
  have each : ∀ field ∈ fieldsOf text,
      (markerCounts field && !(nameEnd? field).any Lexeme.isRun) = true := by
    rw [fieldsOf_of_parse parsed]
    exact List.all_eq_true.mp (by cbv)
  simp only [Bool.and_eq_true, Bool.not_eq_true'] at each
  have markers : ∀ field ∈ fieldsOf text, markerCounts field = true :=
    fun field member => (each field member).1
  have names : ∀ field ∈ fieldsOf text, (nameEnd? field).any Lexeme.isRun = false :=
    fun field member => (each field member).2
  exact ⟨done, markers, names, convert_number done markers names⟩

/-- An escaped marker still makes a field, and the backslash before it then hides the brace
that closes the numbered field. -/
theorem convert_number_escaped_marker :
    number .standard "\x7b\\!f\x7d" = .ok "\x7b1:\\\x7d" ∧
      convert .standard "\x7b1:\\\x7d" = .error (malformed "unclosed `\x7b`" 0) := by
  constructor
  · cbv
  · cbv

end Template

end DocSketch
