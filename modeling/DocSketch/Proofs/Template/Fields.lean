import DocSketch.Proofs.Template.Escaping
import DocSketch.Proofs.Text.Ascii
import Mathlib.Data.List.TakeWhile

/-!
# Templates of texts and fields

A template whose groups are all fields, and whose texts and previews stand for themselves,
can be read and numbered, and the numbered template can be read and turned into a
snippet.  The fields get the numbers from one on, and the previews come through.

* `Template.Caption`: a text and a way to write it.
* `Template.Block`: a text, or a group that holds nothing but text.
* `Template.parse_writeBlocks`: blocks are read back.
* `Template.Part`: a text, or a field that shows a preview.
* `Template.number_parts`, `Template.convert_parts`: the two passes over a template.
-/

namespace DocSketch

namespace Template

/-- A text and a way to write it in a template. -/
structure Caption where
  written : List Char
  plain : List Char
  shows : Shows written plain

namespace Caption

def append (first second : Caption) : Caption :=
  ⟨first.written ++ second.written, first.plain ++ second.plain, first.shows.append second.shows⟩

/-- A text in which nothing has a meaning. -/
def ofFree (cs : List Char) (free : Unreserved cs) : Caption :=
  ⟨cs, cs, .of_free free⟩

end Caption

/-- Text, or a group that holds nothing but text. -/
inductive Block where
  | text (caption : Caption)
  | group (content : Caption)

def Block.write : Block → List Char
  | text caption => caption.written
  | group content => '\x7b' :: content.written ++ ['\x7d']

def writeBlocks (blocks : List Block) : List Char := blocks.flatMap Block.write

/-- Puts text before segments; text before text becomes one segment. -/
def prependPlain (chars : List Char) (segments : List Segment) : List Segment :=
  if chars.isEmpty then segments
  else
    match segments with
    | .text others :: later => .text (chars ++ others) :: later
    | segments => .text chars :: segments

/-- The segments that blocks amount to. -/
def segmentsOf : List Block → List Segment
  | [] => []
  | .text caption :: blocks => prependPlain caption.written (segmentsOf blocks)
  | .group content :: blocks => .group (prependPlain content.written []) :: segmentsOf blocks

mutual

def Segment.pieces : Segment → List Piece
  | .text chars => [.text chars]
  | .group segments => .opening :: (piecesAll segments ++ [.closing])

def piecesAll : List Segment → List Piece
  | [] => []
  | segment :: segments => segment.pieces ++ piecesAll segments

end

mutual

/-- The pieces of a segment are nested to the segment. -/
theorem Segment.nest_pieces : ∀ (segment : Segment) (offset : Nat) (current : List Segment)
    (outer : List (Nat × List Segment)) (rest : List Piece),
    ∃ later, nest offset current outer (segment.pieces ++ rest) =
      nest later (segment :: current) outer rest
  | .text chars, offset, current, outer, rest => ⟨_, rfl⟩
  | .group segments, offset, current, outer, rest => by
      obtain ⟨later, inside⟩ :=
        nest_piecesAll segments (offset + 1) [] ((offset, current) :: outer) (.closing :: rest)
      refine ⟨later + 1, ?_⟩
      rw [Segment.pieces, List.cons_append, List.append_assoc, List.singleton_append, nest, inside,
        nest, List.append_nil, List.reverse_reverse]

/-- The pieces of segments are nested to the segments. -/
theorem nest_piecesAll : ∀ (segments : List Segment) (offset : Nat) (current : List Segment)
    (outer : List (Nat × List Segment)) (rest : List Piece),
    ∃ later, nest offset current outer (piecesAll segments ++ rest) =
      nest later (segments.reverse ++ current) outer rest
  | [], offset, current, outer, rest => ⟨offset, rfl⟩
  | segment :: segments, offset, current, outer, rest => by
      obtain ⟨middle, first⟩ :=
        segment.nest_pieces offset current outer (piecesAll segments ++ rest)
      obtain ⟨later, others⟩ := nest_piecesAll segments middle (segment :: current) outer rest
      refine ⟨later, ?_⟩
      rw [piecesAll, List.append_assoc, first, others, List.reverse_cons, List.append_assoc,
        List.singleton_append]

end

/-- Text before segments is hidden text before their pieces. -/
theorem piecesAll_prependPlain (chars : List Char) (segments : List Segment) :
    piecesAll (prependPlain chars segments) = hide chars (piecesAll segments) := by
  unfold prependPlain hide
  split
  · rfl
  · cases segments with
    | nil => rfl
    | cons segment later =>
        cases segment with
        | text others => rfl
        | group inner => rfl

/-- Text before a closing brace is a piece of its own. -/
theorem hide_closing (chars : List Char) (pieces : List Piece) :
    hide chars (.closing :: pieces) = hide chars [] ++ .closing :: pieces := by
  unfold hide
  split <;> rfl

/-- Written blocks are cut into the pieces of their segments. -/
theorem cut_writeBlocks : ∀ blocks : List Block,
    cut .standard (writeBlocks blocks) = piecesAll (segmentsOf blocks)
  | [] => by
      rw [writeBlocks, List.flatMap_nil, cut]
      rfl
  | .text caption :: blocks => by
      rw [writeBlocks, List.flatMap_cons, Block.write, caption.shows.cut_append, segmentsOf,
        piecesAll_prependPlain, ← cut_writeBlocks blocks, writeBlocks]
  | .group content :: blocks => by
      have closed : cut .standard ('\x7d' :: writeBlocks blocks) =
          .closing :: piecesAll (segmentsOf blocks) := by
        rw [cut, opaqueLength_of_ne (by decide), cut_writeBlocks blocks]
        rfl
      have opened : cut .standard ('\x7b' :: (content.written ++ '\x7d' :: writeBlocks blocks)) =
          .opening :: hide content.written (.closing :: piecesAll (segmentsOf blocks)) := by
        rw [cut, opaqueLength_of_ne (by decide), content.shows.cut_append, closed]
        rfl
      rw [writeBlocks, List.flatMap_cons, Block.write, List.cons_append, List.cons_append,
        List.append_assoc, List.singleton_append, ← writeBlocks, opened, segmentsOf, piecesAll,
        Segment.pieces, piecesAll_prependPlain, hide_closing, List.cons_append, List.append_assoc]
      rfl

/-- Blocks are read back from how they are written. -/
theorem parse_writeBlocks (blocks : List Block) :
    parse .standard (String.ofList (writeBlocks blocks)) = .ok (segmentsOf blocks) := by
  obtain ⟨later, nested⟩ := nest_piecesAll (segmentsOf blocks) 0 [] [] []
  rw [List.append_nil, List.append_nil] at nested
  rw [parse, String.toList_ofList, cut_writeBlocks, nested, nest]
  simp only [List.getLast?_nil, List.reverse_reverse]

/-- Text, or a field that shows a preview; an empty preview is none. -/
inductive Part where
  | text (caption : Caption)
  | field (preview : Caption)

def markCaption : Caption := .ofFree ['!', 'f'] (by decide)

def colonCaption : Caption := .ofFree [':'] (by decide)

/-- A digit is not reserved. -/
theorem isReserved_of_isDigit {c : Char} (digit : c.isDigit = true) : isReserved c = false := by
  simp only [isReserved, List.contains_eq_mem, decide_eq_false_iff_not]
  intro member
  simp only [List.mem_cons, List.not_mem_nil, or_false] at member
  obtain rfl | rfl | rfl | rfl | rfl := member <;> exact absurd digit (by decide)

def digitsCaption (n : Nat) : Caption :=
  .ofFree (toString n).toList fun _ member =>
    isReserved_of_isDigit (Text.isDigit_of_mem_toString member)

/-- What a field with the given preview holds. -/
def fieldContent (preview : Caption) : Caption :=
  if preview.written.isEmpty then markCaption
  else (colonCaption.append preview).append markCaption

/-- What a numbered field with the given preview holds. -/
def numberedContent (n : Nat) (preview : Caption) : Caption :=
  if preview.written.isEmpty then digitsCaption n
  else ((digitsCaption n).append colonCaption).append preview

/-- A part of a template. -/
def Part.block : Part → Block
  | text caption => .text caption
  | field preview => .group (fieldContent preview)

/-- Parts of a numbered template whose first field has the number `n`. -/
def numberedBlocks : Nat → List Part → List Block
  | _, [] => []
  | n, .text caption :: parts => .text caption :: numberedBlocks n parts
  | n, .field preview :: parts => .group (numberedContent n preview) :: numberedBlocks (n + 1) parts

/-- The numbers of `count` fields without a name. -/
def numberedUpTo : Nat → Numbering
  | 0 => .empty
  | count + 1 =>
    ⟨(.anonymous (count + 1), count + 1) :: (numberedUpTo count).numbers, count + 1⟩

/-- As many keys have been made as there are numbers. -/
theorem minted_numberedUpTo (count : Nat) : (numberedUpTo count).minted = count := by
  cases count <;> rfl

/-- The highest number is that of the last field. -/
theorem highest_numberedUpTo (count : Nat) : (numberedUpTo count).highest = count := by
  induction count with
  | zero => rfl
  | succ count ih =>
      have below : (numberedUpTo count).numbers.foldr (fun entry bound => max entry.2 bound) 0 =
          count := ih
      simp only [numberedUpTo, Numbering.highest, List.foldr_cons, below]
      exact Nat.max_eq_left (Nat.le_succ count)

/-- A key that was not yet made has no number. -/
theorem lookup_numberedUpTo {count id : Nat} (above : count < id) :
    (numberedUpTo count).numbers.lookup (.anonymous id) = none := by
  induction count with
  | zero => rfl
  | succ count ih =>
      have other : (FieldKey.anonymous id == FieldKey.anonymous (count + 1)) = false := by
        simpa using Nat.ne_of_gt above
      rw [numberedUpTo, List.lookup_cons, other]
      exact ih (Nat.lt_of_succ_lt above)

/-- A field without a name gets the next number. -/
theorem numberFor_unnamed (count : Nat) :
    (fieldKey (numberedUpTo count) []).2.numberFor (fieldKey (numberedUpTo count) []).1 =
      (count + 1, numberedUpTo (count + 1)) := by
  have minted := minted_numberedUpTo count
  have key : fieldKey (numberedUpTo count) [] =
      (.anonymous (count + 1), ⟨(numberedUpTo count).numbers, count + 1⟩) := by
    simp only [fieldKey, Text.trim, Text.trimEnd, List.dropWhile_nil, List.reverse_nil,
      List.isEmpty_nil, ↓reduceIte, Numbering.mint, minted]
  have highest : Numbering.highest ⟨(numberedUpTo count).numbers, count + 1⟩ = count :=
    highest_numberedUpTo count
  rw [key]
  simp only [Numbering.numberFor, lookup_numberedUpTo (Nat.lt_succ_self count), highest,
    numberedUpTo]

theorem stripEnd?_append (front stop : List Char) :
    Text.stripEnd? stop (front ++ stop) = some front := by
  have ends : stop.isSuffixOf (front ++ stop) = true :=
    List.isSuffixOf_iff_suffix.mpr (List.suffix_append front stop)
  simp only [Text.stripEnd?, ends, ↓reduceIte, List.length_append, Nat.add_sub_cancel,
    List.take_left]

/-- A field without a name is written with its number. -/
theorem numberField_unnamed {content body preview : List Char} (count : Nat)
    (marked : content = body ++ ['!', 'f']) (unnamed : splitName content body = ([], preview)) :
    numberField .standard (numberedUpTo count) content content =
      (writeField (count + 1) preview, numberedUpTo (count + 1)) := by
  have stripped : Text.stripEnd? TemplateOptions.standard.fieldMarker.toList content =
      some body := marked ▸ stripEnd?_append body ['!', 'f']
  simp only [numberField, stripped, Option.getD_some, unnamed, numberFor_unnamed]

/-- The content of a field is its preview behind a colon, and the marker. -/
theorem fieldContent_written (preview : Caption) :
    (fieldContent preview).written =
      (if preview.written.isEmpty then [] else ':' :: preview.written) ++ ['!', 'f'] := by
  unfold fieldContent
  split <;> rfl

/-- The content of a field is written with its number. -/
theorem numberField_content (count : Nat) (preview : Caption) :
    numberField .standard (numberedUpTo count) (fieldContent preview).written
        (fieldContent preview).written =
      ((Block.group (numberedContent (count + 1) preview)).write, numberedUpTo (count + 1)) := by
  have content := fieldContent_written preview
  by_cases blank : preview.written.isEmpty
  · rw [if_pos blank] at content
    have unnamed : splitName ([] ++ ['!', 'f']) [] = ([], []) := by decide
    rw [numberField_unnamed count content (content ▸ unnamed)]
    simp only [Block.write, numberedContent, blank, ↓reduceIte]
    rfl
  · rw [if_neg blank] at content
    have unnamed : splitName (':' :: preview.written ++ ['!', 'f']) (':' :: preview.written) =
        ([], preview.written) := by
      simp [splitName]
    rw [numberField_unnamed count content (content ▸ unnamed)]
    simp only [writeField, Block.write, numberedContent, blank]
    rfl

theorem prependPlain_fieldContent (preview : Caption) :
    prependPlain (fieldContent preview).written [] = [.text (fieldContent preview).written] := by
  have some : (fieldContent preview).written.isEmpty = false := by
    simp only [fieldContent_written, List.isEmpty_eq_false_iff, ne_eq, List.append_eq_nil_iff,
      reduceCtorEq, and_false, not_false_eq_true]
  simp only [prependPlain, some, Bool.false_eq_true, ↓reduceIte]

/-- The content of a field makes one. -/
theorem isField_content (preview : Caption) :
    isField .standard [.text (fieldContent preview).written] = true := by
  have ends : ['!', 'f'] <:+ (fieldContent preview).written := by
    rw [fieldContent_written]
    exact List.suffix_append _ _
  exact List.isSuffixOf_iff_suffix.mpr ends

/-- A field is written with its number. -/
theorem number_field (count : Nat) (preview : Caption) :
    (Segment.group (prependPlain (fieldContent preview).written [])).number .standard
        (numberedUpTo count) =
      ((Block.group (numberedContent (count + 1) preview)).write, numberedUpTo (count + 1)) := by
  rw [prependPlain_fieldContent]
  simp only [Segment.number, numberAll, List.append_nil, isField_content, ↓reduceIte, leadingText,
    numberField_content]

theorem numberAll_prependPlain (options : TemplateOptions) (numbering : Numbering)
    (chars : List Char) (segments : List Segment) :
    numberAll options numbering (prependPlain chars segments) =
      (chars ++ (numberAll options numbering segments).1,
        (numberAll options numbering segments).2) := by
  unfold prependPlain
  split
  case isTrue empty =>
    rw [List.isEmpty_iff.mp empty]
    rfl
  case isFalse =>
    cases segments with
    | nil => rfl
    | cons segment later =>
        cases segment with
        | text others => simp only [numberAll, Segment.number, List.append_assoc]
        | group inner => rfl

/-- Parts are numbered from the next number on. -/
theorem numberAll_parts : ∀ (parts : List Part) (count : Nat),
    (numberAll .standard (numberedUpTo count) (segmentsOf (parts.map Part.block))).1 =
      writeBlocks (numberedBlocks (count + 1) parts)
  | [], count => rfl
  | .text caption :: parts, count => by
      rw [List.map_cons, Part.block, segmentsOf, numberAll_prependPlain,
        numberAll_parts parts count]
      rfl
  | .field preview :: parts, count => by
      rw [List.map_cons, Part.block, segmentsOf, numberAll]
      simp only [number_field, numberAll_parts parts (count + 1)]
      rfl

/-- Numbering a template gives its fields the numbers from one on. -/
theorem number_parts (parts : List Part) :
    number .standard (String.ofList (writeBlocks (parts.map Part.block))) =
      .ok (String.ofList (writeBlocks (numberedBlocks 1 parts))) := by
  rw [number_of_parse (parse_writeBlocks _), ← numberAll_parts parts 0]
  rfl

/-- A tab stop with the given preview; an empty preview is none. -/
def writeStop (n : Nat) (preview : List Char) : List Char :=
  if preview.isEmpty then '$' :: (toString n).toList
  else ['$', '\x7b'] ++ (toString n).toList ++ [':'] ++ preview.flatMap snippetChar ++ ['\x7d']

/-- The snippet of parts whose first field has the number `n`. -/
def snippetOf : Nat → List Part → List Char
  | _, [] => []
  | n, .text caption :: parts => caption.plain.flatMap snippetChar ++ snippetOf n parts
  | n, .field preview :: parts => writeStop n preview.plain ++ snippetOf (n + 1) parts

/-- Text before segments is converted before them. -/
theorem convertAll_prependPlain (caption : Caption) (segments : List Segment) :
    convertAll (prependPlain caption.written segments) =
      caption.plain.flatMap snippetChar ++ convertAll segments := by
  unfold prependPlain
  split
  case isTrue empty =>
    rw [caption.shows.plain_eq_nil.mpr (List.isEmpty_iff.mp empty)]
    rfl
  case isFalse =>
    have whole := caption.shows.literalSnippet_eq
    cases segments with
    | nil => simp only [convertAll, Segment.convert, whole]
    | cons segment later =>
        cases segment with
        | text others =>
            simp only [convertAll, Segment.convert, caption.shows.literalSnippet_append,
              List.append_assoc]
        | group inner => rw [convertAll, Segment.convert, whole]

/-- A group of digits is a stop, and with a colon behind them it has a preview. -/
theorem groupForm_digits {digits : List Char} (isWhole : Bool) (some : digits ≠ [])
    (each : ∀ c ∈ digits, c.isDigit = true) :
    groupForm digits true = .stop digits ∧
      ∀ rest, groupForm (digits ++ ':' :: rest) isWhole = .preview digits rest := by
  have nonempty : digits.isEmpty = false := List.isEmpty_eq_false_iff.mpr some
  constructor
  · have taken : digits.takeWhile Char.isDigit = digits := List.takeWhile_eq_self_iff.mpr each
    have dropped : digits.dropWhile Char.isDigit = [] := List.dropWhile_eq_nil_iff.mpr each
    simp only [groupForm, taken, dropped, nonempty, Bool.false_eq_true, ↓reduceIte]
  · intro rest
    have taken : (digits ++ ':' :: rest).takeWhile Char.isDigit = digits := by
      rw [List.takeWhile_append_of_pos each]
      exact List.append_nil digits
    have dropped : (digits ++ ':' :: rest).dropWhile Char.isDigit = ':' :: rest := by
      rw [List.dropWhile_append_of_pos each]
      rfl
    simp only [groupForm, taken, dropped, nonempty, Bool.false_eq_true, ↓reduceIte]

theorem toString_toList_ne_nil (n : Nat) : (toString n).toList ≠ [] := by
  rw [Nat.toString_eq_ofList_toDigits, String.toList_ofList]
  exact Nat.toDigits_ne_nil

/-- A numbered field is converted to its tab stop. -/
theorem convert_field (n : Nat) (preview : Caption) :
    (Segment.group (prependPlain (numberedContent n preview).written [])).convert =
      writeStop n preview.plain := by
  obtain ⟨alone, before⟩ := groupForm_digits true (toString_toList_ne_nil n)
    fun _ => Text.isDigit_of_mem_toString
  have some := toString_toList_ne_nil n
  by_cases blank : preview.written.isEmpty
  · have empty := preview.shows.plain_eq_nil.mpr (List.isEmpty_iff.mp blank)
    have content : (numberedContent n preview).written = (toString n).toList := by
      simp only [numberedContent, blank, ↓reduceIte]
      rfl
    have segments : prependPlain (toString n).toList [] = [.text (toString n).toList] := by
      simp only [prependPlain, List.isEmpty_iff, some, ↓reduceIte]
    rw [content, segments, Segment.convert, List.isEmpty_nil, alone, empty]
    rfl
  · have shown : preview.plain.isEmpty = false :=
      List.isEmpty_eq_false_iff.mpr fun empty =>
        blank (List.isEmpty_iff.mpr (preview.shows.plain_eq_nil.mp empty))
    have content : (numberedContent n preview).written =
        (toString n).toList ++ ':' :: preview.written := by
      simp only [numberedContent, blank]
      simp [Caption.append, digitsCaption, colonCaption, Caption.ofFree]
    have segments : prependPlain ((toString n).toList ++ ':' :: preview.written) [] =
        [.text ((toString n).toList ++ ':' :: preview.written)] := by
      simp only [prependPlain, List.isEmpty_iff, List.append_eq_nil_iff, reduceCtorEq, and_false,
        ↓reduceIte]
    rw [content, segments, Segment.convert, List.isEmpty_nil, before]
    simp only [preview.shows.literalSnippet_eq, convertAll, List.append_nil, writeStop, shown,
      Bool.false_eq_true, ↓reduceIte]

/-- Numbered parts are converted to their snippet. -/
theorem convertAll_parts : ∀ (parts : List Part) (n : Nat),
    convertAll (segmentsOf (numberedBlocks n parts)) = snippetOf n parts
  | [], n => rfl
  | .text caption :: parts, n => by
      rw [numberedBlocks, segmentsOf, convertAll_prependPlain, convertAll_parts parts n]
      rfl
  | .field preview :: parts, n => by
      rw [numberedBlocks, segmentsOf, convertAll, convert_field, convertAll_parts parts (n + 1)]
      rfl

/-- Converting a numbered template makes tab stops of its fields. -/
theorem convert_parts (parts : List Part) (n : Nat) :
    convert .standard (String.ofList (writeBlocks (numberedBlocks n parts))) =
      .ok (String.ofList (snippetOf n parts)) := by
  rw [convert_of_parse (parse_writeBlocks _), convertAll_parts]

end Template

end DocSketch
