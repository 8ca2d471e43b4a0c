import DocSketch.Proofs.Template.Fields

/-!
# Outline of a numbered template

What numbering makes of a template, as a tree: texts, fields with their numbers and previews,
and groups that are no fields.  A group that holds a number and nothing else is text.

* `Template.Element`: a part of a numbered template.
* `Template.elements`: the outline of a template.
* `Template.numberAll_eq`: numbering writes the outline.
-/

namespace DocSketch

namespace Template

/-- A part of a numbered template. -/
inductive Element where
  /-- Text as it is written in a template. -/
  | text (chars : List Char)
  | field (number : Nat) (preview : List Element)
  /-- A group that is no field. -/
  | braces (content : List Element)
deriving Repr, Inhabited

/-- What holds of elements if it holds of those inside their first one and of those after it
holds of all. -/
theorem elements_induction {P : List Element → Prop} (nil : P [])
    (text : ∀ chars elements, P elements → P (.text chars :: elements))
    (field : ∀ number preview elements, P preview → P elements →
      P (.field number preview :: elements))
    (braces : ∀ content elements, P content → P elements → P (.braces content :: elements))
    (elements : List Element) : P elements :=
  @Element.rec_1 (fun element => ∀ elements, P elements → P (element :: elements)) P
    text (fun number preview inside elements rest => field number preview elements inside rest)
    (fun content inside elements rest => braces content elements inside rest) nil
    (fun _ elements first rest => first elements rest) elements

mutual

/-- How numbering writes an element. -/
def Element.write : Element → List Char
  | .text chars => chars
  | .field number preview => writeField number (Element.writeAll preview)
  | .braces content => ['\\', '\x7b'] ++ Element.writeAll content ++ ['\\', '\x7d']

def Element.writeAll : List Element → List Char
  | [] => []
  | element :: elements => element.write ++ Element.writeAll elements

end

mutual

/-- Whether a segment is digits, possibly in braces. -/
def Segment.isNumeral : Segment → Bool
  | .text chars => chars.all Char.isDigit
  | .group segments => !(writeAll segments).isEmpty && isNumeralAll segments

def isNumeralAll : List Segment → Bool
  | [] => true
  | segment :: segments => segment.isNumeral && isNumeralAll segments

end

/-- The name of a field that starts with `leading`, empty if there is none. -/
def fieldName (leading : List Char) : List Char :=
  if leading.contains ':' then leading.takeWhile (· != ':') else []

/-- Where the preview of a field that starts with `leading` begins. -/
def previewStart (leading : List Char) : Nat :=
  if leading.contains ':' then (leading.takeWhile (· != ':')).length + 1 else 0

/-- Elements without the first `count` characters of the text that they start with. -/
def dropLeading (count : Nat) : List Element → List Element
  | .text chars :: elements => .text (chars.drop count) :: elements
  | elements => elements

/-- Elements without the marker at the end of the text that they end with. -/
def dropMarker (elements : List Element) : List Element :=
  match elements.getLast? with
  | some (.text chars) => elements.dropLast ++ [.text (chars.take (chars.length - 2))]
  | _ => elements

mutual

/-- What a segment becomes by numbering. -/
def Segment.element (numbering : Numbering) : Segment → Element × Numbering
  | .text chars => (.text chars, numbering)
  | .group segments =>
    let (inside, inner) := elements numbering segments
    if isField .standard segments then
      let (key, minted) := fieldKey inner (fieldName (leadingText segments))
      let (number, used) := minted.numberFor key
      (.field number (dropLeading (previewStart (leadingText segments)) (dropMarker inside)), used)
    else if (Segment.group segments).isNumeral then
      (.text (Element.writeAll inside), inner)
    else
      (.braces inside, inner)

/-- What segments become by numbering, from left to right. -/
def elements (numbering : Numbering) : List Segment → List Element × Numbering
  | [] => ([], numbering)
  | segment :: segments =>
    let (first, used) := segment.element numbering
    let (others, final) := elements used segments
    (first :: others, final)

end

theorem Element.writeAll_append (first second : List Element) :
    Element.writeAll (first ++ second) = Element.writeAll first ++ Element.writeAll second := by
  induction first with
  | nil => rfl
  | cons element first ih => rw [List.cons_append, writeAll, writeAll, ih, List.append_assoc]

/-- A text is an element and takes no number. -/
theorem elements_text (numbering : Numbering) (chars : List Char) (segments : List Segment) :
    elements numbering (.text chars :: segments) =
      (.text chars :: (elements numbering segments).1, (elements numbering segments).2) := rfl

theorem elements_cons (numbering : Numbering) (segment : Segment) (segments : List Segment) :
    elements numbering (segment :: segments) =
      ((segment.element numbering).1 :: (elements (segment.element numbering).2 segments).1,
        (elements (segment.element numbering).2 segments).2) := rfl

/-- Segments that end with text become elements that end with it. -/
theorem elements_append_text (numbering : Numbering) (segments : List Segment)
    (chars : List Char) :
    elements numbering (segments ++ [.text chars]) =
      ((elements numbering segments).1 ++ [.text chars], (elements numbering segments).2) := by
  induction segments generalizing numbering with
  | nil => rfl
  | cons segment segments ih => rw [List.cons_append, elements_cons, ih, elements_cons,
      List.cons_append]

/-- The marker is dropped from the last text. -/
theorem dropMarker_append (elements : List Element) (front : List Char) :
    dropMarker (elements ++ [.text (front ++ ['!', 'f'])]) = elements ++ [.text front] := by
  simp [dropMarker]

/-- A field ends with text that ends with the marker. -/
theorem isField_iff {segments : List Segment} :
    isField .standard segments = true ↔
      ∃ before front, segments = before ++ [.text (front ++ ['!', 'f'])] := by
  unfold isField
  constructor
  · intro field
    split at field
    case h_1 chars last =>
      obtain ⟨before, rfl⟩ := List.getLast?_eq_some_iff.mp last
      obtain ⟨front, rfl⟩ := List.isSuffixOf_iff_suffix.mp field
      exact ⟨before, front, rfl⟩
    case h_2 => exact absurd field (by simp)
  · rintro ⟨before, front, rfl⟩
    rw [List.getLast?_concat]
    exact List.isSuffixOf_iff_suffix.mpr (List.suffix_append front _)

/-! ## Names -/

/-- A text with a colon starts with a name. -/
theorem exists_name {leading : List Char} (colon : leading.contains ':' = true) :
    ∃ name rest, ':' ∉ name ∧ leading = name ++ ':' :: rest := by
  obtain ⟨name, rest, whole, absent⟩ :=
    List.eq_append_cons_of_mem (List.contains_iff_mem.mp colon)
  exact ⟨name, rest, absent, whole⟩

/-- A name ends before the first colon. -/
theorem takeWhile_name {name : List Char} (absent : ':' ∉ name) (rest : List Char) :
    (name ++ ':' :: rest).takeWhile (· != ':') = name := by
  have each : ∀ c ∈ name, (c != ':') = true := by
    intro c member
    simpa using ne_of_mem_of_not_mem member absent
  rw [List.takeWhile_append_of_pos each]
  simp

/-- The name of a field is what stands before its first colon. -/
theorem fieldName_append {name : List Char} (absent : ':' ∉ name) (rest : List Char) :
    fieldName (name ++ ':' :: rest) = name := by
  rw [fieldName, if_pos (by simp), takeWhile_name absent]

/-- The preview of a field starts behind its first colon. -/
theorem previewStart_append {name : List Char} (absent : ':' ∉ name) (rest : List Char) :
    previewStart (name ++ ':' :: rest) = name.length + 1 := by
  rw [previewStart, if_pos (by simp), takeWhile_name absent]

/-- A field is split at its first colon. -/
theorem splitName_append {name : List Char} (absent : ':' ∉ name) (rest preview : List Char) :
    splitName (name ++ ':' :: rest) (name ++ ':' :: preview) = (name, preview) := by
  rw [splitName, if_pos (by simp), takeWhile_name absent]
  simp [← List.drop_drop]

theorem dropLeading_zero (elements : List Element) : dropLeading 0 elements = elements := by
  cases elements with
  | nil => rfl
  | cons element elements =>
      cases element with
      | text chars => rfl
      | field | braces => rfl

/-- The elements in a field whose name is given by `leading`, without the marker, start with
text that has the name. -/
theorem exists_named_text {before : List Segment} {front name rest : List Char}
    (numbering : Numbering) (absent : ':' ∉ name)
    (leading : leadingText (before ++ [.text (front ++ ['!', 'f'])]) = name ++ ':' :: rest) :
    ∃ preview others,
      (elements numbering before).1 ++ [.text front] =
        .text (name ++ ':' :: preview) :: others ∧
      (before = [] ∧ front = name ++ ':' :: preview ∨ rest = preview) := by
  cases before with
  | nil =>
      have colon : front.contains ':' = true := by
        have whole : front ++ ['!', 'f'] = name ++ ':' :: rest := leading
        have member : ':' ∈ front ++ ['!', 'f'] := by simp [whole]
        simpa using member
      obtain ⟨name', preview, absent', rfl⟩ := exists_name colon
      have same : name' = name := by
        have whole : name' ++ ':' :: (preview ++ ['!', 'f']) = name ++ ':' :: rest := by
          rw [← leading]
          simp [leadingText]
        rw [← takeWhile_name absent' (preview ++ ['!', 'f']), whole, takeWhile_name absent]
      subst same
      exact ⟨preview, [], rfl, .inl ⟨rfl, rfl⟩⟩
  | cons segment before =>
      cases segment with
      | text chars =>
          have whole : chars = name ++ ':' :: rest := leading
          subst whole
          exact ⟨rest, (elements numbering before).1 ++ [.text front], rfl, .inr rfl⟩
      | group inner => simp [leadingText] at leading

/-- Numbering splits a field into its name and what the outline has for its preview. -/
theorem splitName_eq (numbering : Numbering) (before : List Segment) (front : List Char) :
    let segments := before ++ [.text (front ++ ['!', 'f'])]
    let inside := dropMarker (elements numbering segments).1
    splitName (leadingText segments) (Element.writeAll inside) =
      (fieldName (leadingText segments),
        Element.writeAll (dropLeading (previewStart (leadingText segments)) inside)) := by
  intro segments inside
  have content : inside = (elements numbering before).1 ++ [.text front] := by
    simp only [inside, segments, elements_append_text, dropMarker_append]
  by_cases colon : (leadingText segments).contains ':'
  · obtain ⟨name, rest, absent, leading⟩ := exists_name colon
    obtain ⟨preview, others, first, -⟩ := exists_named_text numbering absent leading
    have written : Element.writeAll inside =
        name ++ ':' :: (preview ++ Element.writeAll others) := by
      rw [content, first, Element.writeAll, Element.write, List.append_assoc, List.cons_append]
    have shown : Element.writeAll (dropLeading (name.length + 1) inside) =
        preview ++ Element.writeAll others := by
      rw [content, first, dropLeading, Element.writeAll, Element.write, ← List.drop_drop,
        List.drop_left, List.drop_one, List.tail_cons]
    rw [written, leading, splitName_append absent, fieldName_append absent,
      previewStart_append absent, shown]
  · rw [splitName, if_neg colon, fieldName, if_neg colon, previewStart, if_neg colon,
      dropLeading_zero]

/-! ## Numerals -/

theorem isNumeralAll_append (first second : List Segment) :
    isNumeralAll (first ++ second) = (isNumeralAll first && isNumeralAll second) := by
  induction first with
  | nil => rfl
  | cons segment first ih => rw [List.cons_append, isNumeralAll, isNumeralAll, ih, Bool.and_assoc]

/-- A field is no numeral, for its marker has no digits. -/
theorem not_isNumeralAll_of_isField {segments : List Segment}
    (field : isField .standard segments = true) : isNumeralAll segments = false := by
  obtain ⟨before, front, rfl⟩ := isField_iff.mp field
  simp [isNumeralAll_append, isNumeralAll, Segment.isNumeral]

/-- A field writes something. -/
theorem writeField_ne_nil (number : Nat) (preview : List Char) :
    writeField number preview ≠ [] := by
  unfold writeField
  split <;> simp

/-- A written field is no numeral, for it has braces. -/
theorem all_isDigit_writeField (number : Nat) (preview : List Char) :
    (writeField number preview).all Char.isDigit = false := by
  unfold writeField
  split <;> simp

/-- A segment becomes digits if it is a numeral, and nothing if it is nothing. -/
theorem Segment.write_element (segment : Segment) (numbering : Numbering)
    (inside : ∀ segments, segment = .group segments → ∀ numbering,
      (Element.writeAll (elements numbering segments).1).all Char.isDigit =
          isNumeralAll segments ∧
        (Element.writeAll (elements numbering segments).1 = [] ↔ writeAll segments = [])) :
    (segment.element numbering).1.write.all Char.isDigit = segment.isNumeral ∧
      ((segment.element numbering).1.write = [] ↔ segment.write = []) := by
  cases segment with
  | text chars => exact ⟨rfl, Iff.rfl⟩
  | group segments =>
      obtain ⟨digits, empty⟩ := inside segments rfl numbering
      have braced : (Segment.group segments).write ≠ [] := by simp [Segment.write]
      simp only [Segment.element]
      split
      case isTrue field =>
        refine ⟨?_, by simp [Element.write, writeField_ne_nil, braced]⟩
        simp [Element.write, all_isDigit_writeField, Segment.isNumeral,
          not_isNumeralAll_of_isField field]
      split
      case isTrue numeral =>
        have parts := numeral
        simp only [Segment.isNumeral, Bool.and_eq_true, Bool.not_eq_true',
          List.isEmpty_eq_false_iff] at parts
        refine ⟨by rw [Element.write, digits, parts.2, numeral], ?_⟩
        rw [Element.write, empty]
        exact ⟨fun none => absurd none parts.1, fun none => absurd none braced⟩
      case isFalse plain =>
        refine ⟨?_, by simp [Element.write, braced]⟩
        rw [Bool.not_eq_true] at plain
        simp [Element.write, plain]

/-- The elements of a text are a numeral if its segments are, and write nothing if they do not. -/
theorem writeAll_elements (segments : List Segment) (numbering : Numbering) :
    (Element.writeAll (elements numbering segments).1).all Char.isDigit = isNumeralAll segments ∧
      (Element.writeAll (elements numbering segments).1 = [] ↔ writeAll segments = []) := by
  induction segments using segments_induction generalizing numbering with
  | nil => exact ⟨rfl, Iff.rfl⟩
  | text chars segments ih =>
      obtain ⟨digits, empty⟩ := ih numbering
      simp [elements_text, Element.writeAll, Element.write, isNumeralAll, Segment.isNumeral,
        writeAll, Segment.write, digits, empty]
  | group inner segments inside ih =>
      have first := (Segment.group inner).write_element numbering (by
        rintro segments ⟨⟩ numbering
        exact inside numbering)
      obtain ⟨digits, empty⟩ := ih ((Segment.group inner).element numbering).2
      simp only [elements_cons, Element.writeAll, isNumeralAll, writeAll, List.all_append,
        List.append_eq_nil_iff, first, digits, empty, and_self]

/-! ## Numbering writes the outline -/

/-- A field writes its element. -/
theorem numberField_eq (numbering : Numbering) {segments : List Segment}
    (field : isField .standard segments = true) :
    numberField .standard (elements numbering segments).2 (leadingText segments)
        (Element.writeAll (elements numbering segments).1) =
      (((Segment.group segments).element numbering).1.write,
        ((Segment.group segments).element numbering).2) := by
  have field' := field
  obtain ⟨before, front, rfl⟩ := isField_iff.mp field'
  have content : Element.writeAll (elements numbering (before ++ [.text (front ++ ['!', 'f'])])).1 =
      Element.writeAll
        (dropMarker (elements numbering (before ++ [.text (front ++ ['!', 'f'])])).1) ++
        ['!', 'f'] := by
    rw [elements_append_text, dropMarker_append, Element.writeAll_append, Element.writeAll_append]
    simp [Element.writeAll, Element.write]
  have stripped := stripEnd?_append
    (Element.writeAll
      (dropMarker (elements numbering (before ++ [.text (front ++ ['!', 'f'])])).1)) ['!', 'f']
  rw [← content] at stripped
  have stripped' : Text.stripEnd? TemplateOptions.standard.fieldMarker.toList _ = _ := stripped
  have split := splitName_eq numbering before front
  simp only at split
  simp only [numberField, stripped', Option.getD_some, split, Segment.element, field, ↓reduceIte,
    Element.write]

/-- A group other than a field writes its element. -/
theorem writePlain_eq (numbering : Numbering) {segments : List Segment}
    (plain : isField .standard segments = false) :
    (writePlain (Element.writeAll (elements numbering segments).1),
        (elements numbering segments).2) =
      (((Segment.group segments).element numbering).1.write,
        ((Segment.group segments).element numbering).2) := by
  obtain ⟨digits, empty⟩ := writeAll_elements segments numbering
  have numeral : (!(Element.writeAll (elements numbering segments).1).isEmpty &&
      (Element.writeAll (elements numbering segments).1).all Char.isDigit) =
        (Segment.group segments).isNumeral := by
    rw [digits, Segment.isNumeral]
    congr 2
    rw [Bool.eq_iff_iff, List.isEmpty_iff, List.isEmpty_iff, empty]
  simp only [writePlain, numeral, Segment.element, plain, Bool.false_eq_true, ↓reduceIte]
  split
  · rfl
  · rfl

/-- Numbering writes the outline of a template. -/
theorem numberAll_eq (segments : List Segment) (numbering : Numbering) :
    numberAll .standard numbering segments =
      (Element.writeAll (elements numbering segments).1, (elements numbering segments).2) := by
  induction segments using segments_induction generalizing numbering with
  | nil => rfl
  | text chars segments ih =>
      simp only [numberAll, Segment.number, ih, elements_text, Element.writeAll, Element.write]
  | group inner segments inside ih =>
      have first : (Segment.group inner).number .standard numbering =
          (((Segment.group inner).element numbering).1.write,
            ((Segment.group inner).element numbering).2) := by
        simp only [Segment.number, inside]
        split
        case isTrue field => exact numberField_eq numbering field
        case isFalse plain => exact writePlain_eq numbering (Bool.not_eq_true _ ▸ plain)
      simp only [numberAll, first, ih, elements_cons, Element.writeAll]

end Template

end DocSketch
