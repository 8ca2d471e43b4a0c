import DocSketch.Proofs.Template.Passes

/-!
# Texts that stand for themselves

In a template a text is written with backslashes before everything that has a meaning
there, or in part as opaque text.  However it is written, it neither opens nor closes a
group, and a snippet shows the text itself.

* `TemplateOptions.standard`: options with angle brackets around opaque text.
* `Template.Spells`, `Template.Shows`: ways to write a text, without and with opaque text.
* `Template.escapeChars_spells`: escaping is such a way.
* `Template.Shows.cut_append`: what shows a text has no brace that counts.
* `Template.Shows.literalSnippet_append`: in a snippet it becomes the text.
* `Template.StandsFor`: a template that holds nothing but a text.
* `Template.Shows.standsFor`: what shows a text is a template that holds just the text.
-/

namespace DocSketch

/-- Angle brackets stand around opaque text. -/
def TemplateOptions.standard : TemplateOptions := {}

/-- Angle brackets stand around types that are not built in. -/
structure TypeFormat.Angled (format : TypeFormat) : Prop where
  opens : format.foreignOpen = "<"
  closes : format.foreignClose = ">"

/-- A format with angle markers has the standard options. -/
theorem TypeFormat.Angled.options {format : TypeFormat} (angled : format.Angled) :
    TemplateOptions.ofFormat format = .standard := by
  simp only [TemplateOptions.ofFormat, angled.opens, angled.closes]
  rfl

namespace Template

/-- Characters that have a meaning in templates. -/
def isReserved (c : Char) : Bool :=
  ['\\', '\x7b', '\x7d', '<', '>'].contains c

/-- Nothing among characters has a meaning in templates. -/
def Unreserved (cs : List Char) : Prop := ∀ c ∈ cs, isReserved c = false

-- Named because there is one that tries all characters there are, too.
instance (cs : List Char) : Decidable (Unreserved cs) := List.decidableBAll _ cs

/-- Ways to write a text with backslashes. -/
inductive Spells : List Char → List Char → Prop
  | nil : Spells [] []
  | char {c : Char} {written plain : List Char} (free : isReserved c = false)
      (tail : Spells written plain) : Spells (c :: written) (c :: plain)
  | escaped (c : Char) {written plain : List Char} (tail : Spells written plain) :
      Spells ('\\' :: c :: written) (c :: plain)

/-- Ways to write a text with backslashes and opaque text. -/
inductive Shows : List Char → List Char → Prop
  | nil : Shows [] []
  | char {c : Char} {written plain : List Char} (free : isReserved c = false)
      (tail : Shows written plain) : Shows (c :: written) (c :: plain)
  | escaped (c : Char) {written plain : List Char} (tail : Shows written plain) :
      Shows ('\\' :: c :: written) (c :: plain)
  | marked {label name written plain : List Char} (inside : Spells label name)
      (tail : Shows written plain) :
      Shows ('<' :: label ++ '>' :: written) ('<' :: name ++ '>' :: plain)

/-- A free character is neither a backslash, nor a brace, nor an angle. -/
theorem ne_of_free {c : Char} (free : isReserved c = false) :
    c ≠ '\\' ∧ c ≠ '\x7b' ∧ c ≠ '\x7d' ∧ c ≠ '<' ∧ c ≠ '>' := by
  simpa [isReserved] using free

/-- What spells a text shows it. -/
theorem Spells.shows {written plain : List Char} (spells : Spells written plain) :
    Shows written plain := by
  induction spells with
  | nil => exact .nil
  | char free tail ih => exact .char free ih
  | escaped c tail ih => exact .escaped c ih

/-- Unreserved characters show themselves. -/
theorem Shows.of_free : ∀ {cs : List Char}, Unreserved cs → Shows cs cs
  | [], _ => .nil
  | c :: _, free =>
      .char (free c List.mem_cons_self) (.of_free fun d member => free d (.tail c member))

theorem Shows.append {first second front back : List Char} (head : Shows first front)
    (rest : Shows second back) : Shows (first ++ second) (front ++ back) := by
  induction head with
  | nil => exact rest
  | char free tail ih => exact .char free ih
  | escaped c tail ih => exact .escaped c ih
  | marked inside tail ih =>
      simpa only [List.cons_append, List.append_assoc] using Shows.marked inside ih

/-- Only the empty text shows nothing. -/
theorem Shows.plain_eq_nil {written plain : List Char} (shows : Shows written plain) :
    plain = [] ↔ written = [] := by
  cases shows <;> simp

/-- The special characters are the reserved ones. -/
theorem isSpecial_standard (c : Char) (cs : List Char) :
    isSpecial .standard c cs = isReserved c := by
  have mirrored : ∀ d : Char, (d == c) = decide (c = d) := fun d => by
    rw [Bool.beq_eq_decide_eq, decide_eq_decide, eq_comm]
  simp [isSpecial, isReserved, TemplateOptions.standard, List.isPrefixOf, Bool.or_assoc, mirrored,
    Bool.beq_eq_decide_eq]

/-- Escaping is a way to write a text. -/
theorem escapeChars_spells : ∀ cs : List Char, Spells (escapeChars .standard cs) cs
  | [] => .nil
  | c :: cs => by
      rw [escapeChars, isSpecial_standard]
      split
      case isTrue => exact .escaped c (escapeChars_spells cs)
      case isFalse free => exact .char (eq_false_of_ne_true free) (escapeChars_spells cs)

/-- An opaque run ends at its angle, for the spelling of a label has none of its own. -/
theorem runLength?_spells {label name : List Char} (spells : Spells label name)
    (rest : List Char) :
    runLength? ['<'] ['>'] 0 (label ++ '>' :: rest) = some (label.length + 1) := by
  induction spells with
  | nil => simp [runLength?, List.isPrefixOf]
  | char free tail ih =>
      obtain ⟨plain, -, -, opens, closes⟩ := ne_of_free free
      rw [List.cons_append, runLength?]
      simp [List.isPrefixOf, plain, opens.symm, closes.symm, ih]
      omega
  | escaped c tail ih =>
      rw [List.cons_append, List.cons_append, runLength?]
      simp [List.isPrefixOf, ih]
      omega

/-- A marked label is opaque. -/
theorem opaqueLength_marked {label name : List Char} (spells : Spells label name)
    (rest : List Char) :
    opaqueLength .standard ('<' :: label ++ '>' :: rest) = label.length + 2 := by
  have found := runLength?_spells spells rest
  simp [opaqueLength, TemplateOptions.standard, List.isPrefixOf, found]
  omega

/-- What does not start with an angle is not opaque. -/
theorem opaqueLength_of_ne {c : Char} (other : c ≠ '<') (rest : List Char) :
    opaqueLength .standard (c :: rest) = 0 := by
  simp [opaqueLength, TemplateOptions.standard, List.isPrefixOf, other.symm]

/-- Text before hidden text is hidden with it. -/
theorem prependText_hide (first second : List Char) (pieces : List Piece) (some : first ≠ []) :
    prependText first (hide second pieces) = hide (first ++ second) pieces := by
  cases second with
  | nil => simp only [hide, List.isEmpty_nil, ↓reduceIte, List.append_nil, some, List.isEmpty_iff]
  | cons c cs =>
      simp only [hide, List.isEmpty_cons, Bool.false_eq_true, ↓reduceIte, prependText_prependText,
        List.isEmpty_iff, List.append_eq_nil_iff, reduceCtorEq, and_false]

/-- What shows a text is cut nowhere. -/
theorem Shows.cut_append {written plain : List Char} (shows : Shows written plain)
    (rest : List Char) : cut .standard (written ++ rest) = hide written (cut .standard rest) := by
  induction shows with
  | nil => rfl
  | char free tail ih =>
      obtain ⟨unescaped, opening, closing, angle, -⟩ := ne_of_free free
      rw [List.cons_append, cut]
      simp only [unescaped, opening, closing, opaqueLength_of_ne angle, ↓reduceIte, ne_eq,
        not_true_eq_false, ih]
      exact prependText_hide _ _ _ (List.cons_ne_nil _ _)
  | escaped c tail ih =>
      rw [List.cons_append, List.cons_append, cut]
      simp only [↓reduceIte, List.take_succ_cons, List.take_zero, List.drop_succ_cons,
        List.drop_zero, ih]
      exact prependText_hide _ _ _ (List.cons_ne_nil _ _)
  | marked inside tail ih =>
      rename_i label name written plain
      -- The opaque text is taken as a whole, with the brackets around it.
      have size : opaqueLength .standard ('<' :: (label ++ ('>' :: written)) ++ rest) =
          ('<' :: label ++ ['>']).length := by
        rw [List.cons_append, List.append_assoc, List.cons_append, ← List.cons_append,
          opaqueLength_marked inside]
        simp only [List.cons_append, List.length_cons, List.length_append, List.length_nil]
      have parts : '<' :: (label ++ ('>' :: written)) ++ rest =
          ('<' :: label ++ ['>']) ++ (written ++ rest) := by
        simp only [List.cons_append, List.append_assoc, List.nil_append]
      rw [List.cons_append, List.cons_append, cut, ← List.cons_append, size, parts, List.take_left,
        List.drop_left, ih]
      simp only [Char.reduceEq, ↓reduceIte, List.cons_append, List.length_cons, ne_eq,
        Nat.add_eq_zero_iff, Nat.one_ne_zero, and_false, not_false_eq_true]
      rw [prependText_hide _ _ _ (List.cons_ne_nil _ _)]
      simp only [List.cons_append, List.append_assoc, List.nil_append]

theorem literalSnippet_cons {c : Char} (unescaped : c ≠ '\\') (cs : List Char) :
    literalSnippet (c :: cs) = snippetChar c ++ literalSnippet cs := by
  rw [literalSnippet]
  exact fun _ _ same => absurd same unescaped

/-- The spelling of a text is converted to its snippet, whatever comes behind. -/
theorem Spells.literalSnippet_append {written plain : List Char} (spells : Spells written plain)
    (rest : List Char) :
    literalSnippet (written ++ rest) = plain.flatMap snippetChar ++ literalSnippet rest := by
  induction spells with
  | nil => rfl
  | char free tail ih =>
      rw [List.cons_append, literalSnippet_cons (ne_of_free free).1, ih, List.flatMap_cons,
        List.append_assoc]
  | escaped c tail ih =>
      rw [List.cons_append, List.cons_append, literalSnippet, ih, List.flatMap_cons,
        List.append_assoc]

/-- What shows a text is that text in a snippet. -/
theorem Shows.literalSnippet_append {written plain : List Char} (shows : Shows written plain)
    (rest : List Char) :
    literalSnippet (written ++ rest) = plain.flatMap snippetChar ++ literalSnippet rest := by
  induction shows with
  | nil => rfl
  | char free tail ih =>
      rw [List.cons_append, literalSnippet_cons (ne_of_free free).1, ih, List.flatMap_cons,
        List.append_assoc]
  | escaped c tail ih =>
      rw [List.cons_append, List.cons_append, literalSnippet, ih, List.flatMap_cons,
        List.append_assoc]
  | marked inside tail ih =>
      rw [List.cons_append, List.cons_append, List.append_assoc, List.cons_append,
        literalSnippet_cons (by decide), inside.literalSnippet_append,
        literalSnippet_cons (by decide), ih]
      simp only [List.flatMap_cons, List.cons_append, List.flatMap_append, List.append_assoc]

/-- What shows a text is converted to its snippet. -/
theorem Shows.literalSnippet_eq {written plain : List Char} (shows : Shows written plain) :
    literalSnippet written = plain.flatMap snippetChar := by
  have whole := shows.literalSnippet_append []
  rwa [List.append_nil, literalSnippet, List.append_nil] at whole

end Template

/-- A snippet without the backslashes that make characters stand for themselves in it. -/
def Snippet.unescape : List Char → List Char
  | [] => []
  | [c] => [c]
  | c :: hidden :: rest =>
    if c = '\\' ∧ (hidden = '\\' ∨ hidden = '$' ∨ hidden = '\x7d') then hidden :: unescape rest
    else c :: unescape (hidden :: rest)

theorem Snippet.unescape_cons {c : Char} (unescaped : c ≠ '\\') (rest : List Char) :
    unescape (c :: rest) = c :: unescape rest := by
  cases rest with
  | nil => rfl
  | cons hidden rest => rw [unescape, if_neg fun escaped => unescaped escaped.1]

/-- The snippet of a text is unescaped to the text. -/
theorem Snippet.unescape_literal (text : List Char) :
    unescape (text.flatMap Template.snippetChar) = text := by
  induction text with
  | nil => rfl
  | cons c cs ih =>
      by_cases hidden : c = '\\' ∨ c = '$' ∨ c = '\x7d'
      · rw [List.flatMap_cons, Template.snippetChar, if_pos hidden, List.cons_append,
          List.singleton_append, unescape, if_pos ⟨rfl, hidden⟩, ih]
      · have unescaped : c ≠ '\\' := fun same => hidden (.inl same)
        rw [List.flatMap_cons, Template.snippetChar, if_neg hidden, List.singleton_append,
          unescape_cons unescaped, ih]

namespace Template

/-- As a template, `written` has no group but itself, and its snippet holds `plain`. -/
def StandsFor (options : TemplateOptions) (written plain : String) : Prop :=
  ∃ arena snippet, build options written = .ok arena ∧
    arena.groups.length = 1 ∧
    convert options written = .ok snippet ∧
    Snippet.unescape snippet.toList = plain.toList

/-- A template that is cut nowhere stands for what its snippet holds. -/
theorem standsFor_of_uncut {options : TemplateOptions} {written plain : String}
    (uncut : cut options written.toList = hide written.toList [])
    (shown : literalSnippet written.toList = plain.toList.flatMap snippetChar) :
    StandsFor options written plain := by
  let segments : List Segment := if written.toList.isEmpty then [] else [.text written.toList]
  have parsed : parse options written = .ok segments := by
    unfold segments
    rw [parse, uncut, hide]
    split
    · rfl
    · rfl
  have alone : (groups options segments).length = 1 := by
    unfold segments
    split
    · rfl
    · rfl
  have converted : convertAll segments = literalSnippet written.toList := by
    unfold segments
    split
    case isTrue empty =>
      rw [List.isEmpty_iff.mp empty]
      rfl
    case isFalse =>
      rw [convertAll, Segment.convert, convertAll, List.append_nil]
  refine ⟨_, String.ofList (convertAll segments), build_of_parse parsed, alone,
    convert_of_parse parsed, ?_⟩
  rw [String.toList_ofList, converted, shown, Snippet.unescape_literal]

/-- What shows a text stands for it. -/
theorem Shows.standsFor {written plain : String} (shows : Shows written.toList plain.toList) :
    StandsFor .standard written plain := by
  apply standsFor_of_uncut
  · have whole := shows.cut_append []
    rwa [List.append_nil, cut] at whole
  · exact shows.literalSnippet_eq

end Template

end DocSketch
