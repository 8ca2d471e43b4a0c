import DocSketch.Proofs.Template.Reading

/-!
# Escaped text

An escaped text is a template without groups that stands for the text, whatever the marks of
opaque text are, as long as no backslash opens it: a backslash that is put in can only break
up a mark, so each mark that is left stands in the text itself, where it would have been
escaped.  As the preview of a field, an escaped text comes through as the preview of a tab
stop.

* `Template.mark_of_escapeChars`: a mark in an escaped text is one of the text.
* `Template.escape_standsFor`: an escaped text stands for the text.
* `Template.escaped_text`: this, and what becomes of an escaped text in a field.
-/

namespace DocSketch

namespace Template

open Snippet

variable {options : TemplateOptions}

/-! ## Escaped text alone -/

/-- A mark without a backslash that an escaped text starts with is one the text starts with. -/
theorem mark_of_escapeChars {marker cs : List Char} (unslashed : '\\' ∉ marker)
    (found : marker <+: escapeChars options cs) : marker <+: cs := by
  induction cs generalizing marker with
  | nil => exact found
  | cons c cs ih =>
      cases marker with
      | nil => exact List.nil_prefix
      | cons first marker =>
          obtain ⟨other, unslashed⟩ := List.ne_and_not_mem_of_not_mem_cons unslashed
          rw [escapeChars] at found
          split at found
          case isTrue =>
            exact absurd (List.cons_prefix_cons.mp found).1.symm other
          case isFalse =>
            obtain ⟨same, behind⟩ := List.cons_prefix_cons.mp found
            exact List.cons_prefix_cons.mpr ⟨same, ih unslashed behind⟩

/-- No opaque text starts at a character that is not escaped. -/
theorem opaqueLength_escapeChars {c : Char} {cs : List Char}
    (unslashed : '\\' ∉ options.opaqueOpen.toList) (plain : isSpecial options c cs = false) :
    opaqueLength options (c :: escapeChars options cs) = 0 := by
  rw [opaqueLength, if_neg]
  rintro ⟨some, found⟩
  have opens : options.opaqueOpen.toList <+: c :: cs := by
    cases marker : options.opaqueOpen.toList with
    | nil => exact List.nil_prefix
    | cons first rest =>
        rw [marker] at found unslashed
        obtain ⟨same, behind⟩ := List.cons_prefix_cons.mp (List.isPrefixOf_iff_prefix.mp found)
        obtain ⟨-, unslashed⟩ := List.ne_and_not_mem_of_not_mem_cons unslashed
        exact List.cons_prefix_cons.mpr ⟨same, mark_of_escapeChars unslashed behind⟩
  have special : isSpecial options c cs = true := by
    simp [isSpecial, List.isPrefixOf_iff_prefix.mpr opens, some]
  exact absurd (special.symm.trans plain) (by simp)

/-- A character that is not special is neither a backslash nor a brace. -/
theorem ne_of_not_isSpecial {c : Char} {cs : List Char} (plain : isSpecial options c cs = false) :
    c ≠ '\\' ∧ c ≠ '\x7b' ∧ c ≠ '\x7d' := by
  simp only [isSpecial, Bool.or_eq_false_iff, beq_eq_false_iff_ne] at plain
  exact ⟨plain.1.1.1, plain.1.1.2, plain.1.2⟩

/-- An escaped text is cut nowhere. -/
theorem cut_escapeChars (unslashed : '\\' ∉ options.opaqueOpen.toList) (cs : List Char) :
    cut options (escapeChars options cs) = hide (escapeChars options cs) [] := by
  induction cs with
  | nil =>
      rw [escapeChars, cut]
      rfl
  | cons c cs ih =>
      rw [escapeChars]
      split
      case isTrue =>
        rw [cut, if_pos rfl, List.take_succ_cons, List.take_zero, List.drop_one, List.tail_cons,
          ih, prependText_hide _ _ _ (List.cons_ne_nil _ _)]
        rfl
      case isFalse special =>
        have plain := eq_false_of_ne_true special
        obtain ⟨unescaped, opening, closing⟩ := ne_of_not_isSpecial plain
        rw [cut, if_neg unescaped, if_neg (not_not.mpr (opaqueLength_escapeChars unslashed plain)),
          if_neg opening, if_neg closing, ih, prependText_hide _ _ _ (List.cons_ne_nil _ _)]
        rfl

/-- An escaped text is converted to the snippet of the text. -/
theorem literalSnippet_escapeChars (cs : List Char) :
    literalSnippet (escapeChars options cs) = cs.flatMap snippetChar := by
  induction cs with
  | nil => rfl
  | cons c cs ih =>
      rw [escapeChars, List.flatMap_cons]
      split
      case isTrue => rw [literalSnippet, ih]
      case isFalse special =>
        have plain := eq_false_of_ne_true special
        rw [literalSnippet_cons (ne_of_not_isSpecial plain).1, ih]

/-- An escaped text stands for the text. -/
theorem escape_standsFor (unslashed : '\\' ∉ options.opaqueOpen.toList) (text : String) :
    StandsFor options (escape options text) text := by
  have written : (escape options text).toList = escapeChars options text.toList := by
    rw [escape, String.toList_ofList]
  apply standsFor_of_uncut
  · rw [written, cut_escapeChars unslashed]
  · rw [written, literalSnippet_escapeChars]

/-! ## Escaped text in a field -/

/-- Text before segments makes no group. -/
theorem groupsInside_prependPlain (parent next : Nat) (chars : List Char)
    (segments : List Segment) :
    groupsInside options parent next (prependPlain chars segments) =
      groupsInside options parent next segments := by
  unfold prependPlain
  split
  · rfl
  · cases segments with
    | nil => rfl
    | cons segment segments =>
        cases segment with
        | text others => rfl
        | group inner => rfl

/-- The parts of a template with a single field between two texts. -/
def framed (before preview after : Caption) : List Part :=
  [.text before, .field preview, .text after]

variable {before preview after : Caption}

/-- The only group inside of a template with a single field is the field. -/
theorem groups_framed (filled : preview.written ≠ []) :
    ∃ root field, groups .standard (segmentsOf ((framed before preview after).map Part.block)) =
        [root, field] ∧
      root.isField = false ∧ field.isField = true ∧
      field.raw = ':' :: preview.written ++ ['!', 'f'] := by
  have content : (fieldContent preview).written = ':' :: preview.written ++ ['!', 'f'] := by
    rw [fieldContent_written, if_neg (by simpa using filled)]
  have inside : groupsInside .standard 0 1
      (segmentsOf ((framed before preview after).map Part.block)) =
        [groupOf .standard (some 0) 1 [.text (fieldContent preview).written]] := by
    simp only [framed, List.map_cons, List.map_nil, Part.block, segmentsOf,
      groupsInside_prependPlain, groupsInside, Segment.groupsFrom, prependPlain_fieldContent,
      List.append_nil]
  refine ⟨_, _, by rw [groups, inside], rfl, isField_content preview, ?_⟩
  rw [← content]
  exact List.append_nil _

/-- Characters before nodes leave them separated. -/
theorem areSeparated_chars (text : List Char) (nodes : List Node) :
    areSeparated (text.map Node.char ++ nodes) = areSeparated nodes := by
  induction text with
  | nil => rfl
  | cons c text ih =>
      simpa [areSeparated, Node.isSeparated, Node.isStop] using ih

/-- An editor shows a template with a single field as a tab stop between two texts. -/
theorem read_framed (filled : preview.plain ≠ []) :
    Snippet.read (String.ofList (snippetOf 1 (framed before preview after))) =
      before.plain.map Node.char ++
        .placeholder 1 (preview.plain.map Node.char) :: after.plain.map Node.char := by
  have stop : writeStop 1 preview.plain =
      (Node.placeholder 1 (preview.plain.map Node.char)).write := by
    rw [writeStop, if_neg (by simpa using filled), Node.write, Node.writeAll_chars]
    simp only [List.append_assoc, List.cons_append, List.nil_append]
  have written : snippetOf 1 (framed before preview after) =
      Node.writeAll (before.plain.map Node.char ++
        .placeholder 1 (preview.plain.map Node.char) :: after.plain.map Node.char) := by
    rw [Node.writeAll_append, Node.writeAll, Node.writeAll_chars, Node.writeAll_chars, framed,
      snippetOf, snippetOf, snippetOf, snippetOf, stop, List.append_nil]
  have chars : ∀ text : List Char, areSeparated (text.map Node.char) = true := by
    intro text
    rw [← List.append_nil (text.map Node.char), areSeparated_chars]
    rfl
  rw [written, read_writeAll]
  rw [areSeparated_chars, areSeparated, Node.isSeparated, chars, chars]
  rfl

/-- **Escaped text.** An escaped text is a template without groups that stands for the text,
unless a backslash opens opaque text.  As the preview of the only field of a template, it
becomes the preview of the only tab stop of the snippet. -/
theorem escaped_text (text : String) :
    (∀ options : TemplateOptions, '\\' ∉ options.opaqueOpen.toList →
        StandsFor options (escape options text) text) ∧
      (text ≠ "" → ∀ before after : String, Unreserved before.toList → Unreserved after.toList →
        let template := before ++ ("\x7b:" ++ escape .standard text ++ "!f\x7d") ++ after
        (∃ arena root field, build .standard template = .ok arena ∧
          arena.groups = [root, field] ∧
          root.isField = false ∧ field.isField = true ∧
          field.raw = (":" ++ escape .standard text ++ "!f").toList) ∧
        ∃ numbered snippet, number .standard template = .ok numbered ∧
          convert .standard numbered = .ok snippet ∧
          Snippet.read snippet =
            before.toList.map Node.char ++
              .placeholder 1 (text.toList.map Node.char) :: after.toList.map Node.char) := by
  constructor
  · intro options unslashed
    exact escape_standsFor unslashed text
  · intro filled before after free free' template
    let preview : Caption :=
      ⟨escapeChars .standard text.toList, text.toList, (escapeChars_spells text.toList).shows⟩
    have shown : preview.plain ≠ [] := by simpa [preview] using filled
    have written : preview.written ≠ [] := fun empty =>
      shown (preview.shows.plain_eq_nil.mpr empty)
    let parts := framed (.ofFree before.toList free) preview (.ofFree after.toList free')
    have whole : template = String.ofList (writeBlocks (parts.map Part.block)) := by
      have content := fieldContent_written preview
      rw [if_neg (by simpa using written)] at content
      rw [← String.toList_inj]
      simp [template, parts, framed, Part.block, writeBlocks, Block.write, Caption.ofFree, content,
        escape, preview]
    rw [whole]
    constructor
    · obtain ⟨root, field, only, outer, marked, raw⟩ := groups_framed written
      refine ⟨_, root, field, build_of_parse (parse_writeBlocks _), only, outer, marked, ?_⟩
      rw [raw]
      simp [preview, escape]
    · exact ⟨_, _, number_parts parts, convert_parts parts 1, read_framed shown⟩

/-- A text with every reserved character in it. -/
theorem escaped_text_reserved :
    let text := "$1<\x7b<<\\"
    let options : TemplateOptions := ⟨"?", "<<", "<\x7b"⟩
    let template := "a$\x7b:$1\\<\\\x7b\\<\\<\\\\!f\x7d5!f"
    '\\' ∉ options.opaqueOpen.toList ∧
      escape options text = "$1\\<\\\x7b\\<<\\\\" ∧
      StandsFor options (escape options text) text ∧
      text ≠ "" ∧ Unreserved "a$".toList ∧ Unreserved "5!f".toList ∧
      ∃ numbered snippet, number .standard template = .ok numbered ∧
        convert .standard numbered = .ok snippet ∧
        Snippet.read snippet =
          "a$".toList.map Node.char ++
            .placeholder 1 (text.toList.map Node.char) :: "5!f".toList.map Node.char := by
  intro text options template
  have unslashed : '\\' ∉ options.opaqueOpen.toList := by decide
  have filled : text ≠ "" := by decide
  have before : Unreserved "a$".toList := by decide
  have after : Unreserved "5!f".toList := by decide
  have written : "a$" ++ ("\x7b:" ++ escape .standard text ++ "!f\x7d") ++ "5!f" = template := by
    cbv
  obtain ⟨alone, inField⟩ := escaped_text text
  obtain ⟨-, shown⟩ := inField filled "a$" "5!f" before after
  rw [written] at shown
  exact ⟨unslashed, by cbv, alone options unslashed, filled, before, after, shown⟩

end Template

end DocSketch
