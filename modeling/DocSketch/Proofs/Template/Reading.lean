import DocSketch.Proofs.Template.Composition
import DocSketch.Proofs.Template.TabStops

/-!
# An editor reads a template

The snippet of a numbered template is its outline, written for an editor: the fields become
tab stops that show their previews, and everything else becomes text.  An editor reads the
snippet as just that, unless a digit follows a tab stop without a preview.

* `Snippet.Node.writeAll`: nodes written as a snippet.
* `Snippet.areSeparated`: no digit follows a tab stop without a preview.
* `Snippet.read_writeAll`: nodes are read back.
* `Template.Element.nodesAll`: what an editor should show for an outline.
* `Template.read_convert_number`: an editor shows the outline of a template.
-/

namespace DocSketch

namespace Snippet

/-! ## Nodes as a snippet -/

/-- What holds of nodes if it holds of those inside their first one and of those after it
holds of all. -/
theorem nodes_induction {P : List Node → Prop} (nil : P [])
    (char : ∀ c nodes, P nodes → P (.char c :: nodes))
    (stop : ∀ number nodes, P nodes → P (.stop number :: nodes))
    (placeholder : ∀ number content nodes, P content → P nodes →
      P (.placeholder number content :: nodes))
    (nodes : List Node) : P nodes :=
  @Node.rec_1 (fun node => ∀ nodes, P nodes → P (node :: nodes)) P char stop
    (fun number content inside nodes rest => placeholder number content nodes inside rest) nil
    (fun _ nodes first rest => first nodes rest) nodes

mutual

/-- A node as it is written in a snippet. -/
def Node.write : Node → List Char
  | .char c => Template.snippetChar c
  | .stop number => '$' :: (toString number).toList
  | .placeholder number content =>
    '$' :: '\x7b' :: ((toString number).toList ++ ':' :: (Node.writeAll content ++ ['\x7d']))

def Node.writeAll : List Node → List Char
  | [] => []
  | node :: nodes => node.write ++ Node.writeAll nodes

end

mutual

/-- What the characters of a node mean. -/
def Node.marks : Node → List Mark
  | .char c => [.literal c]
  | .stop number => [.stop (toString number).toList]
  | .placeholder number content =>
    .opening (toString number).toList :: (Node.marksAll content ++ [.closing])

def Node.marksAll : List Node → List Mark
  | [] => []
  | node :: nodes => node.marks ++ Node.marksAll nodes

end

def Node.isStop : Node → Bool
  | .stop _ => true
  | .char _ | .placeholder .. => false

def Node.isDigit : Node → Bool
  | .char c => c.isDigit
  | .stop _ | .placeholder .. => false

mutual

def Node.isSeparated : Node → Bool
  | .char _ | .stop _ => true
  | .placeholder _ content => areSeparated content

/-- Whether no digit follows a tab stop without a preview, at any level. -/
def areSeparated : List Node → Bool
  | [] => true
  | node :: nodes =>
    node.isSeparated && !(node.isStop && nodes.head?.any Node.isDigit) && areSeparated nodes

end

theorem Node.writeAll_append (first second : List Node) :
    writeAll (first ++ second) = writeAll first ++ writeAll second := by
  induction first with
  | nil => rfl
  | cons node first ih => rw [List.cons_append, writeAll, writeAll, ih, List.append_assoc]

/-- Characters are written as the snippet of a text. -/
theorem Node.writeAll_chars (text : List Char) :
    writeAll (text.map Node.char) = text.flatMap Template.snippetChar := by
  induction text with
  | nil => rfl
  | cons c text ih => rw [List.map_cons, writeAll, ih, List.flatMap_cons, Node.write]

/-- Nodes that do not start with a digit are not taken for digits. -/
theorem takeWhile_writeAll {nodes : List Node} {rest : List Char}
    (first : nodes.head?.any Node.isDigit = false) (next : rest.takeWhile Char.isDigit = []) :
    (Node.writeAll nodes ++ rest).takeWhile Char.isDigit = [] := by
  cases nodes with
  | nil => exact next
  | cons node nodes =>
      cases node with
      | char c =>
          have other : c.isDigit = false := first
          rw [Node.writeAll, Node.write, Template.snippetChar]
          split
          · rfl
          · simp [other]
      | stop | placeholder => rfl

/-- The characters of separated nodes mean what they are written for. -/
theorem marks_writeAll {nodes : List Node} (separated : areSeparated nodes = true)
    {rest : List Char} (next : rest.takeWhile Char.isDigit = []) :
    marks (Node.writeAll nodes ++ rest) = Node.marksAll nodes ++ marks rest := by
  induction nodes using nodes_induction generalizing rest with
  | nil => rfl
  | char c nodes ih =>
      simp only [areSeparated, Bool.and_eq_true] at separated
      have here := marks_literal [c] (Node.writeAll nodes ++ rest)
      rw [ih separated.2 next] at here
      simpa [Node.writeAll, Node.write, Node.marksAll, Node.marks] using here
  | stop number nodes ih =>
      simp only [areSeparated, Bool.and_eq_true, Node.isStop, Bool.true_and,
        Bool.not_eq_true'] at separated
      have here := marks_stop (Template.toString_toList_ne_nil number)
        (fun _ => Text.isDigit_of_mem_toString) (takeWhile_writeAll separated.1.2 next)
      rw [ih separated.2 next] at here
      simpa [Node.writeAll, Node.write, Node.marksAll, Node.marks] using here
  | placeholder number content nodes inside ih =>
      simp only [areSeparated, Bool.and_eq_true, Node.isSeparated] at separated
      have closed : ('\x7d' :: (Node.writeAll nodes ++ rest)).takeWhile Char.isDigit = [] := rfl
      have here := marks_opening (Node.writeAll content ++ '\x7d' :: (Node.writeAll nodes ++ rest))
        (Template.toString_toList_ne_nil number) fun _ => Text.isDigit_of_mem_toString
      have behind : marks ('\x7d' :: (Node.writeAll nodes ++ rest)) =
          .closing :: (Node.marksAll nodes ++ marks rest) := by
        rw [marks, ih separated.2 next]
      rw [inside separated.1.1 closed, behind] at here
      simpa [Node.writeAll, Node.write, Node.marksAll, Node.marks] using here

/-- The marks of nodes are gathered to the nodes. -/
theorem gather_marksAll (nodes current : List Node) (outer : List (List Char × List Node))
    (rest : List Mark) :
    gather current outer (Node.marksAll nodes ++ rest) =
      gather (nodes.reverse ++ current) outer rest := by
  induction nodes using nodes_induction generalizing current outer rest with
  | nil => rfl
  | char c nodes ih =>
      rw [Node.marksAll, Node.marks, List.append_assoc, List.singleton_append, gather, ih]
      simp
  | stop number nodes ih =>
      rw [Node.marksAll, Node.marks, List.append_assoc, List.singleton_append, gather, ih,
        Template.numberOf_toString]
      simp
  | placeholder number content nodes inside ih =>
      simp only [Node.marksAll, Node.marks, List.cons_append, List.append_assoc, gather, inside,
        List.nil_append, ih, Template.numberOf_toString, List.append_nil, List.reverse_reverse]
      simp

/-- Separated nodes are read back from how they are written. -/
theorem read_writeAll {nodes : List Node} (separated : areSeparated nodes = true) :
    read (String.ofList (Node.writeAll nodes)) = nodes := by
  have written := marks_writeAll separated (List.takeWhile_nil : [].takeWhile Char.isDigit = [])
  have gathered := gather_marksAll nodes [] [] (marks [])
  rw [List.append_nil] at written
  rw [read, String.toList_ofList, written, gathered, marks, gather, unwind, List.append_nil,
    List.reverse_reverse]

end Snippet

namespace Template

open Snippet

/-! ## Nodes of an outline -/

/-- A text without the backslashes of the template. -/
def resolve : List Char → List Char
  | [] => []
  | '\\' :: c :: cs => c :: resolve cs
  | c :: cs => c :: resolve cs

mutual

/-- What an editor should show for an element. -/
def Element.nodes : Element → List Node
  | .text chars => (resolve chars).map Node.char
  | .field number preview =>
    if (Element.nodesAll preview).isEmpty then [.stop number]
    else [.placeholder number (Element.nodesAll preview)]
  | .braces content => .char '\x7b' :: (Element.nodesAll content ++ [.char '\x7d'])

def Element.nodesAll : List Element → List Node
  | [] => []
  | element :: elements => element.nodes ++ Element.nodesAll elements

end

/-- A text is converted by resolving it and writing what remains. -/
theorem literalSnippet_eq (cs : List Char) :
    literalSnippet cs = (resolve cs).flatMap snippetChar := by
  induction cs using literalSnippet.induct with
  | case1 => rfl
  | case2 c cs ih => rw [literalSnippet, resolve, ih, List.flatMap_cons]
  | case3 c cs other ih => rw [literalSnippet, resolve, ih, List.flatMap_cons] <;> exact other

/-- Only the empty text is resolved to nothing. -/
theorem resolve_eq_nil {cs : List Char} : resolve cs = [] ↔ cs = [] := by
  cases cs using resolve.fun_cases with
  | case1 => simp [resolve]
  | case2 c cs => simp [resolve]
  | case3 c cs other =>
      rw [resolve] <;> simp
      exact other

/-- Elements without nodes write nothing. -/
theorem Element.nodesAll_eq_nil {elements : List Element} :
    nodesAll elements = [] ↔ writeAll elements = [] := by
  induction elements using elements_induction with
  | nil => simp [nodesAll, writeAll]
  | text chars elements ih =>
      simp [nodesAll, Element.nodes, writeAll, Element.write, ih, resolve_eq_nil]
  | field number preview elements inside ih =>
      have some : (Element.field number preview).nodes ≠ [] := by
        rw [Element.nodes]
        split <;> simp
      simp [nodesAll, writeAll, Element.write, writeField_ne_nil, some]
  | braces content elements inside ih =>
      simp [nodesAll, Element.nodes, writeAll, Element.write]

/-! ## Conversion writes the nodes -/

/-- Balanced text is converted apart from what comes behind it. -/
theorem literalSnippet_balanced {text : List Char} (balanced : Balanced text) (rest : List Char) :
    literalSnippet (text ++ rest) = literalSnippet text ++ literalSnippet rest := by
  induction balanced generalizing rest with
  | nil => rfl
  | escaped c _ ih => simp [literalSnippet, ih]
  | char unescaped _ _ _ ih => simp [literalSnippet_cons unescaped, ih]
  | nested _ _ inside ih =>
      simp [literalSnippet_cons (by decide : '<' ≠ '\\'),
        literalSnippet_cons (by decide : '>' ≠ '\\'), inside, ih]

/-- Text that does not end within a lexeme is converted on its own. -/
theorem literalSnippet_append {chars : List Char} (whole : .slash ∉ lexemes chars)
    (rest : List Char) :
    literalSnippet (chars ++ rest) = literalSnippet chars ++ literalSnippet rest := by
  induction chars using lexeme_induction with
  | nil => rfl
  | slash => simp at whole
  | escaped c chars ih =>
      rw [lexemes_escaped, List.mem_cons, not_or] at whole
      simp [literalSnippet, ih whole.2]
  | run inner chars balanced ih =>
      rw [lexemes_run balanced, List.mem_cons, not_or] at whole
      simp [literalSnippet_cons (by decide : '<' ≠ '\\'),
        literalSnippet_cons (by decide : '>' ≠ '\\'), literalSnippet_balanced balanced, ih whole.2]
  | char c chars unescaped transparent ih =>
      rw [lexemes_char unescaped transparent, List.mem_cons, not_or] at whole
      simp [literalSnippet_cons unescaped, ih whole.2]

/-- Text before segments is converted apart unless its last backslash escapes something of theirs. -/
theorem convertAll_prependText {chars : List Char} {segments : List Segment}
    (whole : .slash ∈ lexemes chars → segments = []) :
    convertAll (prependPlain chars segments) = literalSnippet chars ++ convertAll segments := by
  unfold prependPlain
  split
  case isTrue empty =>
    rw [List.isEmpty_iff.mp empty]
    rfl
  case isFalse =>
    cases segments with
    | nil => rfl
    | cons segment segments =>
        have inner : .slash ∉ lexemes chars := fun member => absurd (whole member) (by simp)
        cases segment with
        | text others =>
            simp [convertAll, Segment.convert, literalSnippet_append inner]
        | group content => rfl

section Digits

variable {digits : List Char} (some : digits ≠ []) (each : ∀ c ∈ digits, c.isDigit = true)

include some each

/-- A group that starts with a number and a colon becomes a tab stop with a preview. -/
theorem convert_numbered (segments : List Segment) :
    (Segment.group (prependPlain (digits ++ [':']) segments)).convert =
      '$' :: '\x7b' :: (digits ++ ':' :: (convertAll segments ++ ['\x7d'])) := by
  have preview := fun isWhole => (groupForm_digits isWhole some each).2
  -- The colon starts a text of its own, or stands before the text that is there.
  obtain ⟨others, later, shape, content⟩ : ∃ others later,
      prependPlain (digits ++ [':']) segments = .text (digits ++ ':' :: others) :: later ∧
        convertAll segments = literalSnippet others ++ convertAll later := by
    cases segments with
    | nil => exact ⟨[], [], by simp [prependPlain], rfl⟩
    | cons segment segments =>
        cases segment with
        | text others => exact ⟨others, segments, by simp [prependPlain], rfl⟩
        | group inner => exact ⟨[], .group inner :: segments, by simp [prependPlain], rfl⟩
  rw [shape, Segment.convert, preview, content]
  simp

/-- A group that is a number becomes a tab stop. -/
theorem convert_number_alone : (Segment.group [.text digits]).convert = '$' :: digits := by
  rw [Segment.convert, List.isEmpty_nil, (groupForm_digits true some each).1]
  rfl

end Digits

theorem Element.segmentsAll_of_lexemesAll_nil {elements : List Element}
    (none : lexemesAll elements = []) (rest : List Segment) :
    segmentsAll rest elements = rest := by
  induction elements using elements_induction with
  | nil => rfl
  | text chars elements ih =>
      obtain ⟨here, later⟩ := List.append_eq_nil_iff.mp none
      have empty : chars = [] := by
        rw [← flatMap_chars_lexemes chars, show Template.lexemes chars = [] from here]
        rfl
      rw [segmentsAll, Element.segments, ih later, empty]
      rfl
  | field number preview elements =>
      simp [lexemesAll, Element.lexemes] at none
  | braces content elements =>
      simp [lexemesAll, Element.lexemes] at none

/-- The segments of an outline are converted to its nodes. -/
theorem Element.convertAll_segmentsAll {elements : List Element} {rest : List Segment}
    (order : (lexemesAll elements).Pairwise Lexeme.Before)
    (ends : .slash ∈ lexemesAll elements → rest = []) :
    convertAll (segmentsAll rest elements) =
      Node.writeAll (nodesAll elements) ++ convertAll rest := by
  induction elements using elements_induction generalizing rest with
  | nil => rfl
  | text chars elements ih =>
      obtain ⟨-, later, across⟩ := List.pairwise_append.mp order
      -- A lone backslash can only be the last lexeme of all, so it escapes nothing of the others.
      have whole : .slash ∈ Template.lexemes chars → segmentsAll rest elements = [] := by
        intro member
        have none : lexemesAll elements = [] := List.eq_nil_iff_forall_not_mem.mpr
          fun l present => (across .slash member l present).1 rfl
        rw [segmentsAll_of_lexemesAll_nil none]
        exact ends (List.mem_append_left _ member)
      rw [segmentsAll, Element.segments, convertAll_prependText whole,
        ih later (ends ∘ List.mem_append_right _), nodesAll, Element.nodes, Node.writeAll_append,
        Node.writeAll_chars, literalSnippet_eq, List.append_assoc]
  | field number preview elements inside ih =>
      obtain ⟨here, later, -⟩ := List.pairwise_append.mp order
      rw [segmentsAll, Element.segments, convertAll, ih later (ends ∘ List.mem_append_right _),
        nodesAll, Node.writeAll_append, List.append_assoc]
      congr 1
      rw [Element.nodes]
      have some := toString_toList_ne_nil number
      have each := fun c (member : c ∈ (toString number).toList) =>
        Text.isDigit_of_mem_toString member
      -- Without a preview the field is a bare stop, and the digits are all that is in its braces.
      by_cases empty : writeAll preview = []
      · rw [if_pos (List.isEmpty_iff.mpr empty),
          if_pos (List.isEmpty_iff.mpr (nodesAll_eq_nil.mpr empty)), convert_number_alone some each]
        simp [Node.writeAll, Node.write]
      · have shown : ¬ (nodesAll preview).isEmpty :=
          fun none => empty (nodesAll_eq_nil.mp (List.isEmpty_iff.mp none))
        rw [Element.lexemes, if_neg (mt List.isEmpty_iff.mp empty)] at here
        have content : (lexemesAll preview).Pairwise Lexeme.Before := by
          obtain ⟨front, -, -⟩ := List.pairwise_append.mp here
          exact (List.pairwise_cons.mp (List.pairwise_append.mp front).2.1).2
        rw [if_neg (mt List.isEmpty_iff.mp empty), if_neg shown, convert_numbered some each,
          inside content fun _ => rfl]
        simp [Node.writeAll, Node.write, convertAll]
  | braces content elements inside ih =>
      obtain ⟨here, later, -⟩ := List.pairwise_append.mp order
      rw [Element.lexemes] at here
      obtain ⟨within, -, across⟩ := List.pairwise_append.mp (List.pairwise_cons.mp here).2
      have inner : .slash ∉ lexemesAll content :=
        fun member => (across .slash member _ List.mem_cons_self).1 rfl
      have opened : .slash ∉ Template.lexemes ['\\', '\x7b'] := by simp
      have closed : .slash ∉ Template.lexemes ['\\', '\x7d'] := by simp
      rw [segmentsAll, Element.segments, convertAll_prependText fun member => absurd member opened,
        inside within fun member => absurd member inner,
        convertAll_prependText fun member => absurd member closed,
        ih later (ends ∘ List.mem_append_right _), nodesAll, Element.nodes]
      simp [Node.writeAll_append, Node.writeAll, Node.write, literalSnippet]

/-! ## The template as an editor shows it -/

/-- The outline of a template. -/
def outline (text : String) : List Element :=
  match parse .standard text with
  | .ok segments => (elements .empty segments).1
  | .error _ => []

/-- The outline of a parsed text has the elements of its segments. -/
theorem outline_of_parse {text : String} {segments : List Segment}
    (parsed : parse .standard text = .ok segments) :
    outline text = (elements .empty segments).1 := by
  rw [outline, parsed]

/-- **Reading.** Where neither markers nor the colons of names are hidden, numbering writes the
outline of a template, and an editor that reads the snippet shows the outline: each field is a
tab stop with its number and its preview, and everything else is text.  This takes that no
digit follows a tab stop without a preview. -/
theorem read_convert_number {text numbered : String}
    (done : number .standard text = .ok numbered)
    (markers : ∀ field ∈ fieldsOf text, markerCounts field = true)
    (names : ∀ field ∈ fieldsOf text, (nameEnd? field).all (· = .char ':') = true)
    (separated : areSeparated (Element.nodesAll (outline text)) = true) :
    ∃ snippet, convert .standard numbered = .ok snippet ∧
      numbered = String.ofList (Element.writeAll (outline text)) ∧
      Snippet.read snippet = Element.nodesAll (outline text) := by
  obtain ⟨segments, parsed⟩ := parse_of_number done
  have shape := outline_of_parse parsed
  rw [fieldsOf_of_parse parsed] at markers names
  rw [number_eq parsed, ← shape] at done
  cases done
  have cuts : CutsLexemes (Segment.fieldsAll segments) := by
    intro field member
    refine ⟨markers field member, ?_⟩
    have colon := names field member
    cases found : nameEnd? field with
    | none => rfl
    | some l =>
        rw [found, Option.all_some, decide_eq_true_iff] at colon
        rw [colon]
        rfl
  obtain ⟨placed, read⟩ := parse_elements parsed cuts
  rw [← shape] at placed read
  have written := Element.convertAll_segmentsAll placed.order
    fun _ => (rfl : ([] : List Segment) = [])
  rw [convertAll, List.append_nil] at written
  refine ⟨String.ofList (Node.writeAll (Element.nodesAll (outline text))), ?_, rfl,
    read_writeAll separated⟩
  rw [convert_of_parse read, written]

/-- A field with another one in its preview, numbered, converted and read. -/
theorem read_convert_number_nested :
    let text := "\x7bn:\x7b<\x7b>!f\x7d\x7b7\x7d!f\x7d \x7bn:!f\x7d\\\x7d$"
    let numbered := "\x7b2:\x7b1:<\x7b>\x7d7\x7d \x7b2\x7d\\\x7d$"
    let nodes : List Node :=
      [.placeholder 2 [.placeholder 1 [.char '<', .char '\x7b', .char '>'], .char '7'],
        .char ' ', .stop 2, .char '\x7d', .char '$']
    number .standard text = .ok numbered ∧
      (∀ field ∈ fieldsOf text, markerCounts field = true) ∧
      (∀ field ∈ fieldsOf text, (nameEnd? field).all (· = .char ':') = true) ∧
      areSeparated (Element.nodesAll (outline text)) = true ∧
      ∃ snippet, convert .standard numbered = .ok snippet ∧ Snippet.read snippet = nodes := by
  intro text numbered nodes
  let segments : List Segment :=
    [.group [.text ['n', ':'], .group [.text ['<', '\x7b', '>', '!', 'f']], .group [.text ['7']],
        .text ['!', 'f']],
      .text [' '], .group [.text ['n', ':', '!', 'f']], .text ['\\', '\x7d', '$']]
  have parsed : parse .standard text = .ok segments := by cbv
  have done : number .standard text = .ok numbered := by
    rw [number_of_parse parsed]
    exact congrArg Except.ok (by decide +kernel)
  have each : ∀ field ∈ fieldsOf text,
      (markerCounts field && (nameEnd? field).all (· = .char ':')) = true := by
    rw [fieldsOf_of_parse parsed]
    exact List.all_eq_true.mp (by cbv)
  simp only [Bool.and_eq_true] at each
  have markers : ∀ field ∈ fieldsOf text, markerCounts field = true :=
    fun field member => (each field member).1
  have names : ∀ field ∈ fieldsOf text, (nameEnd? field).all (· = .char ':') = true :=
    fun field member => (each field member).2
  have shown : Element.nodesAll (outline text) = nodes := by
    rw [outline_of_parse parsed]
    cbv
  have separated : areSeparated (Element.nodesAll (outline text)) = true := by
    rw [shown]
    cbv
  obtain ⟨snippet, converted, -, read⟩ := read_convert_number done markers names separated
  exact ⟨done, markers, names, separated, snippet, converted, read.trans shown⟩

/-- A digit after a tab stop without a preview is read as part of its number. -/
theorem read_convert_number_digit :
    number .standard "\x7b!f\x7d5" = .ok "\x7b1\x7d5" ∧
      convert .standard "\x7b1\x7d5" = .ok "$15" ∧
      Snippet.read "$15" = [.stop 15] ∧
      Element.nodesAll (outline "\x7b!f\x7d5") = [.stop 1, .char '5'] := by
  refine ⟨?_, ?_, ?_, ?_⟩
  · cbv
  · cbv
  · cbv
  · cbv

end Template

end DocSketch
