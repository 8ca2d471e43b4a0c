import DocSketch.Template.Numbering
import DocSketch.Template.Snippet
import DocSketch.Proofs.Template.Building

/-!
# Passes over the groups of a template

Numbering and conversion go through the groups in the order in which they were closed, and enter
what each is rendered as into a table, from which the group around it takes it.  A group finds
the groups inside it rendered; so both passes compute what a recursion over the segments of the
template computes.

* `Template.renderedAll`: segments, rendered from the inside out.
* `Template.Stored.render`: what a pass enters for the groups in segments.
* `Template.render_flatten`: a pass renders the template as the recursion does.
* `Template.numberAll`, `Template.convertAll`: the recursions for numbering and conversion.
* `Template.number_of_parse`, `Template.convert_of_parse`: what both passes come to.
-/

namespace DocSketch

namespace Template

/-! ## Rendering from the inside out -/

section Rendering

variable {σ : Type} (options : TemplateOptions) (renderer : Arena.Renderer σ)

mutual

/-- A segment as an item whose group has been rendered. -/
def Segment.rendered (state : σ) : Segment → Fragment × σ
  | .text chars => (.text chars, state)
  | .group segments =>
    let (fragments, inner) := renderedAll state segments
    let (chars, used) := renderer.group (isField options segments) fragments inner
    (.rendered chars, used)

/-- Segments, rendered from left to right. -/
def renderedAll (state : σ) : List Segment → List Fragment × σ
  | [] => ([], state)
  | segment :: segments =>
    let (first, used) := segment.rendered state
    let (others, final) := renderedAll used segments
    (first :: others, final)

end

variable {options renderer}

/-- A text is rendered as it is. -/
theorem renderedAll_text (state : σ) (chars : List Char) (segments : List Segment) :
    renderedAll options renderer state (.text chars :: segments) =
      (.text chars :: (renderedAll options renderer state segments).1,
        (renderedAll options renderer state segments).2) := rfl

/-- A group is rendered when what is inside of it has been. -/
theorem renderedAll_group (state : σ) (inner segments : List Segment) :
    renderedAll options renderer state (.group inner :: segments) =
      let inside := renderedAll options renderer state inner
      let group := renderer.group (isField options inner) inside.1 inside.2
      (.rendered group.1 :: (renderedAll options renderer group.2 segments).1,
        (renderedAll options renderer group.2 segments).2) := rfl

/-- The first fragment is the text that comes first. -/
theorem leadingFragment_renderedAll (state : σ) (segments : List Segment) :
    leadingFragment (renderedAll options renderer state segments).1 = leadingText segments := by
  cases segments with
  | nil => rfl
  | cons segment segments => cases segment <;> rfl

/-- Each segment is rendered as one fragment. -/
theorem length_renderedAll (state : σ) (segments : List Segment) :
    (renderedAll options renderer state segments).1.length = segments.length := by
  induction segments generalizing state with
  | nil => rfl
  | cons segment segments ih => exact congrArg Nat.succ (ih _)

/-- Rendering a group whose inner groups have been rendered. -/
theorem renderGroup_eq {arena : Arena} {table : List (List Char)} {state : σ} {index : Nat}
    {group : Group} (here : arena.groups[index]? = some group) (inner : index ≠ 0) :
    arena.renderGroup renderer (table, state) index =
      let rendered := renderer.group group.isField (group.items.map (Item.fragment table)) state
      (table.set index rendered.1, rendered.2) := by
  simp only [Arena.renderGroup, List.getD_eq_getElem?_getD, here, Option.getD_some, inner,
    ↓reduceIte]

/-- A pass that goes through the groups in segments enters what the segments are rendered as, and
changes no entry before theirs. -/
theorem Stored.render {arena : Arena} {parent next : Nat} {segments : List Segment}
    (stored : Stored options arena.groups parent next segments) (positive : 0 < next)
    {table : List (List Char)} (room : next + groupCountAll segments ≤ table.length) (state : σ) :
    ∃ filled,
      (closingInside next segments).foldl (arena.renderGroup renderer) (table, state) =
        (filled, (renderedAll options renderer state segments).2) ∧
      (itemsFrom next segments).map (Item.fragment filled) =
        (renderedAll options renderer state segments).1 ∧
      filled.length = table.length ∧ ∀ index < next, filled[index]? = table[index]? := by
  induction segments using segments_induction generalizing parent next table state with
  | nil => exact ⟨table, rfl, rfl, rfl, fun _ _ => rfl⟩
  | text chars segments ih =>
      rw [groupCountAll, Segment.groupCount, Nat.zero_add] at room
      obtain ⟨filled, run, items, kept⟩ := ih stored.text positive room state
      refine ⟨filled, run, ?_, kept⟩
      rw [itemsFrom, List.map_cons, items, renderedAll_text]
      rfl
  | group inner segments inside ih =>
      rw [groupCountAll, Segment.groupCount] at room
      obtain ⟨here, within, after⟩ := stored.group
      obtain ⟨content, run, items, length, kept⟩ := inside within (Nat.succ_pos next)
        (show next + 1 + groupCountAll inner ≤ table.length by omega) state
      -- The group itself comes after those inside it, and before those behind it.
      obtain ⟨chars, used, rendered⟩ : ∃ chars used,
          renderer.group (isField options inner) (renderedAll options renderer state inner).1
            (renderedAll options renderer state inner).2 = (chars, used) := ⟨_, _, rfl⟩
      have own : arena.renderGroup renderer
          (content, (renderedAll options renderer state inner).2) next =
            (content.set next chars, used) := by
        rw [renderGroup_eq here (Nat.ne_of_gt positive)]
        simp only [groupOf, items, rendered]
      have room' : next + 1 + groupCountAll inner + groupCountAll segments ≤
          (content.set next chars).length := by
        rw [List.length_set, length]
        omega
      obtain ⟨filled, later, others, length', kept'⟩ := ih after (by omega) room' used
      have entry : filled[next]? = some chars := by
        rw [kept' next (by omega), List.getElem?_set_self (by omega)]
      have whole : renderedAll options renderer state (.group inner :: segments) =
          (.rendered chars :: (renderedAll options renderer used segments).1,
            (renderedAll options renderer used segments).2) := by
        rw [renderedAll_group]
        simp only [rendered]
      rw [whole]
      refine ⟨filled, ?_, ?_, by rw [length', List.length_set, length], ?_⟩
      · rw [closingInside, Segment.closing, Segment.groupCount, ← Nat.add_assoc,
          List.append_assoc, List.foldl_append, run, List.singleton_append, List.foldl_cons, own,
          later]
      · rw [itemsFrom, List.map_cons, others, Item.fragment, List.getD_eq_getElem?_getD, entry,
          Option.getD_some]
      · intro index below
        rw [kept' index (by omega), List.getElem?_set_ne (by omega), kept index (by omega)]

/-- A pass renders the template as rendering it from the inside out does. -/
theorem render_flatten (segments : List Segment) (state : σ) :
    (flatten options segments).render renderer state =
      renderer.whole (renderedAll options renderer state segments).1 := by
  have room : 1 + groupCountAll segments ≤
      (List.replicate (flatten options segments).groups.length ([] : List Char)).length :=
    Nat.le_of_eq (List.length_replicate.trans (length_groups options segments)).symm
  have stored : Stored options (flatten options segments).groups 0 1 segments := stored_groups
  obtain ⟨filled, run, items, length, -⟩ := stored.render Nat.one_pos room state
  have below : 0 < filled.length := by omega
  have root : (flatten options segments).closed = closingInside 1 segments ++ [0] := rfl
  have first : (flatten options segments).groups.getD 0 default =
      { groupOf options none 0 segments with isField := false } := rfl
  rw [Arena.render, root, List.foldl_append, run, List.foldl_cons, List.foldl_nil,
    Arena.renderGroup]
  simp only [first, groupOf, ↓reduceIte, items, List.getD_eq_getElem?_getD,
    List.getElem?_set_self below, Option.getD_some]

end Rendering

/-! ## Numbering -/

mutual

/-- Numbers the fields of a segment. -/
def Segment.number (options : TemplateOptions) (numbering : Numbering) :
    Segment → List Char × Numbering
  | .text chars => (chars, numbering)
  | .group segments =>
    let (content, inner) := numberAll options numbering segments
    if isField options segments then numberField options inner (leadingText segments) content
    else (writePlain content, inner)

/-- Numbers the fields of segments from left to right. -/
def numberAll (options : TemplateOptions) (numbering : Numbering) :
    List Segment → List Char × Numbering
  | [] => ([], numbering)
  | segment :: segments =>
    let (first, used) := segment.number options numbering
    let (others, final) := numberAll options used segments
    (first ++ others, final)

end

/-- Segments, numbered from the inside out. -/
theorem numberAll_eq_rendered (options : TemplateOptions) (numbering : Numbering)
    (segments : List Segment) :
    let rendered := renderedAll options (numberRenderer options) numbering segments
    (rendered.1.flatMap Fragment.chars, rendered.2) = numberAll options numbering segments := by
  induction segments using segments_induction generalizing numbering with
  | nil => rfl
  | text chars segments ih =>
      simp only [numberAll, Segment.number, ← ih]
      rfl
  | group inner segments inside ih =>
      have first : (Segment.group inner).number options numbering =
          let rendered := renderedAll options (numberRenderer options) numbering inner
          (numberRenderer options).group (isField options inner) rendered.1 rendered.2 := by
        simp only [Segment.number, ← inside, numberRenderer, leadingFragment_renderedAll]
      simp only [numberAll, first, ← ih, renderedAll_group]
      rfl

/-- The pass over the groups numbers a text as the recursion over its segments does. -/
theorem number_of_parse {options : TemplateOptions} {text : String} {segments : List Segment}
    (parsed : parse options text = .ok segments) :
    number options text = .ok (String.ofList (numberAll options Numbering.empty segments).1) := by
  rw [number, build_of_parse parsed, ← numberAll_eq_rendered]
  exact congrArg (fun chars => Except.ok (String.ofList chars)) (render_flatten segments _)

/-! ## Conversion -/

mutual

/-- A segment of a numbered template in a snippet. -/
def Segment.convert : Segment → List Char
  | .text chars => literalSnippet chars
  | .group (.text chars :: segments) =>
    match groupForm chars segments.isEmpty with
    | .stop digits => ['$'] ++ digits
    | .preview digits rest =>
      ['$', '\x7b'] ++ digits ++ [':'] ++ literalSnippet rest ++ convertAll segments ++ ['\x7d']
    | .plain => ['\x7b'] ++ literalSnippet chars ++ convertAll segments ++ ['\x7d']
  | .group segments => ['\x7b'] ++ convertAll segments ++ ['\x7d']

/-- Segments of a numbered template in a snippet. -/
def convertAll : List Segment → List Char
  | [] => []
  | segment :: segments => segment.convert ++ convertAll segments

end

/-- The preview of a group starts behind its number and the colon. -/
theorem drop_of_groupForm {leading digits rest : List Char} {isWhole : Bool}
    (form : groupForm leading isWhole = .preview digits rest) :
    leading.drop (digits.length + 1) = rest := by
  have whole := List.takeWhile_append_dropWhile (p := Char.isDigit) (l := leading)
  simp only [groupForm] at form
  split at form
  case isTrue => cases form
  case isFalse =>
    split at form
    case h_1 =>
      split at form
      · cases form
      · cases form
    case h_2 c others after =>
      split at form
      case isTrue colon =>
        cases form
        generalize leading.takeWhile Char.isDigit = digits at whole
        rw [← whole, after, ← List.drop_drop, List.drop_left, List.drop_one, List.tail_cons]
      case isFalse => cases form

/-- From the first character on, all fragments are converted. -/
theorem snippetFragments_zero (fragments : List Fragment) :
    snippetFragments 0 fragments = fragments.flatMap Fragment.snippet := by
  rcases fragments with - | ⟨- | -, fragments⟩ <;> rfl

/-- A group whose content has been converted is converted. -/
theorem snippetGroup_renderedAll {options : TemplateOptions} {inner : List Segment}
    (inside : (renderedAll options snippetRenderer () inner).1.flatMap Fragment.snippet =
      convertAll inner) :
    snippetGroup (renderedAll options snippetRenderer () inner).1 =
      (Segment.group inner).convert := by
  have plain := (snippetFragments_zero _).trans inside
  rcases inner with - | ⟨chars | content, segments⟩
  · rfl
  · have alone :
        ((renderedAll options snippetRenderer () (.text chars :: segments)).1.length == 1) =
          segments.isEmpty := by
      rw [length_renderedAll]
      cases segments <;> rfl
    have rest : (renderedAll options snippetRenderer () segments).1.flatMap Fragment.snippet =
        convertAll segments := List.append_cancel_left inside
    rw [snippetGroup, leadingFragment_renderedAll, alone, leadingText, Segment.convert]
    cases form : groupForm chars segments.isEmpty with
    | stop digits => rfl
    | preview digits others =>
        simp only [renderedAll_text, snippetFragments, drop_of_groupForm form, rest,
          List.append_assoc]
    | plain => simp only [plain, convertAll, Segment.convert, List.append_assoc]
  · rw [snippetGroup, leadingFragment_renderedAll, leadingText, Segment.convert, plain]
    · rfl
    · exact fun _ _ => nofun
    · exact fun _ _ => nofun

/-- Segments of a numbered template, converted from the inside out. -/
theorem convertAll_eq_rendered (options : TemplateOptions) (segments : List Segment) :
    (renderedAll options snippetRenderer () segments).1.flatMap Fragment.snippet =
      convertAll segments := by
  induction segments using segments_induction with
  | nil => rfl
  | text chars segments ih =>
      rw [convertAll, Segment.convert, ← ih]
      rfl
  | group inner segments inside ih =>
      rw [convertAll, ← snippetGroup_renderedAll inside, ← ih, renderedAll_group, List.flatMap_cons]
      rfl

/-- The pass over the groups converts a text as the recursion over its segments does. -/
theorem convert_of_parse {options : TemplateOptions} {text : String} {segments : List Segment}
    (parsed : parse options text = .ok segments) :
    convert options text = .ok (String.ofList (convertAll segments)) := by
  rw [convert, build_of_parse parsed, ← convertAll_eq_rendered options, ← snippetFragments_zero]
  exact congrArg (fun chars => Except.ok (String.ofList chars)) (render_flatten segments _)

end Template

end DocSketch
