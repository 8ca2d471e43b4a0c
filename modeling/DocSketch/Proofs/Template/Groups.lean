import Mathlib
import DocSketch.Proofs.Template.Composition

/-!
# Groups hold their template

The flat list that the scan of a template builds says as much as the template: it is a tree in
which every group knows where it stands, and writing the tree gives the template back.  The order
in which groups close is the left-to-right post-order of that tree.

* `Template.Assembled`: what is put together from items and from the groups that they name.
* `Template.Lossless`: a list of groups is a tree that holds a text.
* `Template.ClosesInOrder`: numbers of groups in the order in which the groups close.
* `Template.groups_lossless`: the scan of a template builds such a tree, closed in this order.
-/

namespace DocSketch

namespace Template

/-! ## Texts between braces -/

/-- No text is empty, and none stands next to another; `text` tells which entries are texts. -/
structure Tidy {α : Type} (text : α → Option (List Char)) (entries : List α) : Prop where
  filled : ∀ entry ∈ entries, text entry ≠ some []
  apart : entries.IsChain fun first second => text first = none ∨ text second = none

/-- A stretch of tidy entries is tidy. -/
theorem Tidy.part {α : Type} {text : α → Option (List Char)} {part entries : List α}
    (tidy : Tidy text entries) (within : part <:+: entries) : Tidy text part where
  filled entry member := tidy.filled entry (within.subset member)
  apart := tidy.apart.infix within

/-- An entry before tidy ones is so too if it is not empty and no text meets a text. -/
theorem Tidy.cons {α : Type} {text : α → Option (List Char)} {entries : List α} {entry : α}
    (tidy : Tidy text entries) (filled : text entry ≠ some [])
    (apart : ∀ next ∈ entries.head?, text entry = none ∨ text next = none) :
    Tidy text (entry :: entries) where
  filled := List.forall_mem_cons.mpr ⟨filled, tidy.filled⟩
  apart := List.isChain_cons.mpr ⟨apart, tidy.apart⟩

def Piece.text? : Piece → Option (List Char)
  | .text chars => some chars
  | .opening | .closing => none

def Item.text? : Item → Option (List Char)
  | .text chars => some chars
  | .group _ => none

/-- The characters of a text before pieces come first. -/
theorem flatMap_chars_prependText (chars : List Char) (pieces : List Piece) :
    (prependText chars pieces).flatMap Piece.chars = chars ++ pieces.flatMap Piece.chars := by
  unfold prependText
  split
  · simp [Piece.chars]
  · rfl

/-- Text before tidy pieces joins a text that is first. -/
theorem tidy_prependText {chars : List Char} {pieces : List Piece} (some : chars ≠ [])
    (tidy : Tidy Piece.text? pieces) : Tidy Piece.text? (prependText chars pieces) := by
  unfold prependText
  split
  case h_1 others rest =>
    obtain ⟨between, after⟩ := List.isChain_cons.mp tidy.apart
    refine (tidy.part (List.suffix_cons _ _).isInfix).cons (by simp [Piece.text?, some]) ?_
    intro next first
    exact .inr ((between next first).resolve_left (by simp [Piece.text?]))
  case h_2 other =>
    refine tidy.cons (by simpa [Piece.text?] using some) ?_
    intro next first
    obtain ⟨rest, rfl⟩ := List.head?_eq_some_iff.mp first
    cases next with
    | opening | closing => exact .inr rfl
    | text others => exact absurd rfl (other others rest)

/-- Cutting a template leaves no character out. -/
theorem flatMap_chars_cut (options : TemplateOptions) (cs : List Char) :
    (cut options cs).flatMap Piece.chars = cs := by
  fun_induction cut options cs with
  | case1 => rfl
  | case2 rest ih => rw [flatMap_chars_prependText, ih, List.cons_append, List.take_append_drop]
  | case3 c rest _ _ ih => rw [flatMap_chars_prependText, ih, List.take_append_drop]
  | case4 rest _ _ ih => rw [List.flatMap_cons, ih]; rfl
  | case5 rest _ _ _ ih => rw [List.flatMap_cons, ih]; rfl
  | case6 c rest _ _ _ _ ih => rw [flatMap_chars_prependText, ih]; rfl

/-- A text is cut into tidy pieces. -/
theorem tidy_cut (options : TemplateOptions) (cs : List Char) :
    Tidy Piece.text? (cut options cs) := by
  fun_induction cut options cs with
  | case1 => exact ⟨by simp, List.isChain_nil⟩
  | case2 rest ih => exact tidy_prependText (by simp) ih
  | case3 c rest _ hidden ih => exact tidy_prependText (by simpa using hidden) ih
  | case4 rest _ _ ih => exact ih.cons (by simp [Piece.text?]) fun _ _ => .inl rfl
  | case5 rest _ _ _ ih => exact ih.cons (by simp [Piece.text?]) fun _ _ => .inl rfl
  | case6 c rest _ _ _ _ ih => exact tidy_prependText (by simp) ih

/-- The pieces of the segments are those that the text is cut into. -/
theorem piecesAll_eq_cut {options : TemplateOptions} {text : String} {segments : List Segment}
    (parsed : parse options text = .ok segments) :
    piecesAll segments = cut options text.toList := piecesAll_of_nest parsed

/-- The pieces of segments write them. -/
theorem flatMap_chars_piecesAll (segments : List Segment) :
    (piecesAll segments).flatMap Piece.chars = writeAll segments := by
  induction segments using segments_induction with
  | nil => rfl
  | text chars segments ih =>
      simp [piecesAll, Segment.pieces, writeAll, Segment.write, Piece.chars, ih]
  | group inner segments inside ih =>
      simp [piecesAll, Segment.pieces, writeAll, Segment.write, Piece.chars, ih, inside]

/-- The segments of a template are written as the template. -/
theorem writeAll_of_parse {options : TemplateOptions} {text : String} {segments : List Segment}
    (parsed : parse options text = .ok segments) : writeAll segments = text.toList := by
  rw [← flatMap_chars_piecesAll, piecesAll_eq_cut parsed, flatMap_chars_cut]

/-- The pieces of a group are those inside, between its braces. -/
theorem piecesAll_group (inner segments : List Segment) :
    piecesAll (.group inner :: segments) =
      [.opening] ++ piecesAll inner ++ (.closing :: piecesAll segments) := by
  simp [piecesAll, Segment.pieces]

/-- Segments of tidy pieces make tidy items. -/
theorem tidy_itemsFrom {segments : List Segment} (next : Nat)
    (tidy : Tidy Piece.text? (piecesAll segments)) : Tidy Item.text? (itemsFrom next segments) := by
  induction segments using segments_induction generalizing next with
  | nil => exact ⟨by simp [itemsFrom], List.isChain_nil⟩
  | text chars segments ih =>
      obtain ⟨between, -⟩ := List.isChain_cons.mp tidy.apart
      refine (ih next (tidy.part (List.suffix_cons _ _).isInfix)).cons
        (tidy.filled (.text chars) List.mem_cons_self) ?_
      intro item first
      cases segments with
      | nil => cases first
      | cons segment segments =>
          cases segment with
          | text others => exact absurd (between (.text others) rfl) (by simp [Piece.text?])
          | group inner =>
              cases first
              exact .inr rfl
  | group inner segments inside ih =>
      rw [piecesAll_group] at tidy
      have rest := (tidy.part (List.suffix_append _ _).isInfix).part
        (List.suffix_cons _ _).isInfix
      exact (ih _ rest).cons (by simp [Item.text?]) fun _ _ => .inl rfl

/-! ## Groups in their list -/

def Item.index? : Item → Option Nat
  | .text _ => none
  | .group index => some index

/-- Numbers of the groups among items. -/
def children (items : List Item) : List Nat := items.filterMap Item.index?

/-- The children are the group that comes first and those behind what is inside of it. -/
theorem children_group (next : Nat) (inner segments : List Segment) :
    children (itemsFrom next (.group inner :: segments)) =
      next :: children (itemsFrom (next + 1 + groupCountAll inner) segments) := rfl

/-- The number of the group that a group stands in. -/
def parentOf (arena : List Group) (index : Nat) : Option Nat :=
  arena[index]?.bind Group.parent

section Stored

variable {options : TemplateOptions} {arena : List Group} {parent next : Nat}

/-- The group with the number `index` and the given content is among segments whose first
group has the number `next`. -/
inductive Among : Nat → List Segment → Nat → List Segment → Prop
  | here (next : Nat) (inner segments : List Segment) :
      Among next (.group inner :: segments) next inner
  | inside {next index : Nat} {inner content : List Segment} (segments : List Segment)
      (within : Among (next + 1) inner index content) :
      Among next (.group inner :: segments) index content
  | later {next index : Nat} (segment : Segment) {segments content : List Segment}
      (after : Among (next + segment.groupCount) segments index content) :
      Among next (segment :: segments) index content

/-- Each number of a group among segments has its content. -/
theorem exists_among {index : Nat} {segments : List Segment} (least : next ≤ index)
    (below : index < next + groupCountAll segments) :
    ∃ content, Among next segments index content := by
  induction segments using segments_induction generalizing next with
  | nil =>
      rw [groupCountAll] at below
      omega
  | text chars segments ih =>
      rw [groupCountAll, Segment.groupCount, Nat.zero_add] at below
      obtain ⟨content, among⟩ := ih least below
      exact ⟨content, .later (.text chars) among⟩
  | group inner segments inside ih =>
      rw [groupCountAll, Segment.groupCount] at below
      rcases Nat.eq_or_lt_of_le least with rfl | above
      · exact ⟨inner, .here next inner segments⟩
      · by_cases within : index < next + 1 + groupCountAll inner
        · obtain ⟨content, among⟩ := inside above within
          exact ⟨content, .inside segments among⟩
        · have beyond : next + (Segment.group inner).groupCount ≤ index := by
            rw [Segment.groupCount]
            omega
          obtain ⟨content, among⟩ := ih beyond (by rw [Segment.groupCount]; omega)
          exact ⟨content, .later (.group inner) among⟩

/-- The groups among segments are numbered from the next number on. -/
theorem Among.le {index : Nat} {segments content : List Segment}
    (among : Among next segments index content) : next ≤ index := by
  induction among with
  | here => exact Nat.le_refl _
  | inside segments within ih => exact Nat.le_of_succ_le ih
  | later segment after ih => exact Nat.le_trans (Nat.le_add_right _ _) ih

/-- The pieces of a group are a stretch of those around it. -/
theorem Among.infix_piecesAll {index : Nat} {segments content : List Segment}
    (among : Among next segments index content) : piecesAll content <:+: piecesAll segments := by
  induction among with
  | here next inner segments =>
      rw [piecesAll_group]
      exact List.infix_append _ _ _
  | inside segments within ih =>
      rw [piecesAll_group]
      exact ih.trans (List.infix_append _ _ _)
  | later segment after ih => exact ih.trans (List.suffix_append _ _).isInfix

/-- A group closes after all that is inside it, and nothing comes in between. -/
theorem Among.infix_closing {index : Nat} {segments content : List Segment}
    (among : Among next segments index content) :
    closingInside (index + 1) content ++ [index] <:+: closingInside next segments := by
  induction among with
  | here next inner segments => exact (List.prefix_append _ _).isInfix
  | inside segments within ih =>
      rw [closingInside, Segment.closing, List.append_assoc]
      exact ih.trans (List.prefix_append _ _).isInfix
  | later segment after ih => exact ih.trans (List.suffix_append _ _).isInfix

/-- Numbers of the groups among items. -/
theorem mem_children_itemsFrom {segments : List Segment} {index : Nat}
    (member : index ∈ children (itemsFrom next segments)) :
    next ≤ index ∧ index < next + groupCountAll segments := by
  induction segments using segments_induction generalizing next with
  | nil => simp [itemsFrom, children] at member
  | text chars segments ih =>
      rw [groupCountAll, Segment.groupCount, Nat.zero_add]
      exact ih member
  | group inner segments inside ih =>
      rw [groupCountAll, Segment.groupCount]
      rw [children_group] at member
      rcases List.mem_cons.mp member with rfl | later
      · omega
      · have := ih later
        omega

/-- Children are numbered in increasing order. -/
theorem pairwise_children_itemsFrom (segments : List Segment) (next : Nat) :
    (children (itemsFrom next segments)).Pairwise (· < ·) := by
  induction segments using segments_induction generalizing next with
  | nil => exact List.Pairwise.nil
  | text chars segments ih => exact ih next
  | group inner segments inside ih =>
      rw [children_group]
      refine List.pairwise_cons.mpr ⟨?_, ih _⟩
      intro index later
      have := (mem_children_itemsFrom later).1
      omega

/-- A group that stands among the items of another one names it as its parent. -/
theorem Stored.parentOf_child {segments : List Segment} {index : Nat}
    (stored : Stored options arena parent next segments)
    (member : index ∈ children (itemsFrom next segments)) :
    parentOf arena index = some parent := by
  induction segments using segments_induction generalizing next with
  | nil => simp [itemsFrom, children] at member
  | text chars segments ih => exact ih stored.text member
  | group inner segments inside ih =>
      obtain ⟨here, -, after⟩ := stored.group
      rw [children_group] at member
      rcases List.mem_cons.mp member with rfl | later
      · rw [parentOf, here]
        rfl
      · exact ih after later

/-- A group stands in the list with its number, and among the items of its parent. -/
theorem Stored.among {segments content : List Segment} {index : Nat}
    (stored : Stored options arena parent next segments)
    (among : Among next segments index content) :
    ∃ owner, arena[index]? = some (groupOf options (some owner) index content) ∧
      Stored options arena index (index + 1) content ∧
      (owner = parent ∧ index ∈ children (itemsFrom next segments) ∨
        owner < index ∧ ∃ group, arena[owner]? = some group ∧ index ∈ children group.items) := by
  induction among generalizing parent with
  | here next inner segments =>
      obtain ⟨here, within, -⟩ := stored.group
      exact ⟨parent, here, within, .inl ⟨rfl, List.mem_cons_self⟩⟩
  | inside segments within ih =>
      obtain ⟨here, inside, -⟩ := stored.group
      obtain ⟨owner, found, below, ⟨rfl, member⟩ | other⟩ := ih inside
      · exact ⟨owner, found, below, .inr ⟨within.le, _, here, member⟩⟩
      · exact ⟨owner, found, below, .inr other⟩
  | later segment after ih =>
      cases segment with
      | text chars =>
          obtain ⟨owner, found, below, member | other⟩ := ih stored.text
          · exact ⟨owner, found, below, .inl member⟩
          · exact ⟨owner, found, below, .inr other⟩
      | group inner =>
          obtain ⟨-, -, rest⟩ := stored.group
          rw [Nat.add_assoc, ← Segment.groupCount] at rest
          obtain ⟨owner, found, below, ⟨rfl, member⟩ | other⟩ := ih rest
          · refine ⟨owner, found, below, .inl ⟨rfl, ?_⟩⟩
            rw [children_group, Nat.add_assoc, ← Segment.groupCount]
            exact List.mem_cons_of_mem _ member
          · exact ⟨owner, found, below, .inr other⟩

end Stored

/-! ## Closing -/

/-- Every group closes once. -/
theorem closingInside_perm (segments : List Segment) (next : Nat) :
    (closingInside next segments).Perm (List.range' next (groupCountAll segments)) := by
  induction segments using segments_induction generalizing next with
  | nil => exact .nil
  | text chars segments ih =>
      rw [groupCountAll, Segment.groupCount, Nat.zero_add]
      exact ih next
  | group inner segments inside ih =>
      have first : ((Segment.group inner).closing next).Perm
          (List.range' next (1 + groupCountAll inner)) := by
        rw [Segment.closing, Nat.add_comm 1, List.range'_succ]
        exact List.perm_append_comm.trans ((inside (next + 1)).cons next)
      rw [closingInside, groupCountAll, Segment.groupCount, ← List.range'_append_1]
      exact first.append (ih _)

/-- Each group closes once. -/
theorem bottomUp_perm (segments : List Segment) :
    (bottomUp segments).Perm (List.range (1 + groupCountAll segments)) := by
  rw [bottomUp, List.range_eq_range', Nat.add_comm, List.range'_succ]
  exact List.perm_append_comm.trans ((closingInside_perm segments 1).cons 0)

/-- A group among items closes with them. -/
theorem mem_closingInside {segments : List Segment} {next index : Nat}
    (member : index ∈ children (itemsFrom next segments)) :
    index ∈ closingInside next segments := by
  obtain ⟨least, below⟩ := mem_children_itemsFrom member
  exact (closingInside_perm segments next).mem_iff.mpr (List.mem_range'_1.mpr ⟨least, below⟩)

/-! ## What items stand for -/

section Assembled

variable {α : Type} (arena : List Group) (text : List Char → List α)
  (around : Nat → Group → List α → List α)

/-- What is put together from items: `text` of each text, and of each group that is named what
`around` makes of it and of what is put together from its own items. -/
inductive Assembled : List Item → List α → Prop
  | nil : Assembled [] []
  | text (chars : List Char) {items : List Item} {rest : List α} (later : Assembled items rest) :
      Assembled (.text chars :: items) (text chars ++ rest)
  | group {index : Nat} {group : Group} {items : List Item} {inside rest : List α}
      (found : arena[index]? = some group) (within : Assembled group.items inside)
      (later : Assembled items rest) :
      Assembled (.group index :: items) (around index group inside ++ rest)

variable {arena text around}

/-- Items are assembled in one way only. -/
theorem Assembled.unique {items : List Item} {first second : List α}
    (one : Assembled arena text around items first)
    (other : Assembled arena text around items second) : first = second := by
  induction one generalizing second with
  | nil =>
      cases other
      rfl
  | text chars later ih =>
      cases other with
      | text _ later' => rw [ih later']
  | group found within later inside rest =>
      cases other with
      | group found' within' later' =>
          cases found.symm.trans found'
          rw [inside within', rest later']

/-- A function of segments that is computed segment by segment is what is put together from
their items. -/
theorem Stored.assembled {options : TemplateOptions} (result : Nat → List Segment → List α)
    (nil : ∀ next, result next [] = [])
    (texts : ∀ next chars segments,
      result next (.text chars :: segments) = text chars ++ result next segments)
    (groups : ∀ next parent inner segments, result next (.group inner :: segments) =
      around next (groupOf options parent next inner) (result (next + 1) inner) ++
        result (next + 1 + groupCountAll inner) segments)
    {segments : List Segment} {parent next : Nat}
    (stored : Stored options arena parent next segments) :
    Assembled arena text around (itemsFrom next segments) (result next segments) := by
  induction segments using segments_induction generalizing parent next with
  | nil =>
      rw [nil]
      exact .nil
  | text chars segments ih =>
      rw [texts]
      exact .text chars (ih stored.text)
  | group inner segments inside ih =>
      obtain ⟨here, within, after⟩ := stored.group
      rw [groups next (some parent)]
      exact .group here (inside within) (ih after)

end Assembled

/-- The items of a group written out, each group inside it as its own items in braces. -/
def Writes (arena : List Group) : List Item → List Char → Prop :=
  Assembled arena id fun _ _ inside => ['\x7b'] ++ inside ++ ['\x7d']

/-- Numbers of the groups named by items and of those inside them: left to right, each after
the groups inside it. -/
def PostOrder (arena : List Group) : List Item → List Nat → Prop :=
  Assembled arena (fun _ => []) fun index _ inside => inside ++ [index]

/-- Items write the segments that are stored. -/
theorem Stored.writes {options : TemplateOptions} {arena : List Group} {parent next : Nat}
    {segments : List Segment} (stored : Stored options arena parent next segments) :
    Writes arena (itemsFrom next segments) (writeAll segments) :=
  stored.assembled (fun _ => writeAll) (fun _ => rfl) (fun _ _ _ => rfl) fun _ _ _ _ => rfl

/-- The groups that are stored close in post-order. -/
theorem Stored.postOrder {options : TemplateOptions} {arena : List Group} {parent next : Nat}
    {segments : List Segment} (stored : Stored options arena parent next segments) :
    PostOrder arena (itemsFrom next segments) (closingInside next segments) := by
  refine stored.assembled closingInside (fun _ => rfl) (fun _ _ _ => rfl) ?_
  intro next parent inner segments
  rw [closingInside, Segment.closing, Segment.groupCount, Nat.add_assoc]

/-! ## The tree -/

/-- A list of groups is a tree that holds a text. -/
structure Lossless (arena : List Group) (text : List Char) : Prop where
  /-- The first group is the whole text. -/
  root : ∃ group, arena[0]? = some group ∧ group.raw = text ∧ group.parent = none
  /-- The items of a group, written out, are its text and nothing else. -/
  written : ∀ group ∈ arena, ∀ chars, Writes arena group.items chars ↔ chars = group.raw
  parent : ∀ index, 0 < index → index < arena.length →
    ∃ parent < index, parentOf arena index = some parent
  /-- A group stands among the items of its parent, once, and nowhere else. -/
  children : ∀ index group, arena[index]? = some group →
    children group.items =
      (List.range arena.length).filter fun child => parentOf arena child = some index
  tidy : ∀ group ∈ arena, Tidy Item.text? group.items

/-- Numbers of groups in the order in which the groups close. -/
structure ClosesInOrder (arena : List Group) (order : List Nat) : Prop where
  postOrder : PostOrder arena [.group 0] order
  perm : order.Perm (List.range arena.length)
  /-- A group closes after the groups inside it. -/
  late : ∀ before index after, order = before ++ index :: after →
    ∀ child, parentOf arena child = some index → child ∈ before

/-- The group with the number `index` has the given content. -/
structure Represents (options : TemplateOptions) (arena : List Group) (index : Nat)
    (group : Group) (content : List Segment) : Prop where
  found : arena[index]? = some group
  raw : group.raw = writeAll content
  items : group.items = itemsFrom (index + 1) content
  stored : Stored options arena index (index + 1) content

section Groups

variable {options : TemplateOptions} {segments : List Segment}

/-- The root represents the segments. -/
theorem represents_root :
    Represents options (groups options segments) 0
      { groupOf options none 0 segments with isField := false } segments where
  found := rfl
  raw := rfl
  items := rfl
  stored := stored_groups

/-- Every group has a content, which is a part of the template and closes with it. -/
theorem exists_represents {index : Nat} {group : Group}
    (found : (groups options segments)[index]? = some group) :
    ∃ content, Represents options (groups options segments) index group content ∧
      piecesAll content <:+: piecesAll segments ∧
      closingInside (index + 1) content ++ [index] <:+: bottomUp segments := by
  obtain ⟨below, -⟩ := List.getElem?_eq_some_iff.mp found
  rw [length_groups] at below
  rcases Nat.eq_zero_or_pos index with rfl | positive
  · cases (@represents_root options segments).found.symm.trans found
    exact ⟨segments, represents_root, List.infix_refl _, List.infix_refl _⟩
  · obtain ⟨content, among⟩ := exists_among positive below
    obtain ⟨owner, here, stored, -⟩ := stored_groups.among among
    cases here.symm.trans found
    exact ⟨content, ⟨here, rfl, rfl, stored⟩, among.infix_piecesAll,
      among.infix_closing.trans (List.prefix_append _ _).isInfix⟩

/-- A group other than the whole template stands among the items of an earlier group. -/
theorem exists_parent {index : Nat} (positive : 0 < index)
    (below : index < (groups options segments).length) :
    ∃ parent < index, parentOf (groups options segments) index = some parent ∧
      ∃ group, (groups options segments)[parent]? = some group ∧
        index ∈ children group.items := by
  rw [length_groups] at below
  obtain ⟨content, among⟩ := exists_among positive below
  obtain ⟨owner, here, -, place⟩ := (@stored_groups options segments).among among
  have named : parentOf (groups options segments) index = some owner := by
    rw [parentOf, here]
    rfl
  rcases place with ⟨rfl, member⟩ | ⟨earlier, group, found, member⟩
  · exact ⟨0, positive, named, _, represents_root.found, member⟩
  · exact ⟨owner, earlier, named, group, found, member⟩

/-- A group with a parent is there. -/
theorem lt_length_of_parentOf {arena : List Group} {index parent : Nat}
    (named : parentOf arena index = some parent) : index < arena.length := by
  obtain ⟨group, found, -⟩ := Option.bind_eq_some_iff.mp named
  exact (List.getElem?_eq_some_iff.mp found).1

/-- A group is among the children of its parent. -/
theorem mem_children_of_parentOf {index child : Nat}
    (named : parentOf (groups options segments) child = some index) :
    ∃ group, (groups options segments)[index]? = some group ∧ child ∈ children group.items := by
  have positive : 0 < child := by
    refine Nat.pos_of_ne_zero ?_
    rintro rfl
    cases named
  obtain ⟨parent, -, named', found⟩ := exists_parent positive (lt_length_of_parentOf named)
  cases named.symm.trans named'
  exact found

/-- The groups among the items of a group are those that name it as their parent. -/
theorem mem_children_iff {index child : Nat} {group : Group}
    (found : (groups options segments)[index]? = some group) :
    child ∈ children group.items ↔ parentOf (groups options segments) child = some index := by
  constructor
  · intro member
    obtain ⟨content, represents, -⟩ := exists_represents found
    rw [represents.items] at member
    exact represents.stored.parentOf_child member
  · intro named
    obtain ⟨other, found', member⟩ := mem_children_of_parentOf named
    cases found.symm.trans found'
    exact member

/-- The children of a group are those that name it as their parent. -/
theorem children_eq {index : Nat} {group : Group}
    (found : (groups options segments)[index]? = some group) :
    children group.items =
      (List.range (groups options segments).length).filter fun child =>
        parentOf (groups options segments) child = some index := by
  obtain ⟨content, represents, -⟩ := exists_represents found
  have ascending := pairwise_children_itemsFrom content (index + 1)
  rw [← represents.items] at ascending
  refine List.Pairwise.eq_of_mem_iff ascending
    (List.pairwise_lt_range.filter _) fun child => ?_
  rw [mem_children_iff found, List.mem_filter, List.mem_range, decide_eq_true_iff]
  exact ⟨fun named => ⟨lt_length_of_parentOf named, named⟩, And.right⟩

/-- A group closes after the groups inside it. -/
theorem mem_of_bottomUp {before after : List Nat} {index child : Nat}
    (closes : bottomUp segments = before ++ index :: after)
    (named : parentOf (groups options segments) child = some index) : child ∈ before := by
  obtain ⟨group, found, member⟩ := mem_children_of_parentOf named
  obtain ⟨content, represents, -, earlier, later, within⟩ := exists_represents found
  rw [represents.items] at member
  have inside := mem_closingInside member
  have split : (earlier ++ closingInside (index + 1) content) ++ index :: later =
      before ++ index :: after := by
    rw [← closes, ← within]
    simp
  have once : ((earlier ++ closingInside (index + 1) content) ++ index :: later).Nodup := by
    rw [split, ← closes]
    exact (bottomUp_perm segments).nodup_iff.mpr List.nodup_range
  obtain ⟨-, below, apart⟩ := List.nodup_append.mp once
  have fresh : index ∉ earlier ++ closingInside (index + 1) content :=
    fun present => apart index present index List.mem_cons_self rfl
  obtain ⟨rfl, -⟩ :=
    (List.append_cons_inj_of_notMem fresh (List.nodup_cons.mp below).1).mp split
  exact List.mem_append_right _ inside

/-- The groups of a tree are a tree that holds the text. -/
theorem lossless_flatten {text : String} (parsed : parse options text = .ok segments) :
    Lossless (flatten options segments).groups text.toList where
  root := by
    refine ⟨_, represents_root.found, ?_, rfl⟩
    rw [represents_root.raw, writeAll_of_parse parsed]
  written group member chars := by
    obtain ⟨index, found⟩ := List.mem_iff_getElem?.mp member
    obtain ⟨content, represents, -⟩ := exists_represents found
    have written := represents.stored.writes
    rw [← represents.items, ← represents.raw] at written
    exact ⟨fun other => other.unique written, fun same => same ▸ written⟩
  parent index positive below := by
    obtain ⟨parent, earlier, named, -⟩ := exists_parent positive below
    exact ⟨parent, earlier, named⟩
  children _ _ := children_eq
  tidy group member := by
    obtain ⟨index, found⟩ := List.mem_iff_getElem?.mp member
    obtain ⟨content, represents, part, -⟩ := exists_represents found
    rw [piecesAll_eq_cut parsed] at part
    rw [represents.items]
    exact tidy_itemsFrom _ ((tidy_cut options text.toList).part part)

/-- The groups of a tree close in its post-order. -/
theorem closesInOrder_flatten :
    ClosesInOrder (flatten options segments).groups (flatten options segments).closed where
  postOrder := by
    have inside := (@stored_groups options segments).postOrder
    have whole := Assembled.group represents_root.found inside .nil
    rwa [List.append_nil] at whole
  perm := by
    rw [flatten, length_groups]
    exact bottomUp_perm segments
  late _ _ _ closes _ named := mem_of_bottomUp closes named

end Groups

/-- **Lossless groups.** The groups that the scan of a template builds are a tree that holds the
template, and are closed in its post-order. -/
theorem groups_lossless {options : TemplateOptions} {text : String} {arena : Arena}
    (built : build options text = .ok arena) :
    Lossless arena.groups text.toList ∧ ClosesInOrder arena.groups arena.closed := by
  obtain ⟨segments, parsed, rfl⟩ := parse_of_build built
  exact ⟨lossless_flatten parsed, closesInOrder_flatten⟩

/-- The groups of a text with a field inside another one. -/
theorem groups_lossless_nested :
    let options : TemplateOptions := ⟨":", "<<", ">>"⟩
    let text := "é\x7ba\x7b\\\x7d:\x7d<<\x7b>>\x7d\x7b\x7d"
    let arena : Arena :=
      ⟨[⟨text.toList, [.text ['é'], .group 1, .group 3], none, false⟩,
          ⟨"a\x7b\\\x7d:\x7d<<\x7b>>".toList,
            [.text ['a'], .group 2, .text ['<', '<', '\x7b', '>', '>']], some 0, false⟩,
          ⟨"\\\x7d:".toList, [.text ['\\', '\x7d', ':']], some 1, true⟩,
          ⟨[], [], some 0, false⟩],
        [2, 1, 3, 0]⟩
    build options text = .ok arena ∧
      Lossless arena.groups text.toList ∧ ClosesInOrder arena.groups arena.closed := by
  intro options text arena
  let segments : List Segment :=
    [.text ['é'],
      .group [.text ['a'], .group [.text ['\\', '\x7d', ':']],
        .text ['<', '<', '\x7b', '>', '>']],
      .group []]
  have parsed : parse options text = .ok segments := by cbv
  have same : flatten options segments = arena := by decide +kernel
  have built : build options text = .ok arena := same ▸ build_of_parse parsed
  exact ⟨built, groups_lossless built⟩

end Template

end DocSketch
