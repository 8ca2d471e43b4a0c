import DocSketch.Template.Arena
import DocSketch.Proofs.Template.Nesting

/-!
# Trees in flat lists

The groups of a tree of segments, numbered in the order in which they open.  The groups of a
part of the tree stand next to each other in the list, and what comes behind a part does not
change them.

* `Template.groups`, `Template.bottomUp`: the groups of a tree, and the order in which they close.
* `Template.segments_induction`: induction over trees of segments.
* `Template.flatten`: the arena of a tree.
* `Template.Stored`: the groups of segments stand in a list from some place on.
* `Template.Stored.group`: where a group and those inside it stand.
-/

namespace DocSketch

namespace Template

/-! ## Groups of a tree -/

mutual

def Segment.groupCount : Segment → Nat
  | .text _ => 0
  | .group segments => 1 + groupCountAll segments

def groupCountAll : List Segment → Nat
  | [] => 0
  | segment :: segments => segment.groupCount + groupCountAll segments

end

/-- Items of a group whose first inner group has the number `next`. -/
def itemsFrom (next : Nat) : List Segment → List Item
  | [] => []
  | .text chars :: segments => .text chars :: itemsFrom next segments
  | .group inner :: segments =>
    .group next :: itemsFrom (next + 1 + groupCountAll inner) segments

/-- The group with the number `index` and the given content. -/
def groupOf (options : TemplateOptions) (parent : Option Nat) (index : Nat)
    (segments : List Segment) : Group :=
  ⟨writeAll segments, itemsFrom (index + 1) segments, parent, isField options segments⟩

mutual

/-- Groups in a segment of the group `parent`, numbered from `next` on. -/
def Segment.groupsFrom (options : TemplateOptions) (parent next : Nat) : Segment → List Group
  | .text _ => []
  | .group segments =>
    groupOf options (some parent) next segments :: groupsInside options next (next + 1) segments

/-- Groups in segments of the group `parent`, numbered from `next` on. -/
def groupsInside (options : TemplateOptions) (parent next : Nat) : List Segment → List Group
  | [] => []
  | segment :: segments =>
    segment.groupsFrom options parent next ++
      groupsInside options parent (next + segment.groupCount) segments

end

/-- All groups of a template; only inner groups can be fields. -/
def groups (options : TemplateOptions) (segments : List Segment) : List Group :=
  { groupOf options none 0 segments with isField := false } :: groupsInside options 0 1 segments

mutual

/-- Numbers of the groups in a segment, numbered from `next` on, as they close. -/
def Segment.closing (next : Nat) : Segment → List Nat
  | .text _ => []
  | .group segments => closingInside (next + 1) segments ++ [next]

/-- Numbers of the groups in segments, numbered from `next` on, as they close. -/
def closingInside (next : Nat) : List Segment → List Nat
  | [] => []
  | segment :: segments =>
    segment.closing next ++ closingInside (next + segment.groupCount) segments

end

/-- Numbers of all groups: a group after the groups inside it, the template last. -/
def bottomUp (segments : List Segment) : List Nat := closingInside 1 segments ++ [0]

/-- What holds of segments if it holds of those inside their first one, where it is a group,
and of those after it holds of all. -/
theorem segments_induction {P : List Segment → Prop} (nil : P [])
    (text : ∀ chars segments, P segments → P (.text chars :: segments))
    (group : ∀ inner segments, P inner → P segments → P (.group inner :: segments))
    (segments : List Segment) : P segments :=
  @Segment.rec_1 (fun segment => ∀ segments, P segments → P (segment :: segments)) P
    text (fun inner inside segments rest => group inner segments inside rest) nil
    (fun _ segments first rest => first segments rest) segments

/-- The groups of a tree, and the order in which they close. -/
def flatten (options : TemplateOptions) (segments : List Segment) : Arena :=
  ⟨groups options segments, bottomUp segments⟩

/-- A group starts with the text that its content starts with. -/
theorem leading_groupOf (options : TemplateOptions) (parent : Option Nat) (index : Nat)
    (segments : List Segment) :
    (groupOf options parent index segments).leading = leadingText segments := by
  cases segments with
  | nil => rfl
  | cons segment segments => cases segment <;> rfl

/-! ## Segments behind segments -/

section Append

variable (first second : List Segment)

theorem writeAll_append : writeAll (first ++ second) = writeAll first ++ writeAll second := by
  induction first with
  | nil => rfl
  | cons segment first ih => rw [List.cons_append, writeAll, writeAll, ih, List.append_assoc]

/-- Items behind items name the groups that come after those in the items before. -/
theorem itemsFrom_append (next : Nat) :
    itemsFrom next (first ++ second) =
      itemsFrom next first ++ itemsFrom (next + groupCountAll first) second := by
  induction first generalizing next with
  | nil => rfl
  | cons segment first ih =>
      cases segment with
      | text chars =>
          rw [List.cons_append, itemsFrom, itemsFrom, ih, groupCountAll, Segment.groupCount,
            Nat.zero_add, List.cons_append]
      | group inner =>
          rw [List.cons_append, itemsFrom, itemsFrom, ih, groupCountAll, Segment.groupCount,
            List.cons_append, ← Nat.add_assoc, ← Nat.add_assoc]

theorem groupsInside_append (options : TemplateOptions) (parent next : Nat) :
    groupsInside options parent next (first ++ second) =
      groupsInside options parent next first ++
        groupsInside options parent (next + groupCountAll first) second := by
  induction first generalizing next with
  | nil => rfl
  | cons segment first ih =>
      rw [List.cons_append, groupsInside, groupsInside, ih, groupCountAll, List.append_assoc,
        Nat.add_assoc]

theorem closingInside_append (next : Nat) :
    closingInside next (first ++ second) =
      closingInside next first ++ closingInside (next + groupCountAll first) second := by
  induction first generalizing next with
  | nil => rfl
  | cons segment first ih =>
      rw [List.cons_append, closingInside, closingInside, ih, groupCountAll, List.append_assoc,
        Nat.add_assoc]

end Append

/-! ## Groups in their list -/

/-- The groups in segments of the group `parent` stand in the list from `next` on. -/
def Stored (options : TemplateOptions) (arena : List Group) (parent next : Nat)
    (segments : List Segment) : Prop :=
  groupsInside options parent next segments <+: arena.drop next

/-- There is a group for each one inside the segments. -/
theorem length_groupsInside (options : TemplateOptions) (parent next : Nat)
    (segments : List Segment) :
    (groupsInside options parent next segments).length = groupCountAll segments := by
  induction segments using segments_induction generalizing parent next with
  | nil => rfl
  | text chars segments ih =>
      rw [groupsInside, Segment.groupsFrom, List.nil_append, ih, groupCountAll,
        Segment.groupCount, Nat.zero_add]
  | group inner segments inside ih =>
      rw [groupsInside, Segment.groupsFrom, List.length_append, List.length_cons, inside, ih,
        groupCountAll, Segment.groupCount, Nat.add_comm 1]

/-- There is a group for the root and for each one inside the segments. -/
theorem length_groups (options : TemplateOptions) (segments : List Segment) :
    (groups options segments).length = 1 + groupCountAll segments := by
  rw [groups, List.length_cons, length_groupsInside, Nat.add_comm]

section Stored

variable {options : TemplateOptions} {arena : List Group} {parent next : Nat}

/-- The groups of a template are stored behind the template itself. -/
theorem stored_groups {segments : List Segment} :
    Stored options (groups options segments) 0 1 segments :=
  List.prefix_refl _

/-- A text more or less changes nothing in what is stored. -/
theorem Stored.text {chars : List Char} {segments : List Segment}
    (stored : Stored options arena parent next (.text chars :: segments)) :
    Stored options arena parent next segments := stored

/-- What is stored for a group and the segments after it. -/
theorem Stored.group {inner segments : List Segment}
    (stored : Stored options arena parent next (.group inner :: segments)) :
    arena[next]? = some (groupOf options (some parent) next inner) ∧
      Stored options arena next (next + 1) inner ∧
      Stored options arena parent (next + 1 + groupCountAll inner) segments := by
  have count : next + (Segment.group inner).groupCount = next + 1 + groupCountAll inner := by
    rw [Segment.groupCount, Nat.add_assoc]
  obtain ⟨after, whole⟩ := stored
  rw [groupsInside, Segment.groupsFrom, count, List.cons_append, List.cons_append,
    List.append_assoc] at whole
  have here : arena[next]? = some (groupOf options (some parent) next inner) := by
    rw [← List.head?_drop, ← whole, List.head?_cons]
  have inside : groupsInside options next (next + 1) inner ++
      (groupsInside options parent (next + 1 + groupCountAll inner) segments ++ after) =
        arena.drop (next + 1) := by
    rw [← List.tail_drop, ← whole, List.tail_cons]
  refine ⟨here, ⟨_, inside⟩, after, ?_⟩
  rw [← List.drop_drop, ← inside, ← length_groupsInside options next (next + 1) inner,
    List.drop_left]

end Stored

end Template

end DocSketch
