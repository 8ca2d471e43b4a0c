import DocSketch.Template.Opaque

/-!
# Groups by number

The groups of a template in a flat list: group zero is the whole template, and the others
are numbered in the order in which they open.  One scan over the template builds the list.

* `Template.Group`: a group with the numbers of its parent and of the groups inside it.
* `Template.Builder`: a state of the scan, with `Builder.step` for one round of it.
* `Template.build`: the groups of a template, or the brace that has no partner.
* `Template.Arena.render`: what the groups are rendered as, each after those inside it.
-/

namespace DocSketch

namespace Template

/-- Plain text, or the number of a group. -/
inductive Item where
  | text (chars : List Char)
  | group (index : Nat)
deriving DecidableEq, Repr, Inhabited

/-- A group of a template. -/
structure Group where
  /-- Text between the braces, as it was written. -/
  raw : List Char
  items : List Item
  parent : Option Nat
  isField : Bool
deriving DecidableEq, Repr, Inhabited

namespace Group

/-- A group whose opening brace has just been met. -/
def opened (parent : Option Nat) : Group := ⟨[], [], parent, false⟩

/-- Text at the start of a group, empty if it starts with another group. -/
def leading (group : Group) : List Char :=
  match group.items with
  | .text chars :: _ => chars
  | _ => []

/-- Adds text behind the items of a group; text after text becomes one item. -/
def pushText (chars : List Char) (group : Group) : Group :=
  match group.items.getLast? with
  | some (.text others) =>
    { group with items := group.items.dropLast ++ [.text (others ++ chars)] }
  | _ => { group with items := group.items ++ [.text chars] }

/-- Adds a group behind the items of the group that it stands in. -/
def pushGroup (index : Nat) (group : Group) : Group :=
  { group with items := group.items ++ [.group index] }

/-- A group whose closing brace has been met, with the text between its braces.  It is a field if
its last item is text that ends with the marker. -/
def close (options : TemplateOptions) (raw : List Char) (group : Group) : Group :=
  let isField := match group.items.getLast? with
    | some (.text chars) => options.fieldMarker.toList.isSuffixOf chars
    | _ => false
  { group with raw := raw, isField := isField }

end Group

/-- The groups of a template. -/
structure Arena where
  groups : List Group
  /-- Numbers of the groups in the order in which they were closed, the template last. -/
  closed : List Nat
deriving DecidableEq, Repr, Inhabited

/-! ## The scan -/

/-- A state of the scan that builds the groups of a template. -/
structure Builder where
  offset : Nat
  groups : List Group
  closed : List Nat
  /-- The open groups, the innermost first and the template last, each with the offset behind its
  opening brace. -/
  stack : List (Nat × Nat)
  rest : List Char
deriving DecidableEq, Repr, Inhabited

namespace Builder

def start (text : List Char) : Builder := ⟨0, [.opened none], [], [(0, 0)], text⟩

/-- Takes `size` characters as text of the group `current`. -/
def take (state : Builder) (current size : Nat) : Builder :=
  { state with
    offset := state.offset + Text.byteLength (state.rest.take size)
    groups := state.groups.modify current (.pushText (state.rest.take size))
    rest := state.rest.drop size }

/-- Opens a group in the group `current`. -/
def openGroup (state : Builder) (current : Nat) : Builder :=
  { state with
    offset := state.offset + 1
    groups := state.groups.modify current (.pushGroup state.groups.length) ++
      [.opened (some current)]
    stack := (state.groups.length, state.offset + 1) :: state.stack
    rest := state.rest.drop 1 }

/-- Closes the group `current`, which is on top of `outer`; what is written in it is cut out of
the template. -/
def closeGroup (options : TemplateOptions) (text : List Char) (state : Builder)
    (current opened : Nat) (outer : List (Nat × Nat)) : Builder :=
  let raw := (Text.slice? ⟨opened, state.offset⟩ text).getD []
  { state with
    offset := state.offset + 1
    groups := state.groups.modify current (.close options raw)
    closed := state.closed ++ [current]
    stack := outer
    rest := state.rest.drop 1 }

/-- The groups at the end of a template, unless a group is open; the outermost one is reported. -/
def finish (text : List Char) (state : Builder) : Except Fault Arena :=
  match state.stack.reverse[1]? with
  | some (_, opened) => .error (malformed "unclosed `\x7b`" (opened - 1))
  | none =>
    .ok ⟨state.groups.modify 0 fun group => { group with raw := text }, state.closed ++ [0]⟩

/-- One round of the scan: an escape, opaque text, a brace or another character. -/
def step (options : TemplateOptions) (text : List Char) (state : Builder) :
    Builder ⊕ Except Fault Arena :=
  match state.rest with
  | [] => .inr (state.finish text)
  | c :: rest =>
    match state.stack with
    | [] => .inr (.error (malformed "group stack underflow" state.offset))
    | (current, opened) :: outer =>
      if c = '\\' then .inl (state.take current 2)
      else if opaqueLength options (c :: rest) ≠ 0 then
        .inl (state.take current (opaqueLength options (c :: rest)))
      else if c = '\x7b' then .inl (state.openGroup current)
      else if c = '\x7d' then
        if outer.isEmpty then .inr (.error (malformed "unmatched `\x7d`" state.offset))
        else .inl (state.closeGroup options text current opened outer)
      else .inl (state.take current 1)

/-- A round takes something of the template. -/
theorem length_rest_of_step {options : TemplateOptions} {text : List Char} {state next : Builder}
    (goes : step options text state = .inl next) : next.rest.length < state.rest.length := by
  obtain ⟨offset, groups, closed, stack, rest⟩ := state
  cases rest with
  | nil => cases goes
  | cons c rest =>
      cases stack with
      | nil => cases goes
      | cons frame outer =>
          simp only [step] at goes
          repeat' split at goes
          all_goals cases goes
          all_goals
            simp only [take, openGroup, closeGroup, List.length_drop, List.length_cons]
            omega

/-- The groups that the scan comes to from a state on. -/
def run (options : TemplateOptions) (text : List Char) (state : Builder) : Except Fault Arena :=
  match _goes : state.step options text with
  | .inl next => next.run options text
  | .inr result => result
termination_by state.rest.length
decreasing_by exact length_rest_of_step _goes

end Builder

/-- The groups of a template. -/
def build (options : TemplateOptions) (text : String) : Except Fault Arena :=
  (Builder.start text.toList).run options text.toList

/-! ## Rendering -/

/-- An item of a group that is being rendered. -/
inductive Fragment where
  | text (chars : List Char)
  /-- What a group has been rendered as. -/
  | rendered (chars : List Char)
deriving DecidableEq, Repr, Inhabited

def Fragment.chars : Fragment → List Char
  | .text chars => chars
  | .rendered chars => chars

/-- An item with what its group has been rendered as. -/
def Item.fragment (table : List (List Char)) : Item → Fragment
  | .text chars => .text chars
  | .group index => .rendered (table.getD index [])

/-- Text at the start of a group, empty if it starts with another group. -/
def leadingFragment : List Fragment → List Char
  | .text chars :: _ => chars
  | _ => []

namespace Arena

/-- Ways to render the groups of a template: `group` is told whether a group is a field, and
`whole` renders the template itself. -/
structure Renderer (σ : Type) where
  group : Bool → List Fragment → σ → List Char × σ
  whole : List Fragment → List Char

variable {σ : Type}

/-- Renders the group with a number, and enters the result into the table. -/
def renderGroup (arena : Arena) (renderer : Renderer σ) (progress : List (List Char) × σ)
    (index : Nat) : List (List Char) × σ :=
  let (table, state) := progress
  let group := arena.groups.getD index default
  let fragments := group.items.map (Item.fragment table)
  if index = 0 then (table.set index (renderer.whole fragments), state)
  else
    let (rendered, next) := renderer.group group.isField fragments state
    (table.set index rendered, next)

/-- Renders all groups in the order in which they were closed; the result is what the template
itself is rendered as. -/
def render (arena : Arena) (renderer : Renderer σ) (state : σ) : List Char :=
  let (table, _) :=
    arena.closed.foldl (arena.renderGroup renderer) (List.replicate arena.groups.length [], state)
  table.getD 0 []

end Arena

end Template

end DocSketch
