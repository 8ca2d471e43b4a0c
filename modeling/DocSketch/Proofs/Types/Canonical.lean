import DocSketch.Types.Descriptor
import Mathlib.Data.List.Nodup

/-!
# Alternatives without repetition

Among alternatives, two descriptors belong together if they are the same leaf or text,
containers of one name, or mappings.  Alternatives that are put together by adding never
hold two descriptors that belong together, at any level, and adding another one either
joins it to the descriptor that it belongs to or appends it.

* `Descriptor.key`, `Descriptor.joined`: what belongs together, and what becomes of it.
* `Alternatives.Canonical`: no two descriptors belong together, at any level.
* `Alternatives.add_eq`: what adding a descriptor does to such alternatives.
* `Alternatives.Built`: alternatives that are put together by adding.
* `Alternatives.Built.canonical`: these are canonical.
-/

namespace DocSketch

namespace Descriptor

/-- What descriptors that belong together have in common. -/
inductive Key where
  | leaf (name : String)
  | container (name : String)
  | mapping
  | unresolved (text : String)
  | foreign (text : String)
deriving DecidableEq

def key : Descriptor → Key
  | leaf name => .leaf name
  | container name _ => .container name
  | mapping .. => .mapping
  | unresolved text => .unresolved text
  | foreign text => .foreign text

/-- The alternatives directly inside a descriptor. -/
def parts : Descriptor → List Alternatives
  | container _ children => [children]
  | mapping keys values => [keys, values]
  | leaf _ | unresolved _ | foreign _ => []

/-- A descriptor with another one joined to it that belongs to it. -/
def joined : Descriptor → Descriptor → Descriptor
  | container name kept, container _ children => container name (Alternatives.extend kept children)
  | mapping keptKeys keptValues, mapping keys values =>
    mapping (Alternatives.extend keptKeys keys) (Alternatives.extend keptValues values)
  | kept, _ => kept

/-- A descriptor after `type` has been added to the alternatives it is one of. -/
def receive (type kept : Descriptor) : Descriptor :=
  if kept.key = type.key then kept.joined type else kept

/-- A type keeps its key when another one is joined to it. -/
@[simp]
theorem key_joined (kept type : Descriptor) : (kept.joined type).key = kept.key := by
  cases kept <;> cases type <;> rfl

/-- A type keeps its key whatever it receives. -/
@[simp]
theorem key_receive (type kept : Descriptor) : (receive type kept).key = kept.key := by
  unfold receive
  split
  · exact key_joined kept type
  · rfl

/-- A type receives nothing of another key. -/
theorem receive_of_ne {type kept : Descriptor} (apart : kept.key ≠ type.key) :
    receive type kept = kept := if_neg apart

/-- A type of the same key is joined. -/
theorem receive_of_eq {type kept : Descriptor} (together : kept.key = type.key) :
    receive type kept = kept.joined type := if_pos together

/-- What holds of a descriptor if it holds of all descriptors inside it holds of all. -/
theorem parts_induction {P : Descriptor → Prop}
    (step : ∀ type : Descriptor, (∀ part ∈ type.parts, ∀ inner ∈ part, P inner) → P type)
    (type : Descriptor) : P type := by
  induction size : sizeOf type using Nat.strongRecOn generalizing type with
  | _ n ih =>
      apply step
      intro part member inner inside
      apply ih (sizeOf inner) _ inner rfl
      have smaller := List.sizeOf_lt_of_mem inside
      cases type with
      | container name children =>
          simp only [parts, List.mem_singleton] at member
          subst member
          simp only [container.sizeOf_spec] at size
          omega
      | mapping keys values =>
          simp only [parts, List.mem_cons, List.not_mem_nil, or_false] at member
          simp only [mapping.sizeOf_spec] at size
          rcases member with rfl | rfl <;> omega
      | leaf | unresolved | foreign => simp only [parts, List.not_mem_nil] at member

end Descriptor

open Descriptor

namespace Alternatives

/-- No two descriptors belong together, at any level. -/
inductive Canonical : Alternatives → Prop
  | intro {types : Alternatives} (distinct : (types.map key).Nodup)
      (inside : ∀ type ∈ types, ∀ part ∈ type.parts, Canonical part) : Canonical types

/-- No two descriptors inside of a descriptor belong together, at any level. -/
def CanonicalInside (type : Descriptor) : Prop := ∀ part ∈ type.parts, Canonical part

variable {types others : Alternatives} {type : Descriptor}

/-- Canonical alternatives have different keys. -/
theorem Canonical.distinct (canonical : Canonical types) : (types.map key).Nodup := by
  cases canonical with
  | intro distinct _ => exact distinct

/-- Canonical alternatives are canonical inside. -/
theorem Canonical.inside (canonical : Canonical types) (member : type ∈ types) :
    CanonicalInside type := by
  cases canonical with
  | intro _ inside => exact inside type member

theorem canonical_nil : Canonical [] := .intro List.nodup_nil (by simp)

theorem canonical_cons :
    Canonical (type :: types) ↔
      type.key ∉ types.map key ∧ CanonicalInside type ∧ Canonical types := by
  constructor
  · intro canonical
    obtain ⟨first, rest⟩ := List.nodup_cons.mp canonical.distinct
    refine ⟨first, canonical.inside List.mem_cons_self, .intro rest ?_⟩
    intro other member
    exact canonical.inside (List.mem_cons_of_mem type member)
  · rintro ⟨first, own, rest⟩
    apply Canonical.intro
    · exact List.nodup_cons.mpr ⟨first, rest.distinct⟩
    · exact List.forall_mem_cons.mpr ⟨own, fun other => rest.inside⟩

/-- A type that is canonical inside is canonical alone. -/
theorem canonical_singleton (own : CanonicalInside type) : Canonical [type] :=
  canonical_cons.mpr ⟨List.not_mem_nil, own, canonical_nil⟩

/-- Among canonical alternatives, a descriptor is known by its key. -/
theorem Canonical.eq_of_key (canonical : Canonical types) {first second : Descriptor}
    (one : first ∈ types) (two : second ∈ types) (same : first.key = second.key) :
    first = second :=
  List.inj_on_of_nodup_map canonical.distinct one two same

/-- Adding what is there changes nothing. -/
theorem add_of_mem (member : type ∈ types) : add types type = types := by
  cases type <;> rw [add, if_pos member]

/-- Known types add nothing. -/
theorem extend_of_subset (known : ∀ type ∈ others, type ∈ types) : extend types others = types := by
  induction others with
  | nil => rw [extend]
  | cons type others ih =>
      obtain ⟨first, rest⟩ := List.forall_mem_cons.mp known
      rw [extend, add_of_mem first, ih rest]

/-- Alternatives added to themselves stay as they are. -/
theorem extend_self (types : Alternatives) : extend types types = types :=
  extend_of_subset fun _ member => member

/-- A type adds nothing to itself. -/
theorem joined_self (type : Descriptor) : type.joined type = type := by
  cases type with
  | container name children => rw [joined, extend_self]
  | mapping keys values => rw [joined, extend_self, extend_self]
  | leaf | unresolved | foreign => rfl

/-- A type of a new key is received by none. -/
theorem map_receive_of_not_mem (absent : type.key ∉ types.map key) :
    types.map (receive type) = types := by
  apply (List.map_congr_left _).trans (List.map_id types)
  intro kept member
  apply receive_of_ne
  intro same
  exact absent (same ▸ List.mem_map_of_mem member)

/-- The alternatives keep their keys whatever they receive. -/
theorem keys_map_receive : (types.map (receive type)).map key = types.map key := by
  rw [List.map_map]
  apply List.map_congr_left
  intro kept _
  exact key_receive type kept

/-- A function that joins `type` to the first descriptor that it belongs to joins it to the
only one. -/
theorem merge?_eq (merge? : Alternatives → Option Alternatives) (type : Descriptor)
    (empty : merge? [] = none)
    (here : ∀ kept types, kept.key = type.key →
      merge? (kept :: types) = some (kept.joined type :: types))
    (past : ∀ kept types, kept.key ≠ type.key →
      merge? (kept :: types) = (merge? types).map (kept :: ·))
    (distinct : (types.map key).Nodup) :
    merge? types =
      if type.key ∈ types.map key then some (types.map (receive type)) else none := by
  induction types with
  | nil => exact empty
  | cons kept types ih =>
      obtain ⟨first, rest⟩ := List.nodup_cons.mp distinct
      by_cases together : kept.key = type.key
      · have unchanged : types.map (receive type) = types :=
          map_receive_of_not_mem (together ▸ first)
        rw [here kept types together, List.map_cons, List.map_cons, receive_of_eq together,
          unchanged, if_pos (together ▸ List.mem_cons_self)]
      · rw [past kept types together, ih rest, List.map_cons, List.map_cons,
          receive_of_ne together]
        by_cases there : type.key ∈ types.map key
        · rw [if_pos there, if_pos (List.mem_cons_of_mem _ there), Option.map_some]
        · have absent := List.not_mem_cons_of_ne_of_not_mem (Ne.symm together) there
          rw [if_neg there, if_neg absent, Option.map_none]

/-- A container is merged into the one of its name, if there is one. -/
theorem mergeContainer?_eq (distinct : (types.map key).Nodup) (name : String)
    (children : Alternatives) :
    mergeContainer? name (fun kept => extend kept children) types =
      if .container name ∈ types.map key then
        some (types.map (receive (.container name children)))
      else none := by
  apply merge?_eq _ (.container name children) rfl _ _ distinct
  · intro kept types together
    cases kept <;> cases together
    rw [mergeContainer?, if_pos rfl, joined]
  · intro kept types apart
    cases kept with
    | container other inner =>
        have different : other ≠ name := fun same => apart (congrArg Key.container same)
        rw [mergeContainer?, if_neg different]
    | leaf | mapping | unresolved | foreign => rw [mergeContainer?]; simp

/-- A mapping is merged into the one that is there, if any. -/
theorem mergeMapping?_eq (distinct : (types.map key).Nodup) (keys values : Alternatives) :
    mergeMapping? (fun kept => extend kept keys) (fun kept => extend kept values) types =
      if .mapping ∈ types.map key then some (types.map (receive (.mapping keys values)))
      else none := by
  apply merge?_eq _ (.mapping keys values) rfl _ _ distinct
  · intro kept types together
    cases kept <;> cases together
    rw [mergeMapping?, joined]
  · intro kept types apart
    cases kept with
    | mapping => exact absurd rfl apart
    | leaf | container | unresolved | foreign => rw [mergeMapping?]; simp

/-- What is there already is joined to itself, which changes nothing. -/
theorem Canonical.map_receive_of_mem (canonical : Canonical types) (member : type ∈ types) :
    types.map (receive type) = types := by
  apply (List.map_congr_left _).trans (List.map_id types)
  intro kept present
  by_cases together : kept.key = type.key
  · obtain rfl := canonical.eq_of_key present member together
    exact (receive_of_eq rfl).trans (joined_self kept)
  · exact receive_of_ne together

/-- A descriptor that is added is joined to the one that it belongs to, or appended. -/
theorem add_eq (canonical : Canonical types) (type : Descriptor) :
    add types type =
      if type.key ∈ types.map key then types.map (receive type) else types ++ [type] := by
  by_cases member : type ∈ types
  · rw [add_of_mem member, if_pos (List.mem_map_of_mem member), canonical.map_receive_of_mem member]
  cases type with
  | container name children =>
      rw [add, if_neg member, mergeContainer?_eq canonical.distinct, key]
      split
      · rfl
      · rfl
  | mapping keys values =>
      rw [add, if_neg member, mergeMapping?_eq canonical.distinct, key]
      split
      · rfl
      · rfl
  | leaf | unresolved | foreign =>
      rw [add, if_neg member, if_neg]
      intro present
      obtain ⟨other, inside, same⟩ := List.mem_map.mp present
      cases other <;> cases same
      exact member inside

/-- A type of a known key is received by the one that has it. -/
theorem add_of_key_mem (canonical : Canonical types) (present : type.key ∈ types.map key) :
    add types type = types.map (receive type) := by
  rw [add_eq canonical, if_pos present]

/-- A type of a new key comes last. -/
theorem add_of_key_not_mem (canonical : Canonical types) (absent : type.key ∉ types.map key) :
    add types type = types ++ [type] := by
  rw [add_eq canonical, if_neg absent]

/-- Adding to canonical alternatives keeps them so, and so does joining. -/
theorem Canonical.add_of {type : Descriptor} (canonical : Canonical types)
    (own : CanonicalInside type)
    (joins : ∀ kept ∈ types, kept.key = type.key → CanonicalInside (kept.joined type)) :
    Canonical (add types type) := by
  by_cases present : type.key ∈ types.map key
  · rw [add_of_key_mem canonical present]
    apply Canonical.intro
    · rw [keys_map_receive]
      exact canonical.distinct
    · intro other member
      obtain ⟨kept, inside, rfl⟩ := List.mem_map.mp member
      by_cases together : kept.key = type.key
      · rw [receive_of_eq together]
        exact joins kept inside together
      · rw [receive_of_ne together]
        exact canonical.inside inside
  · rw [add_of_key_not_mem canonical present]
    apply Canonical.intro
    · rw [List.map_append, List.map_singleton]
      exact canonical.distinct.append (List.nodup_singleton _)
        (List.disjoint_singleton.mpr present)
    · intro other member
      rcases List.mem_append.mp member with inside | last
      · exact canonical.inside inside
      · rw [List.mem_singleton.mp last]
        exact own

/-- Alternatives stay canonical if they do at each type that is added. -/
theorem Canonical.extend_of {others : Alternatives}
    (each : ∀ type ∈ others, ∀ types, Canonical types → Canonical (add types type))
    (canonical : Canonical types) : Canonical (extend types others) := by
  induction others generalizing types with
  | nil => rwa [extend]
  | cons type others ih =>
      obtain ⟨first, rest⟩ := List.forall_mem_cons.mp each
      rw [extend]
      exact ih rest (first types canonical)

/-- Canonical alternatives to which a canonical descriptor is added are canonical. -/
theorem Canonical.add (canonical : Canonical types) (own : CanonicalInside type) :
    Canonical (add types type) := by
  induction type using parts_induction generalizing types with
  | step type ih =>
      have grows : ∀ part ∈ type.parts, ∀ kept, Canonical kept →
          Canonical (Alternatives.extend kept part) := by
        intro part member kept canonical
        apply Canonical.extend_of _ canonical
        intro inner inside types canonical
        exact ih part member inner inside canonical ((own part member).inside inside)
      apply canonical.add_of own
      intro kept present together
      have within := canonical.inside present
      cases type with
      | container name children =>
          cases kept with
          | container _ inner =>
              intro part member
              simp only [joined, parts, List.mem_singleton] at member
              subst member
              exact grows children (by simp [parts]) inner (within inner (by simp [parts]))
          | leaf | mapping | unresolved | foreign => cases together
      | mapping keys values =>
          cases kept with
          | mapping keptKeys keptValues =>
              intro part member
              simp only [joined, parts, List.mem_cons, List.not_mem_nil, or_false] at member
              rcases member with rfl | rfl
              · exact grows keys (by simp [parts]) keptKeys (within keptKeys (by simp [parts]))
              · exact grows values (by simp [parts]) keptValues
                  (within keptValues (by simp [parts]))
          | leaf | container | unresolved | foreign => cases together
      | leaf | unresolved | foreign =>
          intro part member
          cases kept <;> cases together
          simp only [joined, parts, List.not_mem_nil] at member

/-- Alternatives stay canonical when types are added that are canonical inside. -/
theorem Canonical.extend (canonical : Canonical types)
    (each : ∀ type ∈ others, CanonicalInside type) : Canonical (extend types others) := by
  apply Canonical.extend_of _ canonical
  intro type member types canonical
  exact canonical.add (each type member)

/-- Alternatives that are put together by adding descriptors, where the alternatives inside
of a descriptor have been put together in the same way. -/
inductive Built : Alternatives → Prop
  | empty : Built []
  | single {type : Descriptor} (inside : ∀ part ∈ type.parts, Built part) : Built (single type)
  | add {types : Alternatives} {type : Descriptor} (built : Built types)
      (inside : ∀ part ∈ type.parts, Built part) : Built (add types type)
  | extend {types others : Alternatives} (built : Built types) (more : Built others) :
      Built (extend types others)
  | ofList {types : List Descriptor} (inside : ∀ type ∈ types, ∀ part ∈ type.parts, Built part) :
      Built (ofList types)

/-- Alternatives that are put together by adding are canonical. -/
theorem Built.canonical (built : Built types) : Canonical types := by
  induction built with
  | empty => exact canonical_nil
  | single _ inside => exact canonical_singleton inside
  | add _ _ canonical inside => exact canonical.add inside
  | extend _ _ canonical more => exact canonical.extend fun type => more.inside
  | ofList _ inside => exact canonical_nil.extend inside

end Alternatives

end DocSketch
