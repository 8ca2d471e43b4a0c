import DocSketch.Proofs.Types.Canonical
import Mathlib.Data.List.Forall2

/-!
# Alternatives in the order in which they were found

Alternatives that are put together by adding say nothing twice, and they stay where they are:
a type that is added is taken in by an alternative that covers it, or else it becomes the
last one.

* `Descriptor.Covers`: an alternative next to which another type says nothing new.
* `Descriptor.Absorbs`: what an alternative can become when a type is added.
* `Alternatives.Irredundant`: nothing is said twice, at any level.
* `Alternatives.first_seen_order`: this holds of all alternatives that are put together by
  adding, and adding to them keeps their order.
-/

namespace DocSketch

namespace Descriptor

/-- An alternative covers itself, and as a container or mapping also the containers of its
name or the mappings. -/
inductive Covers : Descriptor → Descriptor → Prop
  | same (type : Descriptor) : Covers type type
  | container (name : String) (kept children : Alternatives) :
      Covers (.container name kept) (.container name children)
  | mapping (keptKeys keptValues keys values : Alternatives) :
      Covers (.mapping keptKeys keptValues) (.mapping keys values)

/-- What an alternative can become when `type` is added: it stays as it is, or it takes in
what is inside of a container of its name or of a mapping. -/
inductive Absorbs (type : Descriptor) : Descriptor → Descriptor → Prop
  | unchanged (kept : Descriptor) : Absorbs type kept kept
  | container {name : String} {children : Alternatives} (kept : Alternatives)
      (added : type = .container name children) :
      Absorbs type (.container name kept) (.container name (Alternatives.extend kept children))
  | mapping {keys values : Alternatives} (keptKeys keptValues : Alternatives)
      (added : type = .mapping keys values) :
      Absorbs type (.mapping keptKeys keptValues)
        (.mapping (Alternatives.extend keptKeys keys) (Alternatives.extend keptValues values))

def containerName? : Descriptor → Option String
  | container name _ => some name
  | leaf _ | mapping .. | unresolved _ | foreign _ => none

def isMapping : Descriptor → Bool
  | mapping .. => true
  | leaf _ | container .. | unresolved _ | foreign _ => false

/-- A type covers those of its key. -/
theorem covers_iff_key {kept type : Descriptor} : kept.Covers type ↔ kept.key = type.key := by
  constructor
  · intro covers
    cases covers <;> rfl
  · intro together
    cases kept <;> cases type <;> cases together
    case container.container.refl name children others => exact .container name children others
    case mapping.mapping.refl keys values others more => exact .mapping keys values others more
    all_goals exact .same _

/-- A type absorbs what it receives. -/
theorem absorbs_receive (type kept : Descriptor) : Absorbs type kept (receive type kept) := by
  by_cases together : kept.key = type.key
  · rw [receive_of_eq together]
    cases kept <;> cases type <;> cases together
    case container.container.refl name children others => exact .container children rfl
    case mapping.mapping.refl keys values others more => exact .mapping keys values rfl
    all_goals exact .unchanged _
  · rw [receive_of_ne together]
    exact .unchanged kept

end Descriptor

open Descriptor

namespace Alternatives

/-- No alternative comes twice, no two containers have one name, and there is at most one
mapping, at any level. -/
inductive Irredundant : Alternatives → Prop
  | intro {types : Alternatives} (once : types.Nodup)
      (names : (types.filterMap containerName?).Nodup)
      (mappings : (types.filter isMapping).length ≤ 1)
      (inside : ∀ type ∈ types, ∀ part ∈ type.parts, Irredundant part) : Irredundant types

variable {types : Alternatives}

/-- No two containers have one name. -/
theorem nodup_containerNames (distinct : (types.map key).Nodup) :
    (types.filterMap containerName?).Nodup := by
  apply List.pairwise_filterMap.mpr
  apply (List.pairwise_map.mp distinct).imp
  intro first second apart name one other two same
  cases first <;> cases one
  cases second <;> cases two
  exact apart (congrArg Key.container same)

/-- There is one mapping at most. -/
theorem length_mappings_le (distinct : (types.map key).Nodup) :
    (types.filter isMapping).length ≤ 1 := by
  have apart : ((types.filter isMapping).map key).Nodup :=
    distinct.sublist (List.filter_sublist.map key)
  have alike : ∀ other ∈ (types.filter isMapping).map key, other = Key.mapping := by
    intro other member
    obtain ⟨type, within, rfl⟩ := List.mem_map.mp member
    have mapping := (List.mem_filter.mp within).2
    cases type <;> cases mapping
    rfl
  rw [List.eq_replicate_of_mem alike, List.length_map] at apart
  exact List.nodup_replicate.mp apart

/-- Canonical alternatives are irredundant. -/
theorem Canonical.irredundant (canonical : Canonical types) : Irredundant types := by
  induction canonical with
  | intro distinct _ inside =>
      exact .intro (distinct.of_map key) (nodup_containerNames distinct)
        (length_mappings_le distinct) inside

/-- **First-seen order.** Alternatives that are put together by adding say nothing twice.
Adding a type to them leaves every alternative in its place, and the type comes behind them
just if none of them covers it. -/
theorem first_seen_order (built : Built types) (type : Descriptor) :
    Irredundant types ∧
      ∃ kept, List.Forall₂ (Absorbs type) types kept ∧
        (add types type = kept ++ [type] ↔ ∀ other ∈ types, ¬ other.Covers type) ∧
        (add types type = kept ↔ ∃ other ∈ types, other.Covers type) := by
  have canonical := built.canonical
  have absorbs : List.Forall₂ (Absorbs type) types (types.map (receive type)) := by
    rw [List.forall₂_map_right_iff, List.forall₂_same]
    exact fun kept _ => absorbs_receive type kept
  have covered : (∃ other ∈ types, other.Covers type) ↔ type.key ∈ types.map key := by
    simp only [covers_iff_key, List.mem_map]
  have longer : types.map (receive type) ≠ types.map (receive type) ++ [type] := by simp
  apply And.intro canonical.irredundant
  refine ⟨types.map (receive type), absorbs, ?_⟩
  by_cases present : type.key ∈ types.map key
  · obtain ⟨other, member, covers⟩ := covered.mpr present
    rw [add_of_key_mem canonical present]
    constructor
    · exact ⟨fun same => absurd same longer, fun none => absurd covers (none other member)⟩
    · exact ⟨fun _ => ⟨other, member, covers⟩, fun _ => rfl⟩
  · have none : ∀ other ∈ types, ¬ other.Covers type := fun other member covers =>
      present (covered.mp ⟨other, member, covers⟩)
    have unchanged := map_receive_of_not_mem present
    rw [unchanged] at longer
    rw [add_of_key_not_mem canonical present, unchanged]
    constructor
    · exact ⟨fun _ => none, fun _ => rfl⟩
    · exact ⟨fun same => absurd same.symm longer, fun some => absurd (covered.mp some) present⟩

/-- Containers and mappings, in each other, in the order in which they are first seen. -/
theorem first_seen_order_nested :
    let types : Alternatives :=
      [.leaf "None", .container "list" [.mapping [.leaf "str"] [.leaf "int"]], .leaf "int"]
    let type : Descriptor := .container "list" [.leaf "str", .mapping [.leaf "int"] [.leaf "int"]]
    Built types ∧
      add types type =
        [.leaf "None",
          .container "list" [.mapping [.leaf "str", .leaf "int"] [.leaf "int"], .leaf "str"],
          .leaf "int"] ∧
      Irredundant types ∧
      ∃ kept, List.Forall₂ (Absorbs type) types kept ∧
        (add types type = kept ++ [type] ↔ ∀ other ∈ types, ¬ other.Covers type) ∧
        (add types type = kept ↔ ∃ other ∈ types, other.Covers type) := by
  intro types type
  have leaves : ∀ name, Built [.leaf name] := fun name => .single (by simp [parts])
  have entries : ∀ part ∈ (mapping [.leaf "str"] [.leaf "int"]).parts, Built part := by
    simpa [parts] using ⟨leaves "str", leaves "int"⟩
  have listed : ∀ part ∈ (container "list" _).parts, Built part :=
    List.forall_mem_singleton.mpr (Built.single entries)
  have plain : ∀ part ∈ (Descriptor.leaf "int").parts, Built part := by simp [parts]
  have built : Built types := ((leaves "None").add listed).add plain
  exact ⟨built, by decide, first_seen_order built type⟩

end Alternatives

end DocSketch
