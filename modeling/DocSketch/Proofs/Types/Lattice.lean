import DocSketch.Proofs.Types.Canonical
import Mathlib.Data.List.Forall2

/-!
# Alternatives form a semilattice

Canonical alternatives are known by the order of their keys and by the descriptor that they
hold for each key.  In this view, adding alternatives to others appends the keys that are new
and joins the descriptors key by key, so that each law about `Alternatives.extend` follows
from the same law about `Descriptor.joined`, which in turn follows from the law about the
alternatives inside.

* `Alternatives.lookup`: the descriptor with a given key.
* `Alternatives.eq_of_lookup`, `Alternatives.lookup_extend`: the view, and adding in it.
* `Alternatives.Reordered`: equal up to the order of the alternatives at every level.
* `Alternatives.extend_semilattice`: adding is idempotent, associative and, up to order,
  commutative, so that the order in which alternatives are added does not matter.
-/

namespace DocSketch

namespace Descriptor

/-- A type is known by its key and its parts. -/
theorem eq_of_parts {first second : Descriptor} (same : first.key = second.key)
    (inside : first.parts = second.parts) : first = second := by
  cases first <;> cases second <;> cases same <;> cases inside <;> rfl

/-- Joined types have their parts joined one by one. -/
theorem parts_joined {kept type : Descriptor} (together : kept.key = type.key) :
    (kept.joined type).parts = List.zipWith Alternatives.extend kept.parts type.parts := by
  cases kept <;> cases type <;> cases together <;> rfl

end Descriptor

open Descriptor

namespace Alternatives

variable {types others more : Alternatives} {type : Descriptor}

/-- The descriptor with the key `wanted`. -/
def lookup (wanted : Key) (types : Alternatives) : Option Descriptor :=
  types.find? (·.key = wanted)

@[simp]
theorem lookup_nil (wanted : Key) : lookup wanted [] = none := rfl

theorem lookup_cons (wanted : Key) (type : Descriptor) (types : Alternatives) :
    lookup wanted (type :: types) =
      if type.key = wanted then some type else lookup wanted types := by
  by_cases found : type.key = wanted
  · simp [lookup, found]
  · simp [lookup, found]

theorem lookup_append (wanted : Key) (first second : Alternatives) :
    lookup wanted (first ++ second) = (lookup wanted first).or (lookup wanted second) :=
  List.find?_append

/-- A type that is found is one of the alternatives. -/
theorem mem_of_lookup {wanted : Key} (found : lookup wanted types = some type) : type ∈ types :=
  List.mem_of_find?_eq_some found

/-- A type that is found has the key. -/
theorem key_of_lookup {wanted : Key} (found : lookup wanted types = some type) :
    type.key = wanted := by
  simpa using List.find?_some found

/-- A key is not found if no alternative has it. -/
theorem lookup_eq_none {wanted : Key} : lookup wanted types = none ↔ wanted ∉ types.map key := by
  simp [lookup]

/-- An alternative is found by its key. -/
theorem lookup_of_mem (canonical : Canonical types) (member : type ∈ types) :
    lookup type.key types = some type := by
  cases found : lookup type.key types with
  | none => exact absurd (List.mem_map_of_mem member) (lookup_eq_none.mp found)
  | some other =>
      rw [canonical.eq_of_key (mem_of_lookup found) member (key_of_lookup found)]

/-- Canonical alternatives are known by their keys and the descriptor for each key. -/
theorem eq_of_lookup (canonical : Canonical types) (canonical' : Canonical others)
    (keys : types.map key = others.map key)
    (each : ∀ wanted, lookup wanted types = lookup wanted others) : types = others := by
  have listed : ∀ {types : Alternatives}, Canonical types →
      types.map some = (types.map key).map (lookup · types) := by
    intro types canonical
    rw [List.map_map]
    apply List.map_congr_left
    intro type member
    exact (lookup_of_mem canonical member).symm
  apply List.map_injective_iff.mpr (fun _ _ => Option.some.inj)
  rw [listed canonical, listed canonical', keys]
  exact List.map_congr_left fun wanted _ => each wanted

/-- A type that is found has received what the alternatives have. -/
theorem lookup_map_receive (wanted : Key) :
    lookup wanted (types.map (receive type)) = (lookup wanted types).map (receive type) := by
  rw [lookup, List.find?_map]
  congr 2
  funext kept
  simp

/-- Adding a descriptor changes what is held for its key, and only that. -/
theorem lookup_add (canonical : Canonical types) (wanted : Key) :
    lookup wanted (add types type) =
      (lookup wanted types).merge joined (lookup wanted [type]) := by
  rw [lookup_cons, lookup_nil]
  by_cases present : type.key ∈ types.map key
  · rw [add_of_key_mem canonical present, lookup_map_receive]
    cases found : lookup wanted types with
    | none =>
        rw [if_neg]
        · rfl
        · rintro rfl
          exact lookup_eq_none.mp found present
    | some kept =>
        have same := key_of_lookup found
        rw [Option.map_some, receive, same]
        by_cases together : type.key = wanted
        · rw [if_pos together.symm, if_pos together]
          rfl
        · rw [if_neg (Ne.symm together), if_neg together]
          rfl
  · rw [add_of_key_not_mem canonical present, lookup_append, lookup_cons, lookup_nil]
    by_cases together : type.key = wanted
    · rw [← together, lookup_eq_none.mpr present, if_pos rfl]
      rfl
    · rw [if_neg together]
      cases lookup wanted types <;> rfl

/-- Adding alternatives joins, key by key, what they hold to what is there. -/
theorem lookup_extend (canonical : Canonical types) (canonical' : Canonical others)
    (wanted : Key) :
    lookup wanted (extend types others) =
      (lookup wanted types).merge joined (lookup wanted others) := by
  induction others generalizing types with
  | nil =>
      rw [extend, lookup_nil]
      cases lookup wanted types <;> rfl
  | cons type others ih =>
      obtain ⟨first, own, rest⟩ := canonical_cons.mp canonical'
      rw [extend, ih (canonical.add own) rest, lookup_add canonical, lookup_cons, lookup_cons,
        lookup_nil]
      by_cases together : type.key = wanted
      · rw [together] at first
        rw [if_pos together, if_pos together, lookup_eq_none.mpr first]
        cases lookup wanted types <;> rfl
      · rw [if_neg together, if_neg together]
        cases lookup wanted types <;> cases lookup wanted others <;> rfl

/-- Adding alternatives appends the keys that are new. -/
theorem keys_extend (canonical : Canonical types) (canonical' : Canonical others) :
    (extend types others).map key =
      types.map key ++ (others.map key).filter (· ∉ types.map key) := by
  induction others generalizing types with
  | nil => rw [extend, List.map_nil, List.filter_nil, List.append_nil]
  | cons type others ih =>
      obtain ⟨first, own, rest⟩ := canonical_cons.mp canonical'
      rw [extend, ih (canonical.add own) rest, List.map_cons]
      by_cases present : type.key ∈ types.map key
      · rw [List.filter_cons_of_neg (by simpa using present), add_of_key_mem canonical present,
          keys_map_receive]
      · rw [List.filter_cons_of_pos (by simpa using present),
          add_of_key_not_mem canonical present, List.map_append, List.append_assoc,
          List.map_singleton, List.singleton_append]
        congr 2
        apply List.filter_congr
        intro other member
        have apart : other ≠ type.key := ne_of_mem_of_not_mem member first
        simp [apart]

/-! ## Associativity -/

/-- Adding is associative if joining the types of one key is. -/
theorem extend_assoc_of
    (each : ∀ last ∈ more, ∀ kept type : Descriptor, CanonicalInside kept →
      CanonicalInside type → CanonicalInside last → kept.key = type.key → type.key = last.key →
        (kept.joined type).joined last = kept.joined (type.joined last))
    (canonical : Canonical types) (canonical' : Canonical others) (canonical'' : Canonical more) :
    extend (extend types others) more = extend types (extend others more) := by
  have left := canonical.extend fun _ => canonical'.inside
  have right := canonical'.extend fun _ => canonical''.inside
  apply eq_of_lookup
  · exact left.extend fun _ => canonical''.inside
  · exact canonical.extend fun _ => right.inside
  · rw [keys_extend left canonical'', keys_extend canonical right, keys_extend canonical canonical',
      keys_extend canonical' canonical'', List.filter_append, List.append_assoc,
      List.filter_filter]
    congr 2
    apply List.filter_congr
    intro wanted _
    by_cases known : wanted ∈ types.map key
    · simp only [List.mem_append, known, true_or, not_true, decide_false, Bool.false_and]
    · simp only [List.mem_append, List.mem_filter, known, false_or, not_false_eq_true, decide_true,
        and_true, Bool.true_and]
  · intro wanted
    rw [lookup_extend left canonical'', lookup_extend canonical right,
      lookup_extend canonical canonical', lookup_extend canonical' canonical'']
    cases one : lookup wanted types with
    | none => cases lookup wanted others <;> cases lookup wanted more <;> rfl
    | some kept =>
        cases two : lookup wanted others with
        | none => cases lookup wanted more <;> rfl
        | some type =>
            cases three : lookup wanted more with
            | none => rfl
            | some last =>
                apply congrArg some
                apply each last (mem_of_lookup three) kept type
                · exact canonical.inside (mem_of_lookup one)
                · exact canonical'.inside (mem_of_lookup two)
                · exact canonical''.inside (mem_of_lookup three)
                · exact (key_of_lookup one).trans (key_of_lookup two).symm
                · exact (key_of_lookup two).trans (key_of_lookup three).symm

/-- Joining lists element by element is associative if joining the elements is. -/
theorem zipWith_assoc {α : Type} {join : α → α → α} {first second third : List α}
    (each : ∀ x ∈ first, ∀ y ∈ second, ∀ z ∈ third, join (join x y) z = join x (join y z)) :
    List.zipWith join (List.zipWith join first second) third =
      List.zipWith join first (List.zipWith join second third) := by
  induction first generalizing second third with
  | nil => simp
  | cons x first ih =>
      cases second with
      | nil => simp
      | cons y second =>
          cases third with
          | nil => simp
          | cons z third =>
              simp only [List.zipWith_cons_cons]
              rw [each x List.mem_cons_self y List.mem_cons_self z List.mem_cons_self, ih]
              intro x inFirst y inSecond z inThird
              exact each x (List.mem_cons_of_mem _ inFirst) y (List.mem_cons_of_mem _ inSecond)
                z (List.mem_cons_of_mem _ inThird)

/-- Joining types of one key is associative, by induction on the last one. -/
theorem joined_assoc {kept type last : Descriptor} (own : CanonicalInside kept)
    (own' : CanonicalInside type) (own'' : CanonicalInside last) (together : kept.key = type.key)
    (together' : type.key = last.key) :
    (kept.joined type).joined last = kept.joined (type.joined last) := by
  induction last using parts_induction generalizing kept type with
  | step last ih =>
      apply eq_of_parts
      · simp
      · rw [parts_joined (by simpa using together.trans together'), parts_joined together,
          parts_joined (by simpa using together), parts_joined together']
        apply zipWith_assoc
        intro first inFirst second inSecond third inThird
        apply extend_assoc_of _ (own first inFirst) (own' second inSecond) (own'' third inThird)
        intro inner inside kept type own own' own'' together together'
        exact ih third inThird inner inside own own' own'' together together'

/-- **Associativity.** Alternatives can be added in one go or one after the other. -/
theorem extend_assoc (canonical : Canonical types) (canonical' : Canonical others)
    (canonical'' : Canonical more) :
    extend (extend types others) more = extend types (extend others more) := by
  apply extend_assoc_of _ canonical canonical' canonical''
  intro last _ kept type own own' own'' together together'
  exact joined_assoc own own' own'' together together'

/-! ## Equality up to order -/

/-- Equal up to the order of the alternatives at every level. -/
inductive Reordered : Alternatives → Alternatives → Prop
  | nil : Reordered [] []
  | cons (type : Descriptor) {types others : Alternatives} (rest : Reordered types others) :
      Reordered (type :: types) (type :: others)
  | swap (first second : Descriptor) (types : Alternatives) :
      Reordered (first :: second :: types) (second :: first :: types)
  | container (name : String) {children children' : Alternatives} (types : Alternatives)
      (inside : Reordered children children') :
      Reordered (.container name children :: types) (.container name children' :: types)
  | mapping {keys keys' values values' : Alternatives} (types : Alternatives)
      (left : Reordered keys keys') (right : Reordered values values') :
      Reordered (.mapping keys values :: types) (.mapping keys' values' :: types)
  | trans {types others more : Alternatives} (first : Reordered types others)
      (second : Reordered others more) : Reordered types more

theorem Reordered.refl (types : Alternatives) : Reordered types types := by
  induction types with
  | nil => exact .nil
  | cons type types ih => exact ih.cons type

/-- Alternatives in another order are reordered. -/
theorem Reordered.of_perm (permutation : types.Perm others) : Reordered types others := by
  induction permutation with
  | nil => exact .nil
  | cons type _ ih => exact ih.cons type
  | swap first second types => exact .swap second first types
  | trans _ _ first second => exact first.trans second

/-- Descriptors that differ only in the order of the alternatives inside. -/
def Alike (first second : Descriptor) : Prop :=
  first.key = second.key ∧ List.Forall₂ Reordered first.parts second.parts

theorem Alike.refl (type : Descriptor) : Alike type type :=
  ⟨rfl, List.forall₂_same.mpr fun part _ => .refl part⟩

theorem Alike.trans {first second third : Descriptor} (left : Alike first second)
    (right : Alike second third) : Alike first third := by
  refine ⟨left.1.trans right.1, ?_⟩
  have inside := left.2
  have inside' := right.2
  generalize first.parts = xs at inside
  generalize second.parts = ys at inside inside'
  generalize third.parts = zs at inside'
  induction inside generalizing zs with
  | nil =>
      cases inside'
      exact .nil
  | cons head _ ih =>
      cases inside' with
      | cons head' tail' => exact .cons (head.trans head') (ih _ tail')

/-- A first type may be replaced by one that is like it. -/
theorem Reordered.of_alike {first second : Descriptor} (alike : Alike first second)
    (types : Alternatives) : Reordered (first :: types) (second :: types) := by
  obtain ⟨same, inside⟩ := alike
  cases first with
  | container name children =>
      cases second <;> cases same
      simp only [parts, List.forall₂_cons] at inside
      exact .container name types inside.1
  | mapping keys values =>
      cases second <;> cases same
      simp only [parts, List.forall₂_cons] at inside
      exact .mapping types inside.1 inside.2.1
  | leaf | unresolved | foreign =>
      cases second <;> cases same
      exact .refl _

/-- Alternatives that hold like descriptors for each key. -/
def AlikeByKey (types others : Alternatives) : Prop :=
  ∀ wanted, Option.Rel Alike (lookup wanted types) (lookup wanted others)

theorem rel_refl (found : Option Descriptor) : Option.Rel Alike found found := by
  cases found with
  | none => exact .none
  | some type => exact .some (.refl type)

theorem rel_trans {first second third : Option Descriptor} (left : Option.Rel Alike first second)
    (right : Option.Rel Alike second third) : Option.Rel Alike first third := by
  cases left with
  | none => exact right
  | some left =>
      cases right with
      | some right => exact .some (left.trans right)

theorem AlikeByKey.refl (types : Alternatives) : AlikeByKey types types :=
  fun wanted => rel_refl (lookup wanted types)

/-- Alternatives stay canonical in another order. -/
theorem Canonical.of_perm (canonical : Canonical types) (permutation : types.Perm others) :
    Canonical others := by
  apply Canonical.intro
  · exact (permutation.map key).nodup_iff.mp canonical.distinct
  · intro type member
    exact canonical.inside (permutation.mem_iff.mpr member)

/-- What is found in canonical alternatives does not depend on their order. -/
theorem lookup_of_perm (canonical : Canonical types) (permutation : types.Perm others)
    (wanted : Key) : lookup wanted types = lookup wanted others := by
  cases found : lookup wanted types with
  | none =>
      rw [lookup_eq_none, (permutation.map key).mem_iff, ← lookup_eq_none] at found
      exact found.symm
  | some type =>
      rw [← key_of_lookup found, lookup_of_mem (canonical.of_perm permutation)]
      exact permutation.mem_iff.mp (mem_of_lookup found)

/-- Canonical alternatives that are alike by key are reordered. -/
theorem reordered_of_alikeByKey (canonical : Canonical types) (canonical' : Canonical others)
    (alike : AlikeByKey types others) : Reordered types others := by
  induction types generalizing others with
  | nil =>
      cases others with
      | nil => exact .nil
      | cons type others =>
          have found := alike type.key
          rw [lookup_cons, if_pos rfl] at found
          cases found
  | cons type types ih =>
      obtain ⟨first, _, rest⟩ := canonical_cons.mp canonical
      have found := alike type.key
      rw [lookup_cons, if_pos rfl] at found
      -- What `others` hold for the key of `type` is brought to the front.
      cases counterpart : lookup type.key others with
      | none =>
          rw [counterpart] at found
          cases found
      | some other =>
          rw [counterpart] at found
          cases found with
          | some head =>
              have permutation := List.perm_cons_erase (mem_of_lookup counterpart)
              have front := canonical'.of_perm permutation
              obtain ⟨first', _, rest'⟩ := canonical_cons.mp front
              have tail : Reordered types (others.erase other) := by
                apply ih rest rest'
                intro wanted
                by_cases same : type.key = wanted
                · subst same
                  rw [lookup_eq_none.mpr first, lookup_eq_none.mpr (head.1 ▸ first')]
                  exact .none
                · have here := alike wanted
                  rwa [lookup_cons, if_neg same, lookup_of_perm canonical' permutation,
                    lookup_cons, if_neg (head.1 ▸ same)] at here
              exact ((Reordered.of_alike head types).trans (tail.cons other)).trans
                (.of_perm permutation.symm)

theorem alikeByKey_cons {first second : Descriptor} (head : Alike first second)
    (tail : AlikeByKey types others) : AlikeByKey (first :: types) (second :: others) := by
  intro wanted
  rw [lookup_cons, lookup_cons, head.1]
  split
  · exact .some head
  · exact tail wanted

/-- A container is canonical inside if its children are. -/
@[simp]
theorem canonicalInside_container {name : String} {children : Alternatives} :
    CanonicalInside (.container name children) ↔ Canonical children := by
  simp [CanonicalInside, parts]

/-- A mapping is canonical inside if its keys and its values are. -/
@[simp]
theorem canonicalInside_mapping {keys values : Alternatives} :
    CanonicalInside (.mapping keys values) ↔ Canonical keys ∧ Canonical values := by
  simp [CanonicalInside, parts]

/-- Reordered alternatives have the same keys. -/
theorem Reordered.keys_perm (reordered : Reordered types others) :
    (types.map key).Perm (others.map key) := by
  induction reordered with
  | nil => exact .nil
  | cons type _ ih => exact ih.cons type.key
  | swap first second types => exact .swap second.key first.key (types.map key)
  | container => exact .refl _
  | mapping => exact .refl _
  | trans _ _ first second => exact first.trans second

/-- Alternatives stay canonical when they are reordered. -/
theorem Reordered.canonical (reordered : Reordered types others) (canonical : Canonical types) :
    Canonical others := by
  induction reordered with
  | nil => exact canonical
  | cons type rest ih =>
      obtain ⟨absent, own, canonical⟩ := canonical_cons.mp canonical
      exact canonical_cons.mpr ⟨absent ∘ rest.keys_perm.mem_iff.mpr, own, ih canonical⟩
  | swap first second types => exact canonical.of_perm (.swap second first types)
  | container name types _ ih =>
      rw [canonical_cons, canonicalInside_container] at canonical ⊢
      exact ⟨canonical.1, ih canonical.2.1, canonical.2.2⟩
  | mapping types _ _ left right =>
      rw [canonical_cons, canonicalInside_mapping] at canonical ⊢
      obtain ⟨absent, ⟨keys, values⟩, rest⟩ := canonical
      exact ⟨absent, ⟨left keys, right values⟩, rest⟩
  | trans _ _ first second => exact second (first canonical)

/-- Reordered alternatives are alike by key. -/
theorem Reordered.alikeByKey (reordered : Reordered types others) (canonical : Canonical types) :
    AlikeByKey types others := by
  induction reordered with
  | nil => exact .refl []
  | cons type _ ih => exact alikeByKey_cons (.refl type) (ih (canonical_cons.mp canonical).2.2)
  | swap first second types =>
      intro wanted
      rw [lookup_of_perm canonical (.swap second first types)]
      exact rel_refl _
  | container name types inside =>
      exact alikeByKey_cons ⟨rfl, .cons inside .nil⟩ (.refl types)
  | mapping types left right =>
      exact alikeByKey_cons ⟨rfl, .cons left (.cons right .nil)⟩ (.refl types)
  | trans first _ left right =>
      intro wanted
      exact rel_trans (left canonical wanted) (right (first.canonical canonical) wanted)

/-! ## Commutativity -/

/-- Adding is commutative up to order if joining the types of one key is. -/
theorem extend_comm_of
    (each : ∀ type ∈ others, ∀ kept : Descriptor, CanonicalInside kept → CanonicalInside type →
      kept.key = type.key → Alike (kept.joined type) (type.joined kept))
    (canonical : Canonical types) (canonical' : Canonical others) :
    Reordered (extend types others) (extend others types) := by
  apply reordered_of_alikeByKey
  · exact canonical.extend fun _ => canonical'.inside
  · exact canonical'.extend fun _ => canonical.inside
  · intro wanted
    rw [lookup_extend canonical canonical', lookup_extend canonical' canonical]
    cases one : lookup wanted types with
    | none =>
        cases lookup wanted others with
        | none => exact .none
        | some type => exact .some (.refl type)
    | some kept =>
        cases two : lookup wanted others with
        | none => exact .some (.refl kept)
        | some type =>
            apply Option.Rel.some
            apply each type (mem_of_lookup two) kept
            · exact canonical.inside (mem_of_lookup one)
            · exact canonical'.inside (mem_of_lookup two)
            · exact (key_of_lookup one).trans (key_of_lookup two).symm

/-- Joining lists element by element is commutative if joining the elements is. -/
theorem forall₂_zipWith_comm {α : Type} {join : α → α → α} {Same : α → α → Prop}
    {first second : List α}
    (each : ∀ x ∈ first, ∀ y ∈ second, Same (join x y) (join y x)) :
    List.Forall₂ Same (List.zipWith join first second) (List.zipWith join second first) := by
  induction first generalizing second with
  | nil => simp
  | cons x first ih =>
      cases second with
      | nil => simp
      | cons y second =>
          apply List.Forall₂.cons (each x List.mem_cons_self y List.mem_cons_self)
          apply ih
          intro x inFirst y inSecond
          exact each x (List.mem_cons_of_mem _ inFirst) y (List.mem_cons_of_mem _ inSecond)

/-- Joining types of one key is commutative, by induction on the second one. -/
theorem joined_comm {kept type : Descriptor} (own : CanonicalInside kept)
    (own' : CanonicalInside type) (together : kept.key = type.key) :
    Alike (kept.joined type) (type.joined kept) := by
  induction type using parts_induction generalizing kept with
  | step type ih =>
      refine ⟨by simpa using together, ?_⟩
      rw [parts_joined together, parts_joined together.symm]
      apply forall₂_zipWith_comm
      intro first inFirst second inSecond
      apply extend_comm_of _ (own first inFirst) (own' second inSecond)
      intro inner inside kept own own' together
      exact ih second inSecond inner inside own own' together

/-- **Commutativity.** Which alternatives come first matters to their order only. -/
theorem extend_comm (canonical : Canonical types) (canonical' : Canonical others) :
    Reordered (extend types others) (extend others types) := by
  apply extend_comm_of _ canonical canonical'
  intro type _ kept own own' together
  exact joined_comm own own' together

/-! ## The order of adding -/

/-- Joining lists element by element keeps a relation that joining the elements keeps. -/
theorem forall₂_zipWith {α : Type} {join : α → α → α} {Same : α → α → Prop}
    {first first' second second' : List α} (left : List.Forall₂ Same first first')
    (right : List.Forall₂ Same second second')
    (each : ∀ x ∈ first, ∀ x', Same x x' → ∀ y ∈ second, ∀ y', Same y y' →
      Same (join x y) (join x' y')) :
    List.Forall₂ Same (List.zipWith join first second) (List.zipWith join first' second') := by
  induction left generalizing second second' with
  | nil => simp
  | cons head _ ih =>
      cases right with
      | nil => simp
      | cons head' tail' =>
          apply List.Forall₂.cons (each _ List.mem_cons_self _ head _ List.mem_cons_self _ head')
          apply ih tail'
          intro x inFirst x' same y inSecond y' same'
          exact each x (List.mem_cons_of_mem _ inFirst) x' same y (List.mem_cons_of_mem _ inSecond)
            y' same'

/-- Merging what is found keeps it alike if joining does. -/
theorem rel_merge {first first' second second' : Option Descriptor}
    (left : Option.Rel Alike first first') (right : Option.Rel Alike second second')
    (each : ∀ kept kept' type type', first = some kept → second = some type → Alike kept kept' →
      Alike type type' → Alike (kept.joined type) (kept'.joined type')) :
    Option.Rel Alike (first.merge joined second) (first'.merge joined second') := by
  cases left with
  | none =>
      cases right with
      | none => exact .none
      | some right => exact .some right
  | some left =>
      cases right with
      | none => exact .some left
      | some right => exact .some (each _ _ _ _ rfl rfl left right)

/-- Adding to alike alternatives is alike if joining the types of one key is. -/
theorem extend_congr_of {types' others' : Alternatives}
    (each : ∀ type ∈ others, ∀ type' kept kept' : Descriptor, CanonicalInside kept →
      CanonicalInside type → kept.key = type.key → Alike kept kept' → Alike type type' →
        Alike (kept.joined type) (kept'.joined type'))
    (canonical : Canonical types) (canonical' : Canonical others)
    (first : Reordered types types') (second : Reordered others others') :
    Reordered (extend types others) (extend types' others') := by
  have left := first.canonical canonical
  have right := second.canonical canonical'
  apply reordered_of_alikeByKey
  · exact canonical.extend fun _ => canonical'.inside
  · exact left.extend fun _ => right.inside
  · intro wanted
    rw [lookup_extend canonical canonical', lookup_extend left right]
    apply rel_merge (first.alikeByKey canonical wanted) (second.alikeByKey canonical' wanted)
    intro kept kept' type type' one two like like'
    apply each type (mem_of_lookup two) type' kept kept' _ _ _ like like'
    · exact canonical.inside (mem_of_lookup one)
    · exact canonical'.inside (mem_of_lookup two)
    · exact (key_of_lookup one).trans (key_of_lookup two).symm

/-- Joining alike types of one key is alike, by induction on the second one. -/
theorem joined_congr {kept kept' type type' : Descriptor} (own : CanonicalInside kept)
    (own' : CanonicalInside type) (together : kept.key = type.key) (like : Alike kept kept')
    (like' : Alike type type') : Alike (kept.joined type) (kept'.joined type') := by
  induction type using parts_induction generalizing kept kept' type' with
  | step type ih =>
      have together' : kept'.key = type'.key := like.1.symm.trans (together.trans like'.1)
      refine ⟨by simpa using like.1, ?_⟩
      rw [parts_joined together, parts_joined together']
      apply forall₂_zipWith like.2 like'.2
      intro first inFirst first' same second inSecond second' same'
      apply extend_congr_of _ (own first inFirst) (own' second inSecond) same same'
      intro inner inside inner' kept kept' own own' together like like'
      exact ih second inSecond inner inside own own' together like like'

/-- Reordered alternatives are reordered when reordered ones are added. -/
theorem Reordered.extend {types' others' : Alternatives} (canonical : Canonical types)
    (canonical' : Canonical others) (first : Reordered types types')
    (second : Reordered others others') :
    Reordered (extend types others) (extend types' others') := by
  apply extend_congr_of _ canonical canonical' first second
  intro type _ type' kept kept' own own' together like like'
  exact joined_congr own own' together like like'

/-- Two lots of alternatives may be added in either order. -/
theorem extend_right_comm (canonical : Canonical types) (canonical' : Canonical others)
    (canonical'' : Canonical more) :
    Reordered (extend (extend types others) more) (extend (extend types more) others) := by
  rw [extend_assoc canonical canonical' canonical'', extend_assoc canonical canonical'' canonical']
  apply Reordered.extend canonical _ (.refl types) (extend_comm canonical' canonical'')
  exact canonical'.extend fun _ => canonical''.inside

/-- Reordered alternatives are reordered when several lots are added. -/
theorem foldl_extend_congr {several : List Alternatives} (start : Reordered types others)
    (canonical : Canonical types) (each : ∀ added ∈ several, Canonical added) :
    Reordered (several.foldl extend types) (several.foldl extend others) := by
  induction several generalizing types others with
  | nil => exact start
  | cons added several ih =>
      obtain ⟨first, rest⟩ := List.forall_mem_cons.mp each
      apply ih _ _ rest
      · exact Reordered.extend canonical first start (.refl added)
      · exact canonical.extend fun _ => first.inside

/-- The order in which alternatives are added matters to their order only. -/
theorem foldl_extend_perm {several several' : List Alternatives}
    (permutation : several.Perm several') (canonical : Canonical types)
    (each : ∀ added ∈ several, Canonical added) :
    Reordered (several.foldl extend types) (several'.foldl extend types) := by
  induction permutation generalizing types with
  | nil => exact .refl types
  | cons added _ ih =>
      obtain ⟨first, rest⟩ := List.forall_mem_cons.mp each
      exact ih (canonical.extend fun _ => first.inside) rest
  | swap added other several =>
      obtain ⟨second, each⟩ := List.forall_mem_cons.mp each
      obtain ⟨first, rest⟩ := List.forall_mem_cons.mp each
      apply foldl_extend_congr (extend_right_comm canonical second first) _ rest
      exact (canonical.extend fun _ => second.inside).extend fun _ => first.inside
  | trans left _ first second =>
      apply (first canonical each).trans (second canonical _)
      intro added member
      exact each added (left.mem_iff.mpr member)

/-- A type is added once. -/
theorem add_add_self (canonical : Canonical types) (own : CanonicalInside type) :
    add (add types type) type = add types type := by
  have alone := canonical_singleton own
  have twice := extend_assoc canonical alone alone
  rwa [extend_self] at twice

/-- Adding alternatives is adding them one by one. -/
theorem extend_eq_foldl (types others : Alternatives) :
    extend types others = (others.map single).foldl extend types := by
  induction others generalizing types with
  | nil => rfl
  | cons type others ih => exact ih (add types type)

/-- **Semilattice.** Adding alternatives is idempotent, for whole alternatives and for one
descriptor, associative with the order of the alternatives, and commutative up to it.  So
neither the order in which alternatives are added nor that in which descriptors are added
changes more than the order of the result. -/
theorem extend_semilattice {types others more : Alternatives} (built : Built types)
    (built' : Built others) (built'' : Built more) :
    extend types types = types ∧
      (∀ type : Descriptor, (∀ part ∈ type.parts, Built part) →
        add (add types type) type = add types type) ∧
      extend (extend types others) more = extend types (extend others more) ∧
      Reordered (extend types others) (extend others types) ∧
      (∀ several several' : List Alternatives, several.Perm several' →
        (∀ added ∈ several, Built added) →
          Reordered (several.foldl extend types) (several'.foldl extend types)) ∧
      (∀ added added' : List Descriptor, added.Perm added' →
        (∀ type ∈ added, ∀ part ∈ type.parts, Built part) →
          Reordered (extend types added) (extend types added')) := by
  have canonical := built.canonical
  have canonical' := built'.canonical
  refine ⟨extend_self types, ?_, extend_assoc canonical canonical' built''.canonical,
    extend_comm canonical canonical', ?_, ?_⟩
  · intro type inside
    exact add_add_self canonical fun part member => (inside part member).canonical
  · intro several several' permutation each
    exact foldl_extend_perm permutation canonical fun added member => (each added member).canonical
  · intro added added' permutation inside
    rw [extend_eq_foldl, extend_eq_foldl]
    apply foldl_extend_perm (permutation.map single) canonical
    intro alone member
    obtain ⟨type, present, rfl⟩ := List.mem_map.mp member
    exact canonical_singleton fun part within => (inside type present part within).canonical

/-- Mappings and containers in each other, added to themselves and in either order. -/
theorem extend_semilattice_nested :
    let mappings : Alternatives := [.container "list" [.mapping [.leaf "str"] [.leaf "int"]]]
    let texts : Alternatives :=
      [.leaf "None", .container "list" [.leaf "str", .mapping [.leaf "int"] [.leaf "int"]]]
    Built mappings ∧ Built texts ∧
      extend mappings texts =
        [.container "list" [.mapping [.leaf "str", .leaf "int"] [.leaf "int"], .leaf "str"],
          .leaf "None"] ∧
      extend texts mappings =
        [.leaf "None",
          .container "list" [.leaf "str", .mapping [.leaf "int", .leaf "str"] [.leaf "int"]]] ∧
      extend (extend mappings texts) mappings = extend mappings (extend texts mappings) ∧
      Reordered (extend mappings texts) (extend texts mappings) := by
  intro mappings texts
  have leaves : ∀ name, Built [.leaf name] := fun name => .single (by simp [parts])
  have entries : ∀ key value, ∀ part ∈ (mapping [.leaf key] [.leaf value]).parts, Built part := by
    intro key value
    simpa [parts] using ⟨leaves key, leaves value⟩
  have listed : Built mappings := by
    apply Built.single
    exact List.forall_mem_singleton.mpr (Built.single (entries "str" "int"))
  have written : Built texts := by
    have children : Built [.leaf "str", .mapping [.leaf "int"] [.leaf "int"]] :=
      (leaves "str").add (entries "int" "int")
    have inside : ∀ part ∈ (container "list" _).parts, Built part :=
      List.forall_mem_singleton.mpr children
    exact (leaves "None").add inside
  obtain ⟨-, -, associative, commutative, -⟩ := extend_semilattice listed written listed
  exact ⟨listed, written, by decide, by decide, associative, commutative⟩

end Alternatives

end DocSketch
