import DocSketch.Proofs.Template.FieldNumbers

/-!
# Registries of numbers

A numbering finds the numbers in use among those of its keys.  A registry also keeps them in a
set of their own, which new numbers and sizes are taken from.  Whatever both are asked for, in
whatever order, they hand out the same, and the parts of a registry stay in step with what it has
handed out.

* `NumberCall`, `Handout`, `handOut`: calls one after the other, and what they are answered with.
* `Registry`: a numbering with the set of its numbers.
* `Registry.Balanced`: what every call on a registry keeps.
* `Registry.InStep`: what the handouts of a registry say about keys and numbers.
* `Registry.handOut_inStep`: any calls on a new registry leave it in step with their handouts.
-/

namespace DocSketch

/-! ## Calls -/

/-- What can be asked of the numbers in use. -/
inductive NumberCall where
  /-- A new key, for a field of its own. -/
  | mint
  /-- The number of a key. -/
  | numberFor (key : FieldKey)
deriving DecidableEq, Repr

/-- What a call hands out. -/
inductive Handout where
  | minted (key : FieldKey)
  | numbered (key : FieldKey) (number : Nat)
deriving DecidableEq, Repr

/-- The key that a handout mints. -/
def Handout.mintedKey? : Handout → Option FieldKey
  | minted key => some key
  | numbered _ _ => none

/-- Keys minted by calls, in their order. -/
def mintedKeys (handouts : List Handout) : List FieldKey := handouts.filterMap Handout.mintedKey?

/-- Keys that have been seen: those that have been handed a number. -/
def seenKeys (handouts : List Handout) : Set FieldKey :=
  {key | ∃ number, .numbered key number ∈ handouts}

/-- Makes calls one after the other; `call` is how a single one is made. -/
def handOut {Book : Type} (call : Book → NumberCall → Handout × Book) :
    Book → List NumberCall → List Handout × Book
  | book, [] => ([], book)
  | book, asked :: calls =>
    let (handout, next) := call book asked
    let (handouts, final) := handOut call next calls
    (handout :: handouts, final)

/-- Calls are answered one after the other. -/
theorem handOut_cons {Book : Type} (call : Book → NumberCall → Handout × Book) (book : Book)
    (asked : NumberCall) (calls : List NumberCall) :
    handOut call book (asked :: calls) =
      ((call book asked).1 :: (handOut call (call book asked).2 calls).1,
        (handOut call (call book asked).2 calls).2) := rfl

def Numbering.call (numbering : Numbering) : NumberCall → Handout × Numbering
  | .mint =>
    let (key, minted) := numbering.mint
    (.minted key, minted)
  | .numberFor key =>
    let (number, used) := numbering.numberFor key
    (.numbered key number, used)

/-! ## Registries -/

/-- Numbers in use, also kept without their keys. -/
structure Registry extends Numbering where
  used : Finset Nat
deriving DecidableEq

namespace Registry

def empty : Registry := ⟨.empty, ∅⟩

def mint (registry : Registry) : FieldKey × Registry :=
  (.anonymous (registry.minted + 1), { registry with minted := registry.minted + 1 })

/-- Number of a key; a new key gets the number after the highest one in use. -/
def numberFor (registry : Registry) (key : FieldKey) : Nat × Registry :=
  match registry.numbers.lookup key with
  | some number => (number, registry)
  | none =>
    let number := registry.used.sup id + 1
    (number, { registry with
      numbers := (key, number) :: registry.numbers
      used := insert number registry.used })

def size (registry : Registry) : Nat := registry.used.card

def call (registry : Registry) : NumberCall → Handout × Registry
  | .mint =>
    let (key, minted) := registry.mint
    (.minted key, minted)
  | .numberFor key =>
    let (number, used) := registry.numberFor key
    (.numbered key number, used)

/-- The number of a key, zero for keys that have none. -/
def numberOf (registry : Registry) (key : FieldKey) : Nat := (registry.numbers.lookup key).getD 0

variable {handouts : List Handout} {registry : Registry} {key : FieldKey} {number : Nat}

/-- A known key gets its number again, and the registry stays as it is. -/
theorem numberFor_of_some (known : registry.numbers.lookup key = some number) :
    registry.numberFor key = (number, registry) := by
  rw [numberFor, known]

/-- A new key gets the number above those in use, and has it from then on. -/
theorem numberFor_of_none (absent : registry.numbers.lookup key = none) :
    registry.numberFor key =
      (registry.used.sup id + 1, { registry with
        numbers := (key, registry.used.sup id + 1) :: registry.numbers
        used := insert (registry.used.sup id + 1) registry.used }) := by
  rw [numberFor, absent]

/-! ## What a call keeps -/

/-- What every call on a registry keeps, after all of these handouts. -/
structure Balanced (handouts : List Handout) (registry : Registry) : Prop where
  /-- The numbers in use are as many as the keys that have one. -/
  used : registry.used = Finset.Icc 1 registry.numbers.length
  highest : registry.highest = registry.numbers.length
  /-- A key has the number that it has been handed. -/
  handed : ∀ key number,
    registry.numbers.lookup key = some number ↔ .numbered key number ∈ handouts
  within : ∀ key number, .numbered key number ∈ handouts → number ∈ registry.used
  apart : ∀ first second number, .numbered first number ∈ handouts →
    .numbered second number ∈ handouts → first = second
  onto : ∀ number ∈ registry.used, ∃ key, .numbered key number ∈ handouts
  minted : mintedKeys handouts = (List.range' 1 registry.minted).map .anonymous

theorem Balanced.empty : Balanced [] .empty where
  used := rfl
  highest := rfl
  handed _ number := iff_of_false (Option.some_ne_none number).symm List.not_mem_nil
  within _ _ member := absurd member List.not_mem_nil
  apart _ _ _ member := absurd member List.not_mem_nil
  onto _ member := absurd member (Finset.notMem_empty _)
  minted := rfl

/-- The greatest of the first numbers is the last one. -/
theorem sup_Icc_one (most : Nat) : (Finset.Icc 1 most).sup id = most := by
  refine Nat.le_antisymm (Finset.sup_le fun _ member => (Finset.mem_Icc.mp member).2) ?_
  cases most with
  | zero => exact Nat.zero_le _
  | succ most =>
      exact Finset.le_sup (f := id) (Finset.mem_Icc.mpr ⟨Nat.succ_pos most, Nat.le_refl _⟩)

/-- New keys get the number after as many as there are keys. -/
theorem Balanced.sup_eq (balanced : Balanced handouts registry) :
    registry.used.sup id = registry.numbers.length := by
  rw [balanced.used, sup_Icc_one]

theorem mintedKeys_append (handouts more : List Handout) :
    mintedKeys (handouts ++ more) = mintedKeys handouts ++ mintedKeys more :=
  List.filterMap_append

/-- After a key got a number, a key has that number or had one before. -/
theorem mem_concat_numbered {other : FieldKey} {n : Nat} :
    .numbered other n ∈ handouts ++ [.numbered key number] ↔
      .numbered other n ∈ handouts ∨ other = key ∧ n = number := by
  simp

/-- Handouts that give no key another number keep the balance. -/
theorem Balanced.of_same {more : List Handout} {next : Registry}
    (balanced : Balanced handouts registry) (numbers : next.numbers = registry.numbers)
    (used : next.used = registry.used)
    (same : ∀ key number, .numbered key number ∈ more ↔ .numbered key number ∈ handouts)
    (minted : mintedKeys more = (List.range' 1 next.minted).map .anonymous) :
    Balanced more next where
  used := by rw [used, numbers, balanced.used]
  highest := by rw [Numbering.highest, numbers, ← Numbering.highest, balanced.highest]
  handed key number := by rw [numbers, same, balanced.handed]
  within key number := by
    rw [same, used]
    exact balanced.within key number
  apart first second number := by
    rw [same, same]
    exact balanced.apart first second number
  onto number := by
    simp only [used, same]
    exact balanced.onto number
  minted := minted

/-- Making a key keeps the registry balanced. -/
theorem Balanced.mint (balanced : Balanced handouts registry) :
    Balanced (handouts ++ [.minted registry.mint.1]) registry.mint.2 := by
  refine balanced.of_same rfl rfl (fun key number => by simp) ?_
  have last : mintedKeys [.minted registry.mint.1] = [.anonymous (registry.minted + 1)] := rfl
  rw [mintedKeys_append, balanced.minted, last, Registry.mint, List.range'_concat, List.map_append,
    Nat.one_mul, Nat.add_comm 1]
  rfl

/-- A key that has a number is handed that number again. -/
theorem Balanced.again (balanced : Balanced handouts registry)
    (known : registry.numbers.lookup key = some number) :
    Balanced (handouts ++ [.numbered key number]) registry := by
  refine balanced.of_same rfl rfl (fun other n => ?_) ?_
  · rw [mem_concat_numbered, or_iff_left_of_imp]
    rintro ⟨rfl, rfl⟩
    exact (balanced.handed other n).mp known
  · rw [mintedKeys_append, ← balanced.minted]
    exact List.append_nil _

/-- A key that has no number gets the one after as many as there are keys. -/
theorem Balanced.fresh (balanced : Balanced handouts registry)
    (absent : registry.numbers.lookup key = none) :
    Balanced (handouts ++ [.numbered key (registry.numbers.length + 1)])
      { registry with
        numbers := (key, registry.numbers.length + 1) :: registry.numbers
        used := insert (registry.numbers.length + 1) registry.used } := by
  have unseen : ∀ n, .numbered key n ∉ handouts := by
    intro n member
    rw [← balanced.handed, absent] at member
    cases member
  -- The numbers in use are those up to the size, so the next one is not among them.
  have unused : ∀ other, .numbered other (registry.numbers.length + 1) ∉ handouts := by
    intro other member
    have old := balanced.within _ _ member
    rw [balanced.used, Finset.mem_Icc] at old
    exact absurd old.2 (Nat.not_succ_le_self _)
  refine ⟨?used, ?highest, ?handed, ?within, ?apart, ?onto, ?minted⟩
  case used =>
    ext n
    rw [balanced.used, Finset.mem_insert, Finset.mem_Icc, Finset.mem_Icc, List.length_cons]
    omega
  case highest =>
    rw [Template.highest_cons, balanced.highest, List.length_cons]
    omega
  case handed =>
    intro other n
    rw [mem_concat_numbered, ← balanced.handed]
    by_cases same : other = key
    · subst same
      rw [List.lookup_cons_self, absent]
      simp [eq_comm]
    · have apart : (other == key) = false := beq_false_of_ne same
      rw [List.lookup_cons, apart]
      simp [same]
  case within =>
    intro other n member
    rcases mem_concat_numbered.mp member with old | ⟨-, rfl⟩
    · exact Finset.mem_insert_of_mem (balanced.within _ _ old)
    · exact Finset.mem_insert_self _ _
  case apart =>
    intro first second n one other
    rcases mem_concat_numbered.mp one with old | ⟨rfl, rfl⟩
    · rcases mem_concat_numbered.mp other with older | ⟨rfl, rfl⟩
      · exact balanced.apart first second n old older
      · exact absurd old (unused _)
    · rcases mem_concat_numbered.mp other with older | ⟨rfl, -⟩
      · exact absurd older (unused _)
      · rfl
  case onto =>
    intro n member
    rcases Finset.mem_insert.mp member with rfl | old
    · exact ⟨key, List.mem_append_right _ List.mem_cons_self⟩
    · obtain ⟨other, handed⟩ := balanced.onto n old
      exact ⟨other, List.mem_append_left _ handed⟩
  case minted =>
    rw [mintedKeys_append, ← balanced.minted]
    exact List.append_nil _

/-- A call keeps the balance, and hands out what the numbering alone would. -/
theorem Balanced.call (balanced : Balanced handouts registry) (asked : NumberCall) :
    Balanced (handouts ++ [(registry.call asked).1]) (registry.call asked).2 ∧
      registry.toNumbering.call asked =
        ((registry.call asked).1, (registry.call asked).2.toNumbering) := by
  cases asked with
  | mint => exact ⟨balanced.mint, rfl⟩
  | numberFor key =>
      cases known : registry.numbers.lookup key with
      | some number =>
          simp only [Registry.call, Numbering.call, numberFor_of_some known, Numbering.numberFor,
            known]
          exact ⟨balanced.again known, trivial⟩
      | none =>
          simp only [Registry.call, Numbering.call, numberFor_of_none known,
            Template.numberFor_of_none known, balanced.sup_eq, balanced.highest]
          exact ⟨balanced.fresh known, trivial⟩

/-- Calls keep the balance, and hand out what the numbering alone would. -/
theorem Balanced.handOut (balanced : Balanced handouts registry) (calls : List NumberCall) :
    Balanced (handouts ++ (handOut Registry.call registry calls).1)
        (handOut Registry.call registry calls).2 ∧
      handOut Numbering.call registry.toNumbering calls =
        ((handOut Registry.call registry calls).1,
          (handOut Registry.call registry calls).2.toNumbering) := by
  induction calls generalizing handouts registry with
  | nil => exact ⟨(List.append_nil handouts).symm ▸ balanced, rfl⟩
  | cons asked calls ih =>
      obtain ⟨next, same⟩ := balanced.call asked
      obtain ⟨final, others⟩ := ih next
      rw [List.append_assoc, List.singleton_append] at final
      rw [handOut_cons, handOut_cons, same]
      exact ⟨final, by rw [others]⟩

/-! ## Keys and numbers -/

/-- What the handouts of a registry say about keys and numbers. -/
structure InStep (handouts : List Handout) (registry : Registry) : Prop where
  /-- The numbers in use are those from one to the size. -/
  used : registry.used = Finset.Icc 1 registry.size
  /-- The registry knows the numbers of the keys that have been seen, and no others. -/
  known : ∀ key number,
    registry.numbers.lookup key = some number ↔ .numbered key number ∈ handouts
  /-- Each key that has been seen has a number in use to itself, and no number is left over. -/
  paired : Set.BijOn registry.numberOf (seenKeys handouts) registry.used
  /-- A key is handed the same number every time. -/
  settled : ∀ key first second, .numbered key first ∈ handouts →
    .numbered key second ∈ handouts → first = second
  /-- No key is minted twice. -/
  minted : (mintedKeys handouts).Nodup
  /-- A minted key is no name, and shares its number with no other key. -/
  unshared : ∀ key ∈ mintedKeys handouts, (∀ name, key ≠ .named name) ∧
    ∀ other number, .numbered key number ∈ handouts → .numbered other number ∈ handouts →
      other = key

/-- A balanced registry has as many entries as it says. -/
theorem Balanced.size_eq (balanced : Balanced handouts registry) :
    registry.size = registry.numbers.length := by
  rw [size, balanced.used, Nat.card_Icc, Nat.add_sub_cancel]

/-- A key has the number that it was given. -/
theorem Balanced.numberOf_eq (balanced : Balanced handouts registry)
    (member : .numbered key number ∈ handouts) : registry.numberOf key = number := by
  rw [numberOf, (balanced.handed key number).mpr member, Option.getD_some]

/-- The keys that were seen and the numbers in use belong together one by one. -/
theorem Balanced.paired (balanced : Balanced handouts registry) :
    Set.BijOn registry.numberOf (seenKeys handouts) registry.used := by
  refine ⟨?into, ?apart, ?onto⟩
  case into =>
    rintro key ⟨number, member⟩
    rw [balanced.numberOf_eq member]
    exact balanced.within key number member
  case apart =>
    rintro first ⟨number, one⟩ second ⟨_, other⟩ same
    rw [balanced.numberOf_eq one, balanced.numberOf_eq other] at same
    exact balanced.apart first second number one (same ▸ other)
  case onto =>
    intro number member
    obtain ⟨key, handed⟩ := balanced.onto number member
    exact ⟨key, ⟨number, handed⟩, balanced.numberOf_eq handed⟩

/-- A balanced registry is in step with what it handed out. -/
theorem Balanced.inStep (balanced : Balanced handouts registry) : InStep handouts registry where
  used := by rw [balanced.size_eq, balanced.used]
  known := balanced.handed
  paired := balanced.paired
  settled key first second one other := by
    rw [← balanced.numberOf_eq one, balanced.numberOf_eq other]
  minted := by
    rw [balanced.minted]
    exact List.Nodup.map (fun _ _ same => FieldKey.anonymous.inj same) List.nodup_range'
  unshared key member := by
    rw [balanced.minted] at member
    obtain ⟨id, -, rfl⟩ := List.mem_map.mp member
    refine ⟨fun _ => FieldKey.noConfusion, ?_⟩
    intro other number own shared
    exact balanced.apart other _ number shared own

/-- **Numbers stay in step.** Whatever a new registry is asked for, in whatever order, its numbers,
its keys and its minted keys stay in step with what it has handed out, and a numbering without a
set of its numbers hands out the same and has the same size. -/
theorem handOut_inStep (calls : List NumberCall) :
    ∃ handouts registry,
      handOut Registry.call .empty calls = (handouts, registry) ∧
      handOut Numbering.call .empty calls = (handouts, registry.toNumbering) ∧
      registry.size = registry.toNumbering.size ∧
      InStep handouts registry := by
  obtain ⟨balanced, same⟩ := Balanced.empty.handOut calls
  exact ⟨_, _, rfl, same, balanced.size_eq, balanced.inStep⟩

/-- Numbers are given in the order in which they are asked for, not in that of minting. -/
example : (handOut Registry.call .empty [.mint, .mint, .numberFor (.anonymous 2),
    .numberFor (.named "x"), .numberFor (.anonymous 1), .numberFor (.named "x")]).1 =
    [.minted (.anonymous 1), .minted (.anonymous 2), .numbered (.anonymous 2) 1,
      .numbered (.named "x") 2, .numbered (.anonymous 1) 3, .numbered (.named "x") 2] := by
  decide

end Registry

end DocSketch
