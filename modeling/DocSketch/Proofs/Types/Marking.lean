import DocSketch.Resolution.Resolver
import Mathlib.Data.List.TakeWhile

/-!
# Marks around types that are not built in

A written type is shown as it is if all it names is built in, and with marks around it
otherwise.  A label with several alternatives is split into them, and each of them is built
in if the label is.

* `Label.Uncut`: a text without a place at which a label is split.
* `Label.splitFrom_uncut`: the parts into which a label is split are such texts.
* `isBuiltinLabel_of_isName`: a single name is built in if it is one of the known ones.
* `Descriptor.Marked`: at every level, leaves are built in, and what is marked is not.
* `Alternatives.extend_marked`: adding alternatives keeps this.
* `TypeFormat.classify_marked`: so does a label that is turned into types.
-/

namespace DocSketch

namespace Label

variable {join cs part : List Char} {depth : Nat} {c : Char}

/-- There is no `join` outside brackets in a text that starts at the given bracket depth. -/
def Uncut (join : List Char) : Nat → List Char → Prop
  | _, [] => True
  | depth, c :: rest =>
    ¬(depth = 0 ∧ join ≠ [] ∧ join.isPrefixOf (c :: rest)) ∧ Uncut join (depthAfter depth c) rest

/-- A label that is not cut is one part. -/
theorem splitFrom_of_uncut (uncut : Uncut join depth cs) (part : List Char) :
    splitFrom join depth part cs = [part.reverse ++ cs] := by
  induction cs generalizing depth part with
  | nil => rw [splitFrom, List.append_nil]
  | cons c rest ih =>
      rw [splitFrom, if_neg uncut.1, ih uncut.2, List.reverse_cons, List.append_assoc]
      rfl

/-- The part that has begun goes on up to the first cut, and neither it nor the parts after it
can be cut further. -/
theorem splitFrom_uncut (join : List Char) (depth : Nat) (part cs : List Char) :
    ∃ front others, splitFrom join depth part cs = (part.reverse ++ front) :: others ∧
      front <+: cs ∧ Uncut join depth front ∧ ∀ other ∈ others, Uncut join 0 other := by
  fun_induction splitFrom join depth part cs with
  | case1 depth part =>
      exact ⟨[], [], by rw [List.append_nil], List.nil_prefix, trivial, by simp⟩
  | case2 depth part c rest cut ih =>
      obtain ⟨front, others, split, -, uncut, further⟩ := ih
      refine ⟨[], _, by rw [List.append_nil], List.nil_prefix, trivial, ?_⟩
      rw [split]
      exact List.forall_mem_cons.mpr ⟨uncut, further⟩
  | case3 depth part c rest whole ih =>
      obtain ⟨front, others, split, ahead, uncut, further⟩ := ih
      refine ⟨c :: front, others, ?_, List.cons_prefix_cons.mpr ⟨rfl, ahead⟩, ⟨?_, uncut⟩,
        further⟩
      · rw [split, List.reverse_cons, List.append_assoc]
        rfl
      · rintro ⟨outside, some, found⟩
        refine whole ⟨outside, some, ?_⟩
        rw [List.isPrefixOf_iff_prefix] at found ⊢
        exact found.trans (List.cons_prefix_cons.mpr ⟨rfl, ahead⟩)

/-- A part of a label is not cut further. -/
theorem uncut_of_mem_splitFrom (member : part ∈ splitFrom join 0 [] cs) : Uncut join 0 part := by
  obtain ⟨front, others, split, -, uncut, further⟩ := splitFrom_uncut join 0 [] cs
  rw [split] at member
  rcases List.mem_cons.mp member with rfl | later
  · exact uncut
  · exact further part later

/-- Whether a text is a single identifier. -/
def isName : List Char → Bool
  | [] => false
  | c :: rest => isIdentifierStart c && rest.all isIdentifierPart

theorem isName_cons :
    isName (c :: cs) = true ↔
      isIdentifierStart c = true ∧ ∀ d ∈ cs, isIdentifierPart d = true := by
  rw [isName, Bool.and_eq_true, List.all_eq_true]

/-- What starts an identifier may stand in it. -/
theorem isIdentifierPart_of_start (starts : isIdentifierStart c = true) :
    isIdentifierPart c = true := by
  simp only [isIdentifierStart, isIdentifierPart, Char.isAlphanum, Bool.or_eq_true] at starts ⊢
  exact starts.imp_left .inl

/-- A text in which a `join` cannot even start has none. -/
theorem not_isPrefixOf_of_not_mem {first : Char} {others : List Char} (absent : first ∉ cs) :
    ¬(first :: others).isPrefixOf cs = true := by
  intro found
  obtain ⟨rest, rfl⟩ := List.isPrefixOf_iff_prefix.mp found
  exact absent (List.mem_cons_self)

/-- A label without the first character of a join is not cut. -/
theorem uncut_of_not_mem {first : Char} {others : List Char} (absent : first ∉ cs) :
    Uncut (first :: others) depth cs := by
  induction cs generalizing depth with
  | nil => trivial
  | cons c rest ih =>
      refine ⟨fun cut => not_isPrefixOf_of_not_mem absent cut.2.2, ih fun later => ?_⟩
      exact absent (List.mem_cons_of_mem _ later)

/-- A label without the first character of a join has nothing to replace. -/
theorem replaceJoins_of_not_mem {first : Char} {others : List Char} (absent : first ∉ cs) :
    replaceJoins (first :: others) cs = cs := by
  induction cs with
  | nil => rw [replaceJoins]
  | cons c rest ih =>
      rw [replaceJoins, if_neg fun found => not_isPrefixOf_of_not_mem absent found.2,
        ih fun later => absent (List.mem_cons_of_mem _ later)]

/-- A name is its only identifier. -/
theorem identifiers_of_isName (named : isName cs = true) : identifiers cs = [cs] := by
  cases cs with
  | nil => cases named
  | cons c rest =>
      obtain ⟨starts, parts⟩ := isName_cons.mp named
      have whole : rest.takeWhile isIdentifierPart = rest := List.takeWhile_eq_self_iff.mpr parts
      have nothing : rest.dropWhile isIdentifierPart = [] := List.dropWhile_eq_nil_iff.mpr parts
      rw [identifiers, if_pos starts, whole, nothing, identifiers]

/-- A name has none but identifier characters. -/
theorem not_mem_of_isName (named : isName cs = true) (other : isIdentifierPart c = false) :
    c ∉ cs := by
  cases cs with
  | nil => exact List.not_mem_nil
  | cons d rest =>
      obtain ⟨starts, parts⟩ := isName_cons.mp named
      intro member
      rcases List.mem_cons.mp member with rfl | later
      · exact absurd (isIdentifierPart_of_start starts) (by simp [other])
      · exact absurd (parts c later) (by simp [other])

end Label

open Label

/-- The alternatives of a label that is built in are built in. -/
theorem isBuiltinLabel_of_mem_splitAlternatives {label join part : String}
    (builtin : isBuiltinLabel label join = true) (member : part ∈ splitAlternatives label join) :
    isBuiltinLabel part join = true := by
  obtain ⟨chars, listed, rfl⟩ := List.mem_map.mp member
  have alone := splitFrom_of_uncut (uncut_of_mem_splitFrom listed) []
  rw [isBuiltinLabel, String.toList_ofList, alone]
  simp only [List.reverse_nil, List.nil_append, List.all_cons, List.all_nil, Bool.and_true]
  exact List.all_eq_true.mp builtin chars listed

/-- A label in which the text between alternatives cannot even start is built in if anything is
found in it, and everything that is found names something built in. -/
theorem isBuiltinLabel_of_not_mem {label join : String} {first : Char} {others : List Char}
    (joined : join.toList = first :: others) (absent : first ∉ label.toList) :
    isBuiltinLabel label join = true ↔ identifiers label.toList ≠ [] ∧
      ∀ name ∈ identifiers label.toList, isBuiltinName (String.ofList name) = true := by
  rw [isBuiltinLabel, joined, splitFrom_of_uncut (uncut_of_not_mem absent)]
  simp only [List.reverse_nil, List.nil_append, List.all_cons, List.all_nil, Bool.and_true,
    isBuiltinPart, replaceJoins_of_not_mem absent, Bool.and_eq_true, Bool.not_eq_true',
    List.isEmpty_eq_false_iff, List.all_eq_true, ne_eq]

/-- A single name is built in as a label if it is that of a built-in type or exception, as
long as the text between alternatives starts with what is in no name. -/
theorem isBuiltinLabel_of_isName {name join : String} {first : Char} {others : List Char}
    (named : isName name.toList = true) (joined : join.toList = first :: others)
    (other : isIdentifierPart first = false) : isBuiltinLabel name join = isBuiltinName name := by
  rw [Bool.eq_iff_iff, isBuiltinLabel_of_not_mem joined (not_mem_of_isName named other),
    identifiers_of_isName named, List.forall_mem_singleton, String.ofList_toList]
  exact and_iff_right (List.cons_ne_nil _ _)

/-- Every name that the source language brings along is a single identifier. -/
theorem isName_of_isBuiltinName {name : String} (builtin : isBuiltinName name = true) :
    isName name.toList = true := by
  have all : (builtinTypes ++ builtinExceptions).all (fun name => isName name.toList) = true := by
    decide +kernel
  rw [isBuiltinName, Bool.or_eq_true, List.contains_iff_mem, List.contains_iff_mem] at builtin
  exact List.all_eq_true.mp all name (List.mem_append.mpr builtin)

/-- Where alternatives are joined as usual, a built-in name is a label that is built in. -/
theorem isBuiltinLabel_of_isBuiltinName {name join : String} (joined : join = " or ")
    (builtin : isBuiltinName name = true) : isBuiltinLabel name join = true := by
  subst joined
  rw [isBuiltinLabel_of_isName (isName_of_isBuiltinName builtin) rfl (by decide)]
  exact builtin

/-- At every level, leaves are built in, and what has marks around it is not. -/
inductive Descriptor.Marked (format : TypeFormat) : Descriptor → Prop
  | leaf {name : String} (builtin : isBuiltinLabel name format.alternativesJoin = true) :
      Marked format (.leaf name)
  | container {name : String} {children : List Descriptor}
      (inside : ∀ child ∈ children, Marked format child) :
      Marked format (.container name children)
  | mapping {keys values : List Descriptor} (left : ∀ key ∈ keys, Marked format key)
      (right : ∀ value ∈ values, Marked format value) : Marked format (.mapping keys values)
  | unresolved (text : String) : Marked format (.unresolved text)
  | foreign {label : String} (unknown : isBuiltinLabel label format.alternativesJoin = false) :
      Marked format (.foreign (format.foreignOpen ++ label ++ format.foreignClose))

namespace Alternatives

variable {format : TypeFormat} {types others changed : Alternatives}

/-- All alternatives are marked as they should be. -/
abbrev Marked (format : TypeFormat) (types : Alternatives) : Prop :=
  ∀ type ∈ types, type.Marked format

theorem Marked.append {type : Descriptor} (marked : Marked format types)
    (own : type.Marked format) : Marked format (types ++ [type]) :=
  List.forall_mem_append.mpr ⟨marked, List.forall_mem_singleton.mpr own⟩

/-- Alternatives stay marked when something is merged into a container of theirs. -/
theorem mergeContainer?_marked {name : String} {change : Alternatives → Alternatives}
    (keeps : ∀ kept, Marked format kept → Marked format (change kept))
    (marked : Marked format types) (merged : mergeContainer? name change types = some changed) :
    Marked format changed := by
  induction types generalizing changed with
  | nil => cases merged
  | cons type types ih =>
      obtain ⟨first, rest⟩ := List.forall_mem_cons.mp marked
      have later : (mergeContainer? name change types).map (type :: ·) = some changed →
          Marked format changed := by
        intro merged
        obtain ⟨tail, found, rfl⟩ := Option.map_eq_some_iff.mp merged
        exact List.forall_mem_cons.mpr ⟨first, ih rest found⟩
      cases type with
      | container kept children =>
          rw [mergeContainer?] at merged
          split at merged
          · cases merged
            cases first with
            | container inside =>
                exact List.forall_mem_cons.mpr ⟨.container (keeps children inside), rest⟩
          · exact later merged
      | leaf | mapping | unresolved | foreign => exact later merged

/-- Alternatives stay marked when something is merged into their mapping. -/
theorem mergeMapping?_marked {changeKeys changeValues : Alternatives → Alternatives}
    (keepsKeys : ∀ kept, Marked format kept → Marked format (changeKeys kept))
    (keepsValues : ∀ kept, Marked format kept → Marked format (changeValues kept))
    (marked : Marked format types)
    (merged : mergeMapping? changeKeys changeValues types = some changed) :
    Marked format changed := by
  induction types generalizing changed with
  | nil => cases merged
  | cons type types ih =>
      obtain ⟨first, rest⟩ := List.forall_mem_cons.mp marked
      have later : (mergeMapping? changeKeys changeValues types).map (type :: ·) = some changed →
          Marked format changed := by
        intro merged
        obtain ⟨tail, found, rfl⟩ := Option.map_eq_some_iff.mp merged
        exact List.forall_mem_cons.mpr ⟨first, ih rest found⟩
      cases type with
      | mapping keys values =>
          cases merged
          cases first with
          | mapping left right =>
              exact List.forall_mem_cons.mpr
                ⟨.mapping (keepsKeys keys left) (keepsValues values right), rest⟩
      | leaf | container | unresolved | foreign => exact later merged

mutual

/-- A marked type is added to marked alternatives, or joined to one of them. -/
theorem add_marked {types : Alternatives} (marked : Marked format types) :
    ∀ {type : Descriptor}, type.Marked format → Marked format (add types type)
  | .container name children, own => by
      have inside : Marked format children := by
        cases own with
        | container inside => exact inside
      rw [add]
      split
      · exact marked
      · cases merged : mergeContainer? name (fun kept => extend kept children) types with
        | none => exact marked.append own
        | some changed =>
            exact mergeContainer?_marked (fun kept known => extend_marked known inside) marked
              merged
  | .mapping keys values, own => by
      obtain ⟨left, right⟩ : Marked format keys ∧ Marked format values := by
        cases own with
        | mapping left right => exact ⟨left, right⟩
      rw [add]
      split
      · exact marked
      · cases merged : mergeMapping? (fun kept => extend kept keys)
            (fun kept => extend kept values) types with
        | none => exact marked.append own
        | some changed =>
            exact mergeMapping?_marked (fun kept known => extend_marked known left)
              (fun kept known => extend_marked known right) marked merged
  | .leaf name, own | .unresolved name, own | .foreign name, own => by
      rw [add]
      split
      · exact marked
      · exact marked.append own

/-- Alternatives stay marked when marked ones are added. -/
theorem extend_marked {types : Alternatives} (marked : Marked format types) :
    ∀ {others : Alternatives}, Marked format others → Marked format (extend types others)
  | [], _ => by
      rw [extend]
      exact marked
  | type :: others, known => by
      obtain ⟨first, rest⟩ := List.forall_mem_cons.mp known
      rw [extend]
      exact extend_marked (add_marked marked first) rest

end

theorem marked_nil : Marked format [] := List.forall_mem_nil _

end Alternatives

open Alternatives

/-- A label becomes leaves that are built in, or one type with marks around it. -/
theorem TypeFormat.classify_marked (format : TypeFormat) {finding : Finding}
    (known : ∀ types, finding = .types types → Marked format types) :
    Marked format (format.classify finding) := by
  cases finding with
  | types types => exact known types rfl
  | label text =>
      rw [classify]
      split
      case isTrue builtin =>
        refine extend_marked marked_nil fun type member => ?_
        obtain ⟨part, listed, rfl⟩ := List.mem_map.mp member
        exact .leaf (isBuiltinLabel_of_mem_splitAlternatives builtin listed)
      case isFalse unknown =>
        exact List.forall_mem_singleton.mpr (.foreign (Bool.eq_false_iff.mpr unknown))

end DocSketch
