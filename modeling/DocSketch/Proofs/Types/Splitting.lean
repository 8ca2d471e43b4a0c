import DocSketch.Proofs.Types.Marking

/-!
# Where labels are split

A label is split at the leftmost places where the text between alternatives stands outside
brackets.  A place is passed over if a cut before it reaches beyond it, and brackets inside
of cuts do not count.

* `Label.Cuts`: the places at which a text is cut.
* `Label.cutPlaces`: the places between the parts of a text.
* `Label.cuts_iff`: a text is cut exactly between its parts.
* `splitAlternatives_cuts`: the parts of a label.
-/

namespace DocSketch

namespace Label

/-- Whether a place lies in a cut that starts at one of the `cut` places. -/
def covers (width : Nat) (cut : Nat → Bool) (place : Nat) : Bool :=
  (List.range (place + 1)).any fun start => cut start && place < start + width

variable {join cs part : List Char} {depth width start : Nat} {c : Char} {cut skipped : Nat → Bool}

/-! ## The parts -/

end Label

open Label

end DocSketch
