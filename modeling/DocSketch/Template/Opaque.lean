import DocSketch.Fault.Basic
import DocSketch.Template.Options
import DocSketch.Text.Span

/-!
# Opaque text

Braces inside opaque text are not braces of the template.  Opaque texts nest, and one that is
never closed is no opaque text.

* `Template.runLength?`: the extent of opaque text.
* `Template.opaqueLength`: the opaque text that a text starts with.
* `Template.malformed`: the fault at a brace that has no partner.
-/

namespace DocSketch

namespace Template

/-- Number of characters up to and including the mark that closes opaque text; `depth`
counts the opaque texts around the current one.  A backslash hides what follows it. -/
def runLength? (opener closer : List Char) (depth : Nat) (cs : List Char) : Option Nat :=
  match cs with
  | [] => none
  | c :: rest =>
    if closer.isPrefixOf (c :: rest) then
      match depth with
      | 0 => some closer.length
      | outer + 1 =>
        (runLength? opener closer outer ((c :: rest).drop closer.length)).map (closer.length + ·)
    else if opener ≠ [] ∧ opener.isPrefixOf (c :: rest) then
      (runLength? opener closer (depth + 1) ((c :: rest).drop opener.length)).map
        (opener.length + ·)
    else if c = '\\' then
      (runLength? opener closer depth (rest.drop 1)).map (1 + (rest.take 1).length + ·)
    else
      (runLength? opener closer depth rest).map (1 + ·)
termination_by (cs.length, depth)
decreasing_by
  · rcases Nat.eq_zero_or_pos closer.length with hzero | hpos
    · rw [hzero, List.drop_zero]
      exact Prod.Lex.right _ (Nat.lt_succ_self outer)
    · apply Prod.Lex.left
      simp only [List.length_drop, List.length_cons]
      omega
  · have hpos : opener.length ≠ 0 := by simp_all
    apply Prod.Lex.left
    simp only [List.length_drop, List.length_cons]
    omega
  · apply Prod.Lex.left
    simp only [List.length_drop, List.length_cons]
    omega
  · apply Prod.Lex.left
    simp

/-- Number of characters of the opaque text at the start of `cs`, `0` if there is none
or it is never closed. -/
def opaqueLength (options : TemplateOptions) (cs : List Char) : Nat :=
  let opener := options.opaqueOpen.toList
  if opener ≠ [] ∧ opener.isPrefixOf cs then
    match runLength? opener options.opaqueClose.toList 0 (cs.drop opener.length) with
    | some length => opener.length + length
    | none => 0
  else
    0

/-- Name of the text that faults of templates point into. -/
def fileName : String := "<template>"

/-- A fault at a brace that has no partner. -/
def malformed (message : String) (offset : Nat) : Fault :=
  ⟨.malformedTemplate message, ⟨offset, fileName⟩⟩

end Template

end DocSketch
