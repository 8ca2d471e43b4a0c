import DocSketch.Proofs.Grammar.Extents

/-!
# Parentheses that a span leaves out

A node that starts or stops with an operand in parentheses takes over the place of the operand
inside them.  Its span then covers one parenthesis of the pair and leaves the other one out, so
the brackets in it are not balanced.

* `Token.Row`: tokens that stand one behind the other.
* `Grammar.LosesOpening.unbalanced`, `Grammar.LosesClosing.unbalanced`: the tokens that such a
  node covers are unbalanced.
-/

namespace DocSketch

open Lexeme

namespace Token

variable {tokens front front' rest rest' opening middle closing : List Token}
  {first first' last : Token}

/-- Tokens that stand one behind the other; only those that stand for the layout of lines may
be empty. -/
structure Row (tokens : List Token) : Prop where
  ordered : tokens.Pairwise fun early late => early.span.stop ≤ late.span.start
  wide : ∀ token ∈ tokens, isLayoutKind token.kind = false → token.span.start < token.span.stop

/-- A token starts and stops before those behind it do. -/
theorem Row.before (row : Row (front ++ first :: rest)) (behind : first' ∈ rest)
    (visible : isLayoutKind first.kind = false) (visible' : isLayoutKind first'.kind = false) :
    first.span.start < first'.span.start ∧ first.span.stop < first'.span.stop := by
  obtain ⟨-, later, -⟩ := List.pairwise_append.mp row.ordered
  have apart := (List.pairwise_cons.mp later).1 first' behind
  have wide := row.wide first (List.mem_append_right _ List.mem_cons_self) visible
  have wide' := row.wide first'
    (List.mem_append_right _ (List.mem_cons_of_mem _ behind)) visible'
  omega

/-- No two tokens start or stop at the same place. -/
theorem Row.unique (row : Row tokens) (one : tokens = front ++ first :: rest)
    (other : tokens = front' ++ first' :: rest') (visible : isLayoutKind first.kind = false)
    (visible' : isLayoutKind first'.kind = false)
    (same : first.span.start = first'.span.start ∨ first.span.stop = first'.span.stop) :
    front = front' ∧ first = first' ∧ rest = rest' := by
  rcases List.append_eq_append_iff.mp (one.symm.trans other) with ⟨own, longer, tail⟩ |
    ⟨own, longer, tail⟩
  · cases own with
    | nil =>
        rw [List.nil_append, List.cons.injEq] at tail
        exact ⟨by rw [longer, List.append_nil], tail⟩
    | cons token own =>
        obtain ⟨rfl, rfl⟩ := List.cons.inj tail
        have before := (one ▸ row).before (List.mem_append_right own List.mem_cons_self) visible
          visible'
        omega
  · cases own with
    | nil =>
        rw [List.nil_append, List.cons.injEq] at tail
        exact ⟨by rw [longer, List.append_nil], tail.1.symm, tail.2.symm⟩
    | cons token own =>
        obtain ⟨rfl, rfl⟩ := List.cons.inj tail
        have before := (other ▸ row).before (List.mem_append_right own List.mem_cons_self) visible'
          visible
        omega

/-- The end of balanced tokens and a closing parenthesis behind them. -/
theorem unbalanced_of_closing (balanced : Balanced (opening ++ middle))
    (closes : last.kind = .closeParen) (late : List Token) :
    ¬Balanced (middle ++ last :: late) := by
  intro whole
  rw [Balanced, depth?_append] at balanced whole
  obtain ⟨deep, isDeep, known⟩ := Option.bind_eq_some_iff.mp balanced
  obtain ⟨after, isAfter, turned⟩ := Option.bind_eq_some_iff.mp whole
  have shifted := depth?_add isAfter deep
  rw [Nat.zero_add, known, Option.some.injEq] at shifted
  obtain rfl : after = 0 := by omega
  rw [depth?, closes] at turned
  cases turned

/-- The start of balanced tokens and an opening parenthesis before them. -/
theorem unbalanced_of_opening (balanced : Balanced (middle ++ closing))
    (opens : first.kind = .openParen) (early : List Token) :
    ¬Balanced (early ++ first :: middle) := by
  intro whole
  rw [Balanced, depth?_append] at balanced whole
  obtain ⟨deep, isDeep, -⟩ := Option.bind_eq_some_iff.mp balanced
  obtain ⟨after, -, turned⟩ := Option.bind_eq_some_iff.mp whole
  rw [depth?, opens, turn?_opening rfl, Option.bind_some, ← Nat.zero_add (after + 1),
    depth?_add isDeep, Option.some.injEq] at turned
  omega

end Token

/-- An operand at an edge of a node lies at that side of it. -/
theorem Expr.Edge.level {side : Span → Nat} {e operand : Expr} (edge : e.Edge side operand) :
    side operand.span = side e.span := by
  induction edge with
  | part _ level => exact level
  | inside _ level _ ih => exact ih.trans level

namespace Grammar

open Token

variable {tokens front inner back : List Token} {e : Expr}

/-- A node does not stop behind the tokens that it covers. -/
theorem Outlines.not_stopsIn (row : Row (front ++ (inner ++ back)))
    (outlines : Outlines e.span inner) (plain : ∀ token ∈ inner, isLayoutKind token.kind = false) :
    ¬StopsIn e back := by
  rintro ⟨token, behind, visible, stops⟩
  obtain ⟨last, isLast, same⟩ := Option.map_eq_some_iff.mp outlines.stops
  obtain ⟨own, rfl⟩ := List.getLast?_eq_some_iff.mp isLast
  rw [List.append_assoc, ← List.append_assoc] at row
  have before := row.before behind (plain last (List.mem_append_right own List.mem_cons_self))
    visible
  omega

/-- A node does not start before the tokens that it covers. -/
theorem Outlines.not_startsIn (row : Row (front ++ (inner ++ back)))
    (outlines : Outlines e.span inner) (plain : ∀ token ∈ inner, isLayoutKind token.kind = false) :
    ¬StartsIn e front := by
  rintro ⟨token, ahead, visible, starts⟩
  obtain ⟨first, isFirst, same⟩ := Option.map_eq_some_iff.mp outlines.starts
  have listed : first ∈ inner := List.mem_of_mem_head? isFirst
  obtain ⟨early, own, rfl⟩ := List.append_of_mem ahead
  rw [List.append_assoc, List.cons_append] at row
  have before := row.before (List.mem_append_right own (List.mem_append_left back listed)) visible
    (plain first listed)
  omega

/-- Where an opening parenthesis is left out, the closing one is covered. -/
theorem LosesOpening.unbalanced (row : Row tokens) (whole : tokens = front ++ (inner ++ back))
    (outlines : Outlines e.span inner) (plain : ∀ token ∈ inner, isLayoutKind token.kind = false)
    (loses : LosesOpening tokens e) : ¬Token.Balanced inner := by
  obtain ⟨operand, before, own, behind, edge, split, held, stops⟩ := loses
  have bounded : ¬StopsIn e back := outlines.not_stopsIn (whole ▸ row) plain
  obtain ⟨opening, middle, closing, cut, outlines'⟩ := held.cut
  have plain' : ∀ token ∈ middle, isLayoutKind token.kind = false := fun token member => by
    refine held.closed.plain token ?_
    rw [cut.whole]
    exact List.mem_append_right _ (List.mem_append_left _ member)
  cases inner with
  | nil => exact absurd rfl outlines.ne_nil
  | cons first inner =>
  cases middle with
  | nil => exact absurd rfl outlines'.ne_nil
  | cons first' middle =>
  have starts : first.span.start = e.span.start := Option.some.inj outlines.starts
  have starts' : first'.span.start = operand.span.start := Option.some.inj outlines'.starts
  have other : tokens = (before ++ opening) ++ first' :: ((middle ++ closing) ++ behind) := by
    rw [split, cut.whole]
    simp only [List.append_assoc, List.cons_append]
  obtain ⟨-, rfl, rest⟩ := row.unique whole other (plain _ List.mem_cons_self)
    (plain' _ List.mem_cons_self) (.inl (by rw [starts, starts', edge.level]))
  rcases List.append_eq_append_iff.mp rest with ⟨more, -, rfl⟩ | ⟨more, rfl, rfl⟩
  · exact absurd (stops.mono (List.subset_append_right more behind)) bounded
  cases more with
  | nil => exact absurd stops bounded
  | cons last more =>
      have balanced : Token.Balanced (opening ++ (first :: middle ++ closing)) :=
        cut.whole ▸ held.closed.balanced
      exact unbalanced_of_closing balanced (Option.some.inj held.closes) more

/-- Where a closing parenthesis is left out, the opening one is covered. -/
theorem LosesClosing.unbalanced (row : Row tokens) (whole : tokens = front ++ (inner ++ back))
    (outlines : Outlines e.span inner) (plain : ∀ token ∈ inner, isLayoutKind token.kind = false)
    (loses : LosesClosing tokens e) : ¬Token.Balanced inner := by
  obtain ⟨operand, before, own, behind, edge, split, held, starts⟩ := loses
  have bounded : ¬StartsIn e front := outlines.not_startsIn (whole ▸ row) plain
  obtain ⟨opening, middle, closing, cut, outlines'⟩ := held.cut
  obtain ⟨last, isLast, stops⟩ := Option.map_eq_some_iff.mp outlines.stops
  obtain ⟨last', isLast', stops'⟩ := Option.map_eq_some_iff.mp outlines'.stops
  obtain ⟨inner, rfl⟩ := List.getLast?_eq_some_iff.mp isLast
  obtain ⟨middle, rfl⟩ := List.getLast?_eq_some_iff.mp isLast'
  have visible' : isLayoutKind last'.kind = false := by
    refine held.closed.plain last' ?_
    rw [cut.whole]
    simp
  have one : tokens = (front ++ inner) ++ last :: back := by
    rw [whole]
    simp only [List.append_assoc, List.cons_append, List.nil_append]
  have other : tokens = (before ++ (opening ++ middle)) ++ last' :: (closing ++ behind) := by
    rw [split, cut.whole]
    simp only [List.append_assoc, List.cons_append, List.nil_append]
  obtain ⟨same, rfl, -⟩ := row.unique one other
    (plain last (List.mem_append_right inner List.mem_cons_self)) visible'
    (.inr (by rw [stops, stops', edge.level]))
  rcases List.append_eq_append_iff.mp same with ⟨more, rfl, rfl⟩ | ⟨more, rfl, -⟩
  · rcases List.eq_nil_or_concat more with rfl | ⟨more, first, rfl⟩
    · rw [List.append_nil] at starts
      exact absurd starts bounded
    have opens : first.kind = .openParen := by
      have opens := held.opens
      rw [List.concat_eq_append, ← List.append_assoc, List.getLast?_concat] at opens
      exact Option.some.inj opens
    have balanced : Token.Balanced ((opening ++ (middle ++ [last])) ++ closing) := by
      have balanced := held.closed.balanced
      rwa [cut.whole, ← List.append_assoc] at balanced
    have unbalanced := unbalanced_of_opening balanced opens more
    rwa [List.concat_eq_append, List.append_assoc, List.append_assoc, List.singleton_append,
      List.append_assoc]
  · exact absurd (starts.mono (List.subset_append_left before more)) bounded

end Grammar

end DocSketch
