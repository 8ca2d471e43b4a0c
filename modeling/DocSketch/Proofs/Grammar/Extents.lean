import DocSketch.Proofs.Grammar.Runs
import DocSketch.Proofs.Token.Stretches
import DocSketch.Proofs.Tree.Nodes

/-!
# The tokens that a node covers

Parentheses around an expression leave no trace in the tree: the node keeps the span it has
inside them.  So where a node starts or ends with an operand in parentheses, its own span leaves
a parenthesis out.  Without such an operand it covers all tokens that are read for it.

* `Expr.Edge`: the operands that a node starts or stops with.
* `Grammar.Closed`: the tokens of whole expressions, with balanced brackets.
* `Grammar.Parenthesised`: a span that stands in parentheses of its own.
* `Grammar.Spans`: the tokens that are read for an expression, and which of them its span
  covers.
* `Grammar.Owns`: the same for a new node, whose span covers all of them unless it starts or
  stops with an operand in parentheses.
-/

namespace DocSketch

/-- The operands that a node starts with, where `side` is the start of a span, or stops with, where
it is the stop: those of its parts that lie at this side of it, and so on inside of them. -/
inductive Expr.Edge (side : Span → Nat) : Expr → Expr → Prop
  | part {e part : Expr} (member : part ∈ e.parts) (level : side part.span = side e.span) :
      Edge side e part
  | inside {e part inner : Expr} (member : part ∈ e.parts) (level : side part.span = side e.span)
      (deeper : Edge side part inner) : Edge side e inner

/-- Kinds of tokens that are neither brackets nor stand for the layout of lines. -/
def TokenKind.isPlain (kind : TokenKind) : Bool :=
  !kind.isOpening && !kind.isClosing && !Lexeme.isLayoutKind kind

namespace Grammar

open Token Lexeme

variable {passed early late tokens : List Token} {token closing : Token} {e left right : Expr}

/-- The tokens of whole expressions: their brackets are balanced, and none stands for the
layout of lines. -/
structure Closed (passed : List Token) : Prop where
  balanced : Token.Balanced passed
  plain : ∀ token ∈ passed, isLayoutKind token.kind = false

namespace Closed

theorem nil : Closed [] := ⟨.nil, fun _ member => by cases member⟩

theorem append (first : Closed early) (second : Closed late) : Closed (early ++ late) where
  balanced := first.balanced.append second.balanced
  plain token member := (List.mem_append.mp member).elim (first.plain token) (second.plain token)

/-- A token that is neither a bracket nor layout. -/
theorem single (plain : token.kind.isPlain = true) : Closed [token] := by
  simp only [TokenKind.isPlain, Bool.and_eq_true, Bool.not_eq_true'] at plain
  obtain ⟨⟨unopened, unclosed⟩, visible⟩ := plain
  refine ⟨.cons unopened unclosed .nil, fun other member => ?_⟩
  rwa [List.mem_singleton.mp member]

theorem cons (plain : token.kind.isPlain = true) (others : Closed passed) :
    Closed (token :: passed) :=
  (single plain).append others

/-- Tokens without brackets and layout. -/
theorem of_forall (plain : ∀ token ∈ passed, token.kind.isPlain = true) : Closed passed := by
  induction passed with
  | nil => exact nil
  | cons token passed ih =>
      obtain ⟨first, others⟩ := List.forall_mem_cons.mp plain
      exact cons first (ih others)

/-- The tokens of whole expressions between two brackets. -/
theorem enclosed (opens : token.kind.isOpening = true) (closes : closing.kind.isClosing = true)
    (inner : Closed passed) : Closed (token :: (passed ++ [closing])) := by
  refine ⟨inner.balanced.enclosed opens closes, fun other member => ?_⟩
  rcases List.mem_cons.mp member with rfl | member
  · cases kind : other.kind <;> rw [kind] at opens <;> cases opens <;> rfl
  · rcases List.mem_append.mp member with inside | last
    · exact inner.plain other inside
    · rw [List.mem_singleton.mp last]
      cases kind : closing.kind <;> rw [kind] at closes <;> cases closes <;> rfl

end Closed

/-- Tokens with the parentheses that stand before and behind some of them. -/
structure Cut (passed opening inner closing : List Token) : Prop where
  whole : passed = opening ++ (inner ++ closing)
  opens : ∀ token ∈ opening, token.kind = .openParen
  closes : ∀ token ∈ closing, token.kind = .closeParen

/-- The first token starts where the span starts, and the last one stops where it stops. -/
structure Outlines (span : Span) (inner : List Token) : Prop where
  starts : inner.head?.map (fun token => token.span.start) = some span.start
  stops : inner.getLast?.map (fun token => token.span.stop) = some span.stop

/-- A span in parentheses: `front` stands up to the opening one and `back` from the closing one
on, with nothing between them but the tokens of the span and more parentheses around it. -/
structure Parenthesised (front own back : List Token) (span : Span) : Prop where
  opens : front.getLast?.map Token.kind = some .openParen
  closes : back.head?.map Token.kind = some .closeParen
  closed : Closed own
  cut : ∃ opening inner closing, Cut own opening inner closing ∧ Outlines span inner

/-- A span stands in parentheses of its own. -/
def Held (tokens : List Token) (span : Span) : Prop :=
  ∃ front own back, tokens = front ++ (own ++ back) ∧ Parenthesised front own back span

/-- The token that a node starts with is among the given ones. -/
def StartsIn (e : Expr) (tokens : List Token) : Prop :=
  ∃ token ∈ tokens, isLayoutKind token.kind = false ∧ token.span.start = e.span.start

/-- The token that a node stops with is among the given ones. -/
def StopsIn (e : Expr) (tokens : List Token) : Prop :=
  ∃ token ∈ tokens, isLayoutKind token.kind = false ∧ token.span.stop = e.span.stop

/-- A node starts with an operand in parentheses and goes on to the closing one or behind it. -/
def LosesOpening (tokens : List Token) (e : Expr) : Prop :=
  ∃ operand front own back, e.Edge Span.start operand ∧ tokens = front ++ (own ++ back) ∧
    Parenthesised front own back operand.span ∧ StopsIn e back

/-- A node stops with an operand in parentheses and starts at the opening one or before it. -/
def LosesClosing (tokens : List Token) (e : Expr) : Prop :=
  ∃ operand front own back, e.Edge Span.stop operand ∧ tokens = front ++ (own ++ back) ∧
    Parenthesised front own back operand.span ∧ StartsIn e front

/-- The tokens that are read for an expression: its span covers them but for parentheses at
both ends, which stand around the expression or around an operand at that end of it. -/
structure Spans (passed : List Token) (e : Expr) : Prop extends Closed passed where
  cut : ∃ opening inner closing, Cut passed opening inner closing ∧ Outlines e.span inner ∧
    (opening ≠ [] → Held passed e.span ∨ LosesOpening passed e) ∧
    (closing ≠ [] → Held passed e.span ∨ LosesClosing passed e)

/-- The tokens that are read for a new node: if its span leaves out parentheses at an end, an
operand stands in parentheses there. -/
structure Owns (passed : List Token) (e : Expr) : Prop extends Closed passed where
  cut : ∃ opening inner closing, Cut passed opening inner closing ∧ Outlines e.span inner ∧
    (opening ≠ [] → LosesOpening passed e) ∧ (closing ≠ [] → LosesClosing passed e)

namespace Parenthesised

variable {front own back : List Token} {span : Span}

/-- More tokens may stand before the opening parenthesis. -/
theorem append_left (held : Parenthesised front own back span) (early : List Token) :
    Parenthesised (early ++ front) own back span where
  opens := by
    obtain ⟨last, isLast, opens⟩ := Option.map_eq_some_iff.mp held.opens
    rw [List.getLast?_append, isLast, Option.some_or, Option.map_some, opens]
  closes := held.closes
  closed := held.closed
  cut := held.cut

/-- More tokens may stand behind the closing parenthesis. -/
theorem append_right (held : Parenthesised front own back span) (late : List Token) :
    Parenthesised front own (back ++ late) span where
  opens := held.opens
  closes := by
    obtain ⟨first, isFirst, closes⟩ := Option.map_eq_some_iff.mp held.closes
    rw [List.head?_append, isFirst, Option.some_or, Option.map_some, closes]
  closed := held.closed
  cut := held.cut

end Parenthesised

theorem StartsIn.mono (starts : StartsIn e early) (among : early ⊆ late) : StartsIn e late := by
  obtain ⟨token, member, same⟩ := starts
  exact ⟨token, among member, same⟩

theorem StopsIn.mono (stops : StopsIn e early) (among : early ⊆ late) : StopsIn e late := by
  obtain ⟨token, member, same⟩ := stops
  exact ⟨token, among member, same⟩

/-- A node starts among the tokens that start where it does. -/
theorem StartsIn.of_head? (plain : ∀ token ∈ passed, isLayoutKind token.kind = false)
    (starts : passed.head?.map (fun token => token.span.start) = some e.span.start) :
    StartsIn e passed := by
  obtain ⟨token, isFirst, same⟩ := Option.map_eq_some_iff.mp starts
  have member := List.mem_of_mem_head? isFirst
  exact ⟨token, member, plain token member, same⟩

/-- A node stops among the tokens that stop where it does. -/
theorem StopsIn.of_getLast? (plain : ∀ token ∈ passed, isLayoutKind token.kind = false)
    (stops : passed.getLast?.map (fun token => token.span.stop) = some e.span.stop) :
    StopsIn e passed := by
  obtain ⟨token, isLast, same⟩ := Option.map_eq_some_iff.mp stops
  have member := List.mem_of_mem_getLast? isLast
  exact ⟨token, member, plain token member, same⟩

/-- A node that leaves an opening parenthesis out does so among more tokens, too. -/
theorem LosesOpening.within (loses : LosesOpening passed e) (early late : List Token) :
    LosesOpening (early ++ (passed ++ late)) e := by
  obtain ⟨operand, front, own, back, edge, rfl, held, stops⟩ := loses
  refine ⟨operand, early ++ front, own, back ++ late, edge, ?_,
    (held.append_left early).append_right late, stops.mono (List.subset_append_left back late)⟩
  simp only [List.append_assoc]

/-- A node that leaves a closing parenthesis out does so among more tokens, too. -/
theorem LosesClosing.within (loses : LosesClosing passed e) (early late : List Token) :
    LosesClosing (early ++ (passed ++ late)) e := by
  obtain ⟨operand, front, own, back, edge, rfl, held, starts⟩ := loses
  refine ⟨operand, early ++ front, own, back ++ late, edge, ?_,
    (held.append_left early).append_right late,
    starts.mono (List.subset_append_right early front)⟩
  simp only [List.append_assoc]

/-- An opening parenthesis that the first operand of a node leaves out, the node leaves out,
too. -/
theorem LosesOpening.ofFirst (member : left ∈ e.parts) (starts : e.span.start = left.span.start)
    (lost : Held early left.span ∨ LosesOpening early left) (stops : StopsIn e late) :
    LosesOpening (early ++ late) e := by
  rcases lost with ⟨front, own, back, rfl, held⟩ | ⟨operand, front, own, back, edge, rfl, held, -⟩
  · refine ⟨left, front, own, back ++ late, .part member starts.symm, ?_,
      held.append_right late, stops.mono (List.subset_append_right back late)⟩
    simp only [List.append_assoc]
  · refine ⟨operand, front, own, back ++ late, .inside member starts.symm edge, ?_,
      held.append_right late, stops.mono (List.subset_append_right back late)⟩
    simp only [List.append_assoc]

/-- A closing parenthesis that the last operand of a node leaves out, the node leaves out,
too. -/
theorem LosesClosing.ofLast (member : right ∈ e.parts) (stops : e.span.stop = right.span.stop)
    (lost : Held late right.span ∨ LosesClosing late right) (starts : StartsIn e early) :
    LosesClosing (early ++ late) e := by
  rcases lost with ⟨front, own, back, rfl, held⟩ | ⟨operand, front, own, back, edge, rfl, held, -⟩
  · exact ⟨right, early ++ front, own, back, .part member stops.symm,
      (List.append_assoc early front _).symm, held.append_left early,
      starts.mono (List.subset_append_left early front)⟩
  · exact ⟨operand, early ++ front, own, back, .inside member stops.symm edge,
      (List.append_assoc early front _).symm, held.append_left early,
      starts.mono (List.subset_append_left early front)⟩

/-- A span covers at least one token. -/
theorem Outlines.ne_nil {span : Span} {inner : List Token} (outlines : Outlines span inner) :
    inner ≠ [] := by
  rintro rfl
  cases outlines.starts

/-- A new node is an expression that has just been read. -/
theorem Owns.spans (owns : Owns passed e) : Spans passed e := by
  obtain ⟨opening, inner, closing, cut, outlines, starts, stops⟩ := owns.cut
  exact ⟨owns.toClosed, opening, inner, closing, cut, outlines, fun some => .inr (starts some),
    fun some => .inr (stops some)⟩

/-- At least one token is read for an expression. -/
theorem Spans.ne_nil (spans : Spans passed e) : passed ≠ [] := by
  obtain ⟨opening, inner, closing, cut, outlines, -⟩ := spans.cut
  rw [cut.whole]
  simp [outlines.ne_nil]

/-- Parentheses around an expression do not change its span. -/
theorem Spans.grouped (opens : token.kind = .openParen) (closes : closing.kind = .closeParen)
    (spans : Spans passed e) : Spans (token :: (passed ++ [closing])) e := by
  refine ⟨spans.toClosed.enclosed (opens ▸ rfl) (closes ▸ rfl), ?_⟩
  obtain ⟨opening, inner, ending, cut, outlines, -⟩ := spans.cut
  have held : Held (token :: (passed ++ [closing])) e.span :=
    ⟨[token], passed, [closing], rfl, congrArg some opens, congrArg some closes, spans.toClosed,
      opening, inner, ending, cut, outlines⟩
  refine ⟨token :: opening, inner, ending ++ [closing], ⟨?_, ?_, ?_⟩, outlines,
    fun _ => .inl held, fun _ => .inl held⟩
  · rw [cut.whole]
    simp only [List.append_assoc, List.cons_append]
  · exact List.forall_mem_cons.mpr ⟨opens, cut.opens⟩
  · intro other member
    rcases List.mem_append.mp member with inside | last
    · exact cut.closes other inside
    · rw [List.mem_singleton.mp last, closes]

/-- Tokens behind others do not change the first one. -/
theorem head?_append_left {inner : List Token} (nonempty : inner ≠ []) (others : List Token) :
    (inner ++ others).head? = inner.head? := by
  cases inner with
  | nil => exact absurd rfl nonempty
  | cons => rfl

/-- Tokens before others do not change the last one. -/
theorem getLast?_append_right {inner : List Token} (nonempty : inner ≠ []) (others : List Token) :
    (others ++ inner).getLast? = inner.getLast? := by
  rw [List.getLast?_append]
  obtain ⟨last, found⟩ := Option.isSome_iff_exists.mp (List.getLast?_isSome.mpr nonempty)
  rw [found]
  rfl

/-- A node that starts with an operand starts where the tokens of the operand do. -/
theorem Spans.startsIn (spans : Spans passed left) (starts : e.span.start = left.span.start) :
    StartsIn e passed := by
  obtain ⟨opening, inner, closing, cut, outlines, -⟩ := spans.cut
  have among : inner ⊆ passed := fun token member => by
    rw [cut.whole]
    exact List.mem_append_right _ (List.mem_append_left _ member)
  refine StartsIn.mono (.of_head? (fun token member => spans.plain token (among member)) ?_) among
  rw [outlines.starts, starts]

/-- A node that stops with an operand stops where the tokens of the operand do. -/
theorem Spans.stopsIn (spans : Spans passed right) (stops : e.span.stop = right.span.stop) :
    StopsIn e passed := by
  obtain ⟨opening, inner, closing, cut, outlines, -⟩ := spans.cut
  have among : inner ⊆ passed := fun token member => by
    rw [cut.whole]
    exact List.mem_append_right _ (List.mem_append_left _ member)
  refine StopsIn.mono (.of_getLast? (fun token member => spans.plain token (among member)) ?_) among
  rw [outlines.stops, stops]

/-- A node that starts and ends with tokens of its own. -/
theorem Owns.ofTokens (closed : Closed passed) (outlines : Outlines e.span passed) :
    Owns passed e := by
  refine ⟨closed, [], passed, [], ⟨?_, ?_, ?_⟩, outlines, fun some => absurd rfl some,
    fun some => absurd rfl some⟩
  · simp only [List.nil_append, List.append_nil]
  · simp
  · simp

/-- A node that starts with the first token gone past and ends with the last one. -/
theorem Owns.ofPasses {cursor after : Cursor} (closed : Closed (token :: passed))
    (passes : cursor.Passes (token :: passed) after)
    (span : e.span = after.spanFrom token.span.start) : Owns (token :: passed) e := by
  refine .ofTokens closed ⟨?_, ?_⟩
  · rw [span]
    rfl
  · rw [span, passes.getLast? (List.cons_ne_nil _ _)]
    rfl

/-- A node that starts with a token of its own and ends with an operand. -/
theorem Owns.ofLast (closed : Closed (early ++ passed)) (spans : Spans passed right)
    (part : right ∈ e.parts)
    (starts : early.head?.map (fun token => token.span.start) = some e.span.start)
    (stops : e.span.stop = right.span.stop) : Owns (early ++ passed) e := by
  obtain ⟨opening, inner, closing, cut, outlines, -, trims⟩ := spans.cut
  refine ⟨closed, [], early ++ (opening ++ inner), closing, ⟨?_, ?_, cut.closes⟩, ⟨?_, ?_⟩,
    fun some => absurd rfl some, fun some => ?_⟩
  · rw [cut.whole]
    simp only [List.nil_append, List.append_assoc]
  · simp
  · rw [head?_append_left (by rintro rfl; cases starts), starts]
  · rw [getLast?_append_right (List.append_ne_nil_of_right_ne_nil _ outlines.ne_nil),
      getLast?_append_right outlines.ne_nil, outlines.stops, stops]
  · have plain : ∀ token ∈ early, isLayoutKind token.kind = false := fun token member =>
      closed.plain token (List.mem_append_left passed member)
    exact .ofLast part stops (trims some) (.of_head? plain starts)

/-- A node that starts with an operand and ends with a token of its own. -/
theorem Owns.ofFirst (closed : Closed (passed ++ late)) (spans : Spans passed left)
    (part : left ∈ e.parts) (starts : e.span.start = left.span.start)
    (stops : late.getLast?.map (fun token => token.span.stop) = some e.span.stop) :
    Owns (passed ++ late) e := by
  obtain ⟨opening, inner, closing, cut, outlines, trims, -⟩ := spans.cut
  refine ⟨closed, opening, inner ++ (closing ++ late), [], ⟨?_, cut.opens, ?_⟩, ⟨?_, ?_⟩,
    fun some => ?_, fun some => absurd rfl some⟩
  · rw [cut.whole]
    simp only [List.append_nil, List.append_assoc]
  · simp
  · rw [head?_append_left outlines.ne_nil, outlines.starts, starts]
  · have nonempty : late ≠ [] := by rintro rfl; cases stops
    rw [getLast?_append_right (List.append_ne_nil_of_right_ne_nil _ nonempty),
      getLast?_append_right nonempty, stops]
  · have plain : ∀ token ∈ late, isLayoutKind token.kind = false := fun token member =>
      closed.plain token (List.mem_append_right passed member)
    exact .ofFirst part starts (trims some) (.of_getLast? plain stops)

/-- A node that starts and ends with an operand. -/
theorem Owns.ofBoth (closed : Closed (early ++ (passed ++ late))) (first : Spans early left)
    (last : Spans late right) (parts : left ∈ e.parts ∧ right ∈ e.parts)
    (starts : e.span.start = left.span.start) (stops : e.span.stop = right.span.stop) :
    Owns (early ++ (passed ++ late)) e := by
  obtain ⟨opening, inner, ending, cut, outlines, trims, -⟩ := first.cut
  obtain ⟨opening', inner', closing, cut', outlines', -, trims'⟩ := last.cut
  refine ⟨closed, opening, inner ++ (ending ++ (passed ++ (opening' ++ inner'))), closing,
    ⟨?_, cut.opens, cut'.closes⟩, ⟨?_, ?_⟩, fun some => ?_, fun some => ?_⟩
  · rw [cut.whole, cut'.whole]
    simp only [List.append_assoc]
  · rw [head?_append_left outlines.ne_nil, outlines.starts, starts]
  · simp only [← List.append_assoc]
    rw [getLast?_append_right outlines'.ne_nil, outlines'.stops, stops]
  · exact .ofFirst parts.1 starts (trims some)
      ((last.stopsIn stops).mono (List.subset_append_right passed late))
  · rw [← List.append_assoc]
    exact .ofLast parts.2 stops (trims' some)
      ((first.startsIn starts).mono (List.subset_append_left early passed))

end Grammar

end DocSketch
