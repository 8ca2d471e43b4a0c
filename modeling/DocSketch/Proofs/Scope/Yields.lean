import DocSketch.Proofs.Grammar.YieldOrder
import DocSketch.Proofs.Scope.Contents

/-!
# What a scope yields

The walk over a program looks for `yield` expressions only in what statements return, assign or
only evaluate, and lists the positional arguments of a call before its keywords.  Where all
`yield` expressions of a body stand in such values and the calls there are orderly, a scope has
the operands of all of them in source order; otherwise some may be missing or misplaced.

* `Stmt.YieldsPlainly`: the bodies of which nothing is missed.
* `Program.YieldsInOrder`: a scope yields what its statements yield, in source order.
* `Source.scope_yields`: this for bodies of which nothing is missed.
* `Source.scope_yields_missed`: neither condition can be left out.
-/

namespace DocSketch

namespace Stmt

/-- The outermost expressions of a statement, unless it opens a scope. -/
def ownExpressions : Stmt → List Expr
  | function .. | classDef .. => []
  | stmt => stmt.expressions

/-- The value of a statement is one of its own expressions. -/
theorem mem_ownExpressions_of_value? {stmt : Stmt} {e : Expr} (value : stmt.value? = some e) :
    e ∈ stmt.ownExpressions := by
  cases stmt with
  | expression | augAssign | assign | ret =>
      cases value
      simp [ownExpressions, expressions]
  | _ => cases value

/-- All `yield` expressions of a body stand in the values of its statements, and no argument of
a call there yields behind a keyword that yields. -/
structure YieldsPlainly (body : List Stmt) : Prop where
  placed : ∀ clause stmt, Owned body clause stmt → ∀ e ∈ stmt.ownExpressions,
    ∀ node : Expr, node.isYield = true → node.Within e → stmt.value? = some e
  orderly : ∀ clause stmt, Owned body clause stmt → ∀ e, stmt.value? = some e → e.Orderly

/-- The `yield` expressions in the value of a statement. -/
def yieldNodes (stmt : Stmt) : List Expr := stmt.value?.toList.flatMap Expr.yieldNodes

/-- The yields of a statement are the `yield` expressions in its value. -/
theorem mem_yieldNodes_iff {stmt : Stmt} {node : Expr} :
    node ∈ stmt.yieldNodes ↔
      node.isYield = true ∧ ∃ e, stmt.value? = some e ∧ node.Within e := by
  simp only [yieldNodes, List.mem_flatMap, Option.mem_toList, Expr.mem_yieldNodes_iff]
  constructor
  · rintro ⟨e, value, yields, within⟩
    exact ⟨yields, e, value, within⟩
  · rintro ⟨yields, e, value, within⟩
    exact ⟨e, value, yields, within⟩

/-- A statement yields the operands of its yields. -/
theorem yielded_eq (stmt : Stmt) : stmt.yielded = stmt.yieldNodes.map Expr.operand := by
  rw [yielded, yieldNodes, List.map_flatMap, funext Expr.yields_eq]

/-- Where the `yield` expressions in the value of a statement start, if it is orderly. -/
noncomputable def marks (stmt : Stmt) : List Nat := stmt.value?.toList.flatMap Expr.marks

/-- The marks of a statement with an orderly value are the starts of its yields. -/
theorem marks_of_orderly {stmt : Stmt} (orderly : ∀ e, stmt.value? = some e → e.Orderly) :
    stmt.marks = stmt.yieldNodes.map fun node => node.span.start := by
  unfold marks yieldNodes
  cases value : stmt.value? with
  | none => rfl
  | some e =>
      simp only [Option.toList_some, List.flatMap_singleton]
      exact Expr.marks_of_orderly (orderly e value)

/-- The marks of a statement are where some of the tokens at its start are. -/
theorem marks_sublist_starts {stmt : Stmt} {head : List Token}
    (heads : Grammar.Heads (fun e own => e.marks.Sublist (Token.starts own)) stmt head) :
    stmt.marks.Sublist (Token.starts head) := by
  unfold marks
  cases value : stmt.value? with
  | none => exact List.nil_sublist _
  | some e =>
      obtain ⟨front, own, back, rfl, marked⟩ := heads.value e value
      rw [Option.toList_some, List.flatMap_singleton, Token.starts_append, Token.starts_append]
      exact (marked.trans (List.sublist_append_left _ _)).trans (List.sublist_append_right _ _)

end Stmt

/-- A scope has the operands of exactly the `yield` expressions that its body owns, in source
order. -/
def Program.YieldsInOrder (program : Program) (scope : Scope) : Prop :=
  ∃ body, program.Opens scope body ∧ ∃ nodes : List Expr,
    (∀ node, node ∈ nodes ↔ node.isYield = true ∧
      ∃ clause stmt, Stmt.Owned body clause stmt ∧ ∃ e ∈ stmt.ownExpressions, node.Within e) ∧
    (nodes.map fun node => node.span.start).Pairwise (· < ·) ∧
    scope.yields = nodes.map Expr.operand

namespace Source

variable {text file : String} {source : Source}

/-- The marks of the statements of an accepted text increase. -/
theorem marks_ordered (accepted : read text file = .ok source) :
    ((source.program.body.flatMap Stmt.preorder).flatMap Stmt.marks).Pairwise (· < ·) := by
  have values : ∀ tokens, (Token.starts tokens).Pairwise (· < ·) → ∀ fuel level,
      Grammar.Runs tokens (Grammar.readTuple fuel level)
        fun passed _ e => e.marks.Sublist (Token.starts passed) := by
    intro tokens ordered fuel level cursor e after inside ran
    exact (Grammar.marking ordered fuel).tuple level cursor e after inside trivial ran
  obtain ⟨tokens, laid, ordered⟩ := program_laid values accepted
  exact ordered.sublist (laid.marks Stmt.marks fun _ _ heads => Stmt.marks_sublist_starts heads)

/-- **What a scope yields.**  If all `yield` expressions of a body stand in the values of its
statements, and no argument of a call there yields behind a keyword that yields, then the scope
has the operands of exactly these expressions, in source order. -/
theorem scope_yields (accepted : read text file = .ok source) {scope : Scope}
    (member : scope ∈ source.scopes.scopes)
    (plainly : ∀ body, source.program.Opens scope body → Stmt.YieldsPlainly body) :
    source.program.YieldsInOrder scope := by
  obtain ⟨body, opens, items, owned, listed, holds⟩ := scope_holds accepted member
  have plain := plainly body opens
  have known : ∀ item ∈ items, Stmt.Owned body item.1 item.2 :=
    fun item inside => (owned item.1 item.2).mp inside
  refine ⟨body, opens, items.flatMap fun item => item.2.yieldNodes, fun node => ?_, ?_, ?_⟩
  · simp only [List.mem_flatMap, Stmt.mem_yieldNodes_iff]
    constructor
    · rintro ⟨item, inside, yields, e, value, within⟩
      exact ⟨yields, item.1, item.2, known item inside, e,
        Stmt.mem_ownExpressions_of_value? value, within⟩
    · rintro ⟨yields, clause, stmt, owns, e, own, within⟩
      have value := plain.placed clause stmt owns e own node yields within
      exact ⟨(clause, stmt), (owned clause stmt).mpr owns, yields, e, value, within⟩
  · -- Marks are listed for the whole program; those of the scope are all of its `yield`s.
    have same : (items.flatMap fun item => item.2.yieldNodes).map (fun node => node.span.start) =
        (items.map Prod.snd).flatMap Stmt.marks := by
      rw [List.map_flatMap, List.flatMap_map]
      refine congrArg List.flatten (List.map_congr_left fun item inside => ?_)
      exact (Stmt.marks_of_orderly (plain.orderly _ _ (known item inside))).symm
    rw [same]
    exact (marks_ordered accepted).sublist (listed.flatMap _)
  · rw [holds.yields, List.map_flatMap]
    simp only [Stmt.yielded_eq]

/-- A call with an argument and a keyword that yield. -/
def yieldingCall : Expr :=
  .call ⟨13, 36⟩ (.symbol ⟨13, 14⟩ "g") [.yield ⟨16, 21⟩ none false]
    [⟨some "k", .yield ⟨27, 34⟩ (some (.number ⟨33, 34⟩ .int "2")) false⟩]

/-- A statement that assigns what this call gives. -/
def yieldingStmt : Stmt := .assign ⟨9, 36⟩ [.symbol ⟨9, 10⟩ "x"] (some yieldingCall) none

/-- A function with this statement. -/
def yielding : Source :=
  .ofProgram "def f(): x = g((yield), k=(yield 2))" "m.py"
    ⟨[.function ⟨0, 36⟩ "f" ⟨[], none⟩ [yieldingStmt] [] false], ⟨0, 36⟩⟩

theorem read_yielding : read "def f(): x = g((yield), k=(yield 2))" "m.py" = .ok yielding := by
  have scanned : Layout.scanWithin 40 .initial "m.py" 0
      "def f(): x = g((yield), k=(yield 2))".toList =
      some (.ok [⟨.defKw, "def", ⟨0, 3⟩⟩, ⟨.identifier, "f", ⟨4, 5⟩⟩, ⟨.openParen, "(", ⟨5, 6⟩⟩,
        ⟨.closeParen, ")", ⟨6, 7⟩⟩, ⟨.colon, ":", ⟨7, 8⟩⟩, ⟨.identifier, "x", ⟨9, 10⟩⟩,
        ⟨.assignment, "=", ⟨11, 12⟩⟩, ⟨.identifier, "g", ⟨13, 14⟩⟩, ⟨.openParen, "(", ⟨14, 15⟩⟩,
        ⟨.openParen, "(", ⟨15, 16⟩⟩, ⟨.yieldKw, "yield", ⟨16, 21⟩⟩, ⟨.closeParen, ")", ⟨21, 22⟩⟩,
        ⟨.comma, ",", ⟨22, 23⟩⟩, ⟨.identifier, "k", ⟨24, 25⟩⟩, ⟨.assignment, "=", ⟨25, 26⟩⟩,
        ⟨.openParen, "(", ⟨26, 27⟩⟩, ⟨.yieldKw, "yield", ⟨27, 32⟩⟩, ⟨.number, "2", ⟨33, 34⟩⟩,
        ⟨.closeParen, ")", ⟨34, 35⟩⟩, ⟨.closeParen, ")", ⟨35, 36⟩⟩, ⟨.newline, "", ⟨36, 36⟩⟩,
        ⟨.eof, "", ⟨36, 36⟩⟩]) := by
    with_unfolding_all rfl
  exact read_of_steps 40 scanned (by with_unfolding_all rfl)

/-- The call yields in source order. -/
theorem yieldingCall_orderly : yieldingCall.Orderly := by
  have number : (Expr.number ⟨33, 34⟩ .int "2").Orderly :=
    Expr.orderly_of_children (fun _ _ _ _ same => by cases same) (List.forall_mem_nil _)
  refine Expr.orderly_of_children ?_ ?_
  · intro span callee arguments keywords same
    cases same
    intro node first other second
    simp [Expr.yieldNodes_eq, Expr.isYield, Expr.children] at first second
    rw [first, second]
    decide
  · simp only [yieldingCall, Expr.children, List.map_cons, List.map_nil, List.cons_append,
      List.nil_append, List.forall_mem_cons, List.not_mem_nil, false_implies, implies_true,
      and_true]
    refine ⟨?_, ?_, ?_⟩
    all_goals refine Expr.orderly_of_children (fun _ _ _ _ same => by cases same) ?_
    · exact List.forall_mem_nil _
    · exact List.forall_mem_nil _
    · exact List.forall_mem_singleton.mpr number

/-- The statement yields in its value only, and in order. -/
theorem yieldingStmt_plainly : Stmt.YieldsPlainly [yieldingStmt] where
  placed clause stmt owned e own node yields within := by
    obtain rfl := owned.eq_of_simple rfl
    have listed := Expr.mem_yieldNodes_iff.mpr ⟨yields, within⟩
    simp only [yieldingStmt, Stmt.ownExpressions, Stmt.expressions, Option.toList, List.cons_append,
      List.nil_append, List.mem_cons, List.not_mem_nil, or_false] at own
    obtain rfl | rfl := own
    · simp [Expr.yieldNodes_eq, Expr.isYield, Expr.children] at listed
    · rfl
  orderly clause stmt owned e value := by
    obtain rfl := owned.eq_of_simple rfl
    cases value
    exact yieldingCall_orderly

/-- A function that yields in an argument and in a keyword behind it. -/
theorem scope_yields_yielding :
    ∃ scope ∈ yielding.scopes.scopes, scope.name = "f" ∧
      scope.yields = [.constant ⟨16, 21⟩ .none, .number ⟨33, 34⟩ .int "2"] ∧
      yielding.program.YieldsInOrder scope := by
  have member : yielding.scopes.get 1 ∈ yielding.scopes.scopes :=
    List.mem_cons_of_mem _ List.mem_cons_self
  have opens : yielding.program.Opens (yielding.scopes.get 1) [yieldingStmt] :=
    .function rfl rfl (.top List.mem_cons_self)
  have plainly : ∀ body, yielding.program.Opens (yielding.scopes.get 1) body →
      Stmt.YieldsPlainly body := by
    intro body opensToo
    rw [opens_unique read_yielding opens opensToo]
    exact yieldingStmt_plainly
  refine ⟨_, member, rfl, ?_, scope_yields read_yielding member plainly⟩
  with_unfolding_all rfl

/-- A `yield` in a condition. -/
def askedYield : Expr := .yield ⟨17, 24⟩ (some (.number ⟨23, 24⟩ .int "1")) false

def askedStmt : Stmt := .conditional ⟨13, 39⟩ askedYield [.keyword ⟨35, 39⟩ .passKw []] []

/-- A function that yields in a condition only. -/
def asked : Source :=
  .ofProgram "def f():\n    if (yield 1):\n        pass\n" "m.py"
    ⟨[.function ⟨0, 39⟩ "f" ⟨[], none⟩ [askedStmt] [] false], ⟨0, 40⟩⟩

theorem read_asked :
    read "def f():\n    if (yield 1):\n        pass\n" "m.py" = .ok asked := by
  have scanned : Layout.scanWithin 40 .initial "m.py" 0
      "def f():\n    if (yield 1):\n        pass\n".toList =
      some (.ok [⟨.defKw, "def", ⟨0, 3⟩⟩, ⟨.identifier, "f", ⟨4, 5⟩⟩, ⟨.openParen, "(", ⟨5, 6⟩⟩,
        ⟨.closeParen, ")", ⟨6, 7⟩⟩, ⟨.colon, ":", ⟨7, 8⟩⟩, ⟨.newline, "\n", ⟨8, 9⟩⟩,
        ⟨.indent, "", ⟨13, 13⟩⟩, ⟨.ifKw, "if", ⟨13, 15⟩⟩, ⟨.openParen, "(", ⟨16, 17⟩⟩,
        ⟨.yieldKw, "yield", ⟨17, 22⟩⟩, ⟨.number, "1", ⟨23, 24⟩⟩, ⟨.closeParen, ")", ⟨24, 25⟩⟩,
        ⟨.colon, ":", ⟨25, 26⟩⟩, ⟨.newline, "\n", ⟨26, 27⟩⟩, ⟨.indent, "", ⟨35, 35⟩⟩,
        ⟨.passKw, "pass", ⟨35, 39⟩⟩, ⟨.newline, "\n", ⟨39, 40⟩⟩, ⟨.dedent, "", ⟨40, 40⟩⟩,
        ⟨.dedent, "", ⟨40, 40⟩⟩, ⟨.eof, "", ⟨40, 40⟩⟩]) := by
    with_unfolding_all rfl
  exact read_of_steps 40 scanned (by with_unfolding_all rfl)

/-- The `yield` in the condition is missed. -/
theorem asked_missed : ¬asked.program.YieldsInOrder (asked.scopes.get 1) := by
  rintro ⟨body, opensToo, nodes, exact, -, yields⟩
  have opens : asked.program.Opens (asked.scopes.get 1) [askedStmt] :=
    .function rfl rfl (.top List.mem_cons_self)
  obtain rfl := opens_unique read_asked opens opensToo
  have empty : nodes = [] := List.map_eq_nil_iff.mp yields.symm
  have member : askedYield ∈ nodes := (exact askedYield).mpr
    ⟨rfl, none, askedStmt, .top List.mem_cons_self, askedYield, List.mem_cons_self, .refl _⟩
  rw [empty] at member
  cases member

/-- The `yield` of a keyword. -/
def earlierYield : Expr := .yield ⟨18, 25⟩ (some (.number ⟨24, 25⟩ .int "1")) false

/-- The `yield` of an argument behind it. -/
def laterYield : Expr := .yield ⟨30, 37⟩ (some (.number ⟨36, 37⟩ .int "2")) false

def mixedCall : Expr :=
  .call ⟨13, 39⟩ (.symbol ⟨13, 14⟩ "g") [.starred ⟨28, 37⟩ laterYield false]
    [⟨some "k", earlierYield⟩]

def mixedStmt : Stmt := .expression ⟨13, 39⟩ mixedCall

/-- A function with a call in which an argument yields behind a keyword that yields. -/
def mixed : Source :=
  .ofProgram "def f():\n    g(k=(yield 1), *(yield 2))\n" "m.py"
    ⟨[.function ⟨0, 39⟩ "f" ⟨[], none⟩ [mixedStmt] [] false], ⟨0, 40⟩⟩

theorem read_mixed :
    read "def f():\n    g(k=(yield 1), *(yield 2))\n" "m.py" = .ok mixed := by
  have scanned : Layout.scanWithin 40 .initial "m.py" 0
      "def f():\n    g(k=(yield 1), *(yield 2))\n".toList =
      some (.ok [⟨.defKw, "def", ⟨0, 3⟩⟩, ⟨.identifier, "f", ⟨4, 5⟩⟩, ⟨.openParen, "(", ⟨5, 6⟩⟩,
        ⟨.closeParen, ")", ⟨6, 7⟩⟩, ⟨.colon, ":", ⟨7, 8⟩⟩, ⟨.newline, "\n", ⟨8, 9⟩⟩,
        ⟨.indent, "", ⟨13, 13⟩⟩, ⟨.identifier, "g", ⟨13, 14⟩⟩, ⟨.openParen, "(", ⟨14, 15⟩⟩,
        ⟨.identifier, "k", ⟨15, 16⟩⟩, ⟨.assignment, "=", ⟨16, 17⟩⟩, ⟨.openParen, "(", ⟨17, 18⟩⟩,
        ⟨.yieldKw, "yield", ⟨18, 23⟩⟩, ⟨.number, "1", ⟨24, 25⟩⟩, ⟨.closeParen, ")", ⟨25, 26⟩⟩,
        ⟨.comma, ",", ⟨26, 27⟩⟩, ⟨.star, "*", ⟨28, 29⟩⟩, ⟨.openParen, "(", ⟨29, 30⟩⟩,
        ⟨.yieldKw, "yield", ⟨30, 35⟩⟩, ⟨.number, "2", ⟨36, 37⟩⟩, ⟨.closeParen, ")", ⟨37, 38⟩⟩,
        ⟨.closeParen, ")", ⟨38, 39⟩⟩, ⟨.newline, "\n", ⟨39, 40⟩⟩, ⟨.dedent, "", ⟨40, 40⟩⟩,
        ⟨.eof, "", ⟨40, 40⟩⟩]) := by
    with_unfolding_all rfl
  exact read_of_steps 40 scanned (by with_unfolding_all rfl)

/-- The operands are listed the other way round. -/
theorem mixed_misplaced : ¬mixed.program.YieldsInOrder (mixed.scopes.get 1) := by
  rintro ⟨body, opensToo, nodes, exact, ordered, yields⟩
  have opens : mixed.program.Opens (mixed.scopes.get 1) [mixedStmt] :=
    .function rfl rfl (.top List.mem_cons_self)
  obtain rfl := opens_unique read_mixed opens opensToo
  have found : (mixed.scopes.get 1).yields = [laterYield.operand, earlierYield.operand] := by
    with_unfolding_all rfl
  rw [found] at yields
  have owned : ∀ node : Expr, node.isYield = true → node.Within mixedCall → node ∈ nodes :=
    fun node isYield within => (exact node).mpr
      ⟨isYield, none, mixedStmt, .top List.mem_cons_self, mixedCall, List.mem_cons_self, within⟩
  have earlier : earlierYield ∈ nodes :=
    owned _ rfl (.part (Expr.isPart_iff.mpr (by simp [mixedCall, Expr.children])) (.refl _))
  have later : laterYield ∈ nodes :=
    owned _ rfl (.part (.argument List.mem_cons_self) (.part .unpacked (.refl _)))
  obtain ⟨first, others, rfl, same, rest⟩ := List.map_eq_cons_iff.mp yields.symm
  obtain ⟨second, none, rfl, sameToo, nothing⟩ := List.map_eq_cons_iff.mp rest
  cases List.map_eq_nil_iff.mp nothing
  have differ : earlierYield.operand ≠ laterYield.operand := by
    simp [earlierYield, laterYield, Expr.operand]
  have comesFirst : laterYield = first := by
    obtain same | member := List.mem_cons.mp later
    · exact same
    · cases List.mem_singleton.mp member
      exact absurd sameToo.symm differ
  have comesSecond : earlierYield = second := by
    obtain rfl | member := List.mem_cons.mp earlier
    · exact absurd same differ
    · exact List.mem_singleton.mp member
  subst comesFirst comesSecond
  exact absurd ((List.pairwise_cons.mp ordered).1 _ List.mem_cons_self) (by decide)

/-- Neither condition can be left out: a function that yields in a condition, and one in which
an argument yields behind a keyword that yields. -/
theorem scope_yields_missed :
    (∃ source, read "def f():\n    if (yield 1):\n        pass\n" "m.py" = .ok source ∧
      ∃ scope ∈ source.scopes.scopes, scope.kind = .function ∧
        ¬source.program.YieldsInOrder scope) ∧
    ∃ source, read "def f():\n    g(k=(yield 1), *(yield 2))\n" "m.py" = .ok source ∧
      ∃ scope ∈ source.scopes.scopes, scope.kind = .function ∧
        ¬source.program.YieldsInOrder scope :=
  ⟨⟨asked, read_asked, _, List.mem_cons_of_mem _ List.mem_cons_self, rfl, asked_missed⟩,
    mixed, read_mixed, _, List.mem_cons_of_mem _ List.mem_cons_self, rfl, mixed_misplaced⟩

end Source

end DocSketch
