import DocSketch.Proofs.Grammar.Readers

/-!
# Chains of operators

A chain is an operand followed by operators and operands in turn.  Which operator is the
root of its tree can be said of the chain as a whole: the loosest one, and of several such
the last, but for powers the first.  The reader decides this from one token at a time.

* `Grouping`: the tree of a chain.
* `Grouping.unique`: a chain has one tree only.
* `Grammar.readJoins_grouping`: what the loop over operators makes of a chain.
* `Grammar.expr_grouping`: the tree of a chain is what is read.
-/

namespace DocSketch

/-- A token that is an expression of its own: a name, or a number with its text. -/
def Token.IsAtom (token : Token) : Prop :=
  token.kind = .identifier ∨ token.kind = .number ∧ token.value.isEmpty = false

/-- The expression that a name or a number is. -/
def Token.atom (token : Token) : Expr :=
  if token.kind = .number then .number token.span (numberKind token.value) token.value
  else .symbol token.span token.value

/-- A token that joins two operands into an operation. -/
def Token.IsOperator (token : Token) : Prop :=
  ∃ own right, token.kind.joining? = some (own, .binary right)

/-- How tightly an operator binds. -/
def Token.power (token : Token) : Nat :=
  ((token.kind.joining?.map Prod.fst).getD .default).rank

/-- What the operators in the right operand of an operator have to exceed. -/
def Token.rightPower (token : Token) : Nat :=
  if token.kind = .power then Power.unary.rank else token.power

/-- An operator and the operand after it. -/
abbrev Link := Token × Token

/-- The tokens of a chain after its first operand. -/
def linkTokens (links : List Link) : List Token := links.flatMap fun link => [link.1, link.2]

/-- The operator between `before` and `after` is the root of a chain: none is looser, and
it is the last such one, or the first if it is a power. -/
structure IsRoot (before : List Link) (operator : Token) (after : List Link) : Prop where
  loosest : ∀ link ∈ before ++ after, operator.power ≤ link.1.power
  last : operator.kind ≠ .power → ∀ link ∈ after, operator.power < link.1.power
  earliest : operator.kind = .power → ∀ link ∈ before, operator.power < link.1.power

/-- The tree of a chain that starts with the operand `first`: both sides of its root are the
trees of what the root leaves. -/
inductive Grouping : Token → List Link → Expr → Prop
  | atom (first : Token) : Grouping first [] first.atom
  | operation {first operator second : Token} {before after : List Link} {left right : Expr}
      (root : IsRoot before operator after) (leftSide : Grouping first before left)
      (rightSide : Grouping second after right) :
      Grouping first (before ++ (operator, second) :: after)
        (.binary ⟨left.span.start, right.span.stop⟩ left operator right)

/-- Operators between operands. -/
def AreLinks (links : List Link) : Prop := ∀ link ∈ links, link.1.IsOperator ∧ link.2.IsAtom

/-- An operator joins operands by the powers of its kind. -/
theorem Token.IsOperator.joining? {token : Token} (operator : token.IsOperator) :
    ∃ own right : Power, token.kind.joining? = some (own, .binary right) ∧
      own.rank = token.power ∧ right.rank = token.rightPower := by
  obtain ⟨own, right, joins⟩ := operator
  refine ⟨own, right, joins, ?_, ?_⟩
  · rw [Token.power, joins]
    rfl
  · rw [Token.rightPower, Token.power, joins]
    cases kind : token.kind <;> rw [kind] at joins <;> cases joins <;> rfl

/-- Powers bind tightest, and no other operator comes near. -/
theorem Token.IsOperator.power_cases {token : Token} (operator : token.IsOperator) :
    token.kind = .power ∧ token.power = 14 ∧ token.rightPower = 13 ∨
      token.kind ≠ .power ∧ 0 < token.power ∧ token.power ≤ 12 ∧
        token.rightPower = token.power := by
  obtain ⟨own, right, joins⟩ := operator
  rw [Token.rightPower, Token.power, joins]
  cases kind : token.kind <;> rw [kind] at joins <;> cases joins <;> decide

/-- Of two operators in a chain only one is the root. -/
theorem IsRoot.not_later {before middle after : List Link} {early late : Link}
    (root : IsRoot before early.1 (middle ++ late :: after))
    (other : IsRoot (before ++ early :: middle) late.1 after) (first : early.1.IsOperator)
    (second : late.1.IsOperator) : False := by
  have inside : late ∈ middle ++ late :: after := List.mem_append_right middle List.mem_cons_self
  have outside : early ∈ before ++ early :: middle :=
    List.mem_append_right before List.mem_cons_self
  have down := root.loosest late (List.mem_append_right before inside)
  have up := other.loosest early (List.mem_append_left after outside)
  obtain ⟨isPower, -⟩ | ⟨plain, -⟩ := first.power_cases
  · have later : late.1.kind = .power := by
      obtain ⟨same, -⟩ | ⟨-, -, bounded, -⟩ := second.power_cases
      · exact same
      · obtain ⟨-, strong, -⟩ | ⟨plain, -⟩ := first.power_cases
        · omega
        · exact absurd isPower plain
    exact absurd (other.earliest later early outside) (Nat.not_lt.mpr down)
  · exact absurd (root.last plain late inside) (Nat.not_lt.mpr up)

/-- A chain has one root only. -/
theorem IsRoot.split_unique {before before' after after' : List Link} {link link' : Link}
    (root : IsRoot before link.1 after) (root' : IsRoot before' link'.1 after')
    (operators : ∀ each ∈ before ++ link :: after, each.1.IsOperator)
    (whole : before ++ link :: after = before' ++ link' :: after') :
    before = before' ∧ link = link' ∧ after = after' := by
  have own : link.1.IsOperator := operators link (by simp)
  have theirs : link'.1.IsOperator := operators link' (by rw [whole]; simp)
  obtain ⟨middle, longer, tail⟩ | ⟨middle, longer, tail⟩ := List.append_eq_append_iff.mp whole
  · cases middle with
    | nil =>
        rw [List.append_nil] at longer
        exact ⟨longer.symm, List.cons.inj tail⟩
    | cons early middle =>
        obtain ⟨rfl, rfl⟩ := List.cons.inj tail
        subst longer
        exact (root.not_later root' own theirs).elim
  · cases middle with
    | nil =>
        rw [List.append_nil] at longer
        obtain ⟨same, rest⟩ := List.cons.inj tail
        exact ⟨longer, same.symm, rest.symm⟩
    | cons early middle =>
        obtain ⟨rfl, rfl⟩ := List.cons.inj tail
        subst longer
        exact (root'.not_later root theirs own).elim

/-- There is only one grouping of a chain. -/
theorem Grouping.unique {first : Token} {links : List Link} {tree other : Expr}
    (grouping : Grouping first links tree) (operators : ∀ link ∈ links, link.1.IsOperator)
    (again : Grouping first links other) : tree = other := by
  induction grouping generalizing other with
  | atom first =>
      generalize none : ([] : List Link) = links at again
      cases again with
      | atom => rfl
      | operation => exact absurd none (by simp)
  | @operation first operator second before after left right root leftSide rightSide ihLeft
      ihRight =>
      generalize whole : before ++ (operator, second) :: after = links at again
      cases again with
      | atom => exact absurd whole (by simp)
      | operation root' leftSide' rightSide' =>
          obtain ⟨rfl, same, rfl⟩ := IsRoot.split_unique root root' operators whole
          cases same
          rw [ihLeft (fun link member => operators link (by simp [member])) leftSide',
            ihRight (fun link member => operators link (by simp [member])) rightSide']

namespace Grammar

open Parse

variable {fuel : Nat} {level : Power} {Next : TokenKind → Prop} {Good : Expr → Prop}

/-- An operand is read at once. -/
theorem readOpening_atom {first : Token} (atom : first.IsAtom) :
    ∃ form, first.kind.opening? = some form ∧
      Reads (readOpening (fuel + 1) form) [first] Next (· = first.atom) := by
  obtain name | ⟨number, text⟩ := atom
  · refine ⟨.identifier, by rw [name]; rfl, ?_⟩
    rw [readOpening]
    refine .last (.advance first) fun token same => .pure ?_
    rw [same, Token.atom, if_neg (by rw [name]; decide)]
  · refine ⟨.number, by rw [number]; rfl, ?_⟩
    rw [readOpening, readNumber]
    refine .last (.advance first) fun token same => ?_
    subst same
    rw [text]
    refine .pure ?_
    rw [Token.atom, if_pos number]

/-- An atom is read, and then what it is joined to. -/
theorem readExpr_atom {first : Token} {later : List Token} (atom : first.IsAtom)
    (reads : Reads (readJoins (fuel + 1) level first.atom) later Next Good) :
    Reads (readExpr (fuel + 2) level) (first :: later) Next Good := by
  obtain ⟨form, opens, operand⟩ := readOpening_atom atom
  exact readExpr_reads (fun _ _ => opens) (.step operand fun left same => same ▸ reads)

/-- The next operator takes all that the operators `before` it have read as its left
operand: it is not tighter than any of their right operands. -/
def Yields (before taken : List Link) : Prop :=
  ∀ next ∈ taken.head?, ∀ link ∈ before, next.1.power ≤ link.1.rightPower

/-- An operator that the ones before yield to is the root of what it reads. -/
theorem isRoot_of_yields {before inner others : List Link} {link : Link}
    (known : AreLinks (before ++ link :: inner)) (yields : Yields before (link :: others))
    (tighter : ∀ next ∈ inner, link.1.rightPower < next.1.power) :
    IsRoot before link.1 inner := by
  have own := (known link (by simp)).1.power_cases
  have yielded : ∀ each ∈ before, link.1.power ≤ each.1.rightPower :=
    yields link rfl
  refine ⟨fun each member => ?_, fun plain each member => ?_, fun isPower each member => ?_⟩
  · obtain earlier | later := List.mem_append.mp member
    · have bound := yielded each earlier
      have other := (known each (by simp [earlier])).1.power_cases
      omega
    · have bound := tighter each later
      omega
  · have bound := tighter each member
    have same := own.resolve_left fun power => plain power.1
    omega
  · have bound := yielded each member
    have other := (known each (by simp [member])).1.power_cases
    have strong := own.resolve_right fun other => other.1 isPower
    omega

/-- The operators in the right operand yield to the next one, too. -/
theorem yields_append {before inner outer : List Link} {link : Link}
    (known : AreLinks (before ++ link :: inner)) (yields : Yields before (link :: inner ++ outer))
    (tighter : ∀ next ∈ inner, link.1.rightPower < next.1.power)
    (looser : ∀ next ∈ outer.head?, next.1.power ≤ link.1.rightPower) :
    Yields (before ++ link :: inner) outer := by
  intro next first each member
  have own := (known link (by simp)).1.power_cases
  have other := (known each member).1.power_cases
  have bound := looser next first
  obtain earlier | inside := List.mem_append.mp member
  · have yielded : link.1.power ≤ each.1.rightPower := yields link rfl each earlier
    omega
  · obtain rfl | later := List.mem_cons.mp inside
    · exact bound
    · have inner := tighter each later
      omega

theorem linkTokens_append (first second : List Link) :
    linkTokens (first ++ second) = linkTokens first ++ linkTokens second :=
  List.flatMap_append

theorem linkTokens_cons_append (link : Link) (inner outer : List Link) :
    linkTokens (link :: (inner ++ outer)) =
      link.1 :: link.2 :: linkTokens inner ++ linkTokens outer :=
  linkTokens_append (link :: inner) outer

/-- A link has an operator and an operand. -/
theorem length_linkTokens (links : List Link) : (linkTokens links).length = 2 * links.length := by
  induction links with
  | nil => rfl
  | cons link links ih =>
      change (linkTokens links).length + 2 = 2 * (links.length + 1)
      omega

/-- Behind the right operand of an operator comes nothing that goes on with it. -/
theorem stops_outer {outer : List Link} {link : Link} {right : Power}
    (known : AreLinks outer) (same : right.rank = link.1.rightPower)
    (looser : ∀ next ∈ outer.head?, next.1.power ≤ link.1.rightPower)
    (wider : level.rank ≤ right.rank) {kind : TokenKind} (stops : Stops level kind) :
    Stops right (ahead ((linkTokens outer).map Token.kind) kind) := by
  cases outer with
  | nil => exact fun own form joins => Nat.le_trans (stops own form joins) wider
  | cons next outer =>
      intro own form joins
      change next.1.kind.joining? = _ at joins
      have bound := looser next rfl
      have power : next.1.power = own.rank := by
        rw [Token.power, joins]
        rfl
      change own.rank ≤ right.rank
      omega

/-- The links after an operator that belong to its right operand, and the others. -/
theorem exists_operand (bound : Nat) (links : List Link) :
    ∃ inner outer, links = inner ++ outer ∧ (∀ link ∈ inner, bound < link.1.power) ∧
      ∀ link ∈ outer.head?, link.1.power ≤ bound := by
  induction links with
  | nil => exact ⟨[], [], rfl, by simp, by simp⟩
  | cons link links ih =>
      by_cases inside : bound < link.1.power
      · obtain ⟨inner, outer, rfl, tighter, looser⟩ := ih
        exact ⟨link :: inner, outer, rfl, List.forall_mem_cons.mpr ⟨inside, tighter⟩, looser⟩
      · exact ⟨[], link :: links, rfl, by simp, by simpa using Nat.not_lt.mp inside⟩

/-- The loop over operators: with `before` read into `left`, it goes past all operators that
bind tighter than `level` and their operands, and gives the tree of the whole chain. -/
theorem readJoins_grouping (size : Nat) :
    ∀ (first : Token) (fuel : Nat) (level : Power) (left : Expr) (before taken : List Link),
      taken.length ≤ size → 3 * taken.length < fuel → AreLinks (before ++ taken) →
      (∀ link ∈ taken, level.rank < link.1.power) → Yields before taken →
      Grouping first before left →
        Reads (readJoins fuel level left) (linkTokens taken) (Stops level)
          (Grouping first (before ++ taken)) := by
  -- By induction on the number of links, for the operand of a link takes links away first.
  induction size with
  | zero =>
      intro first fuel level left before taken short enough known tighter yields grouping
      obtain rfl := List.length_eq_zero_iff.mp (Nat.le_zero.mp short)
      obtain ⟨fuel, rfl⟩ := Nat.exists_eq_add_of_lt enough
      rw [List.append_nil]
      exact readJoins_stops.mono (fun _ stops => stops) fun _ same => same ▸ grouping
  | succ size ih =>
      intro first fuel level left before taken short enough known tighter yields grouping
      cases taken with
      | nil =>
          exact ih first fuel level left before [] (Nat.zero_le _) enough known tighter yields
            grouping
      | cons link others =>
          simp only [List.length_cons] at short enough
          obtain ⟨fuel, rfl⟩ : ∃ more, fuel = more + 4 := ⟨fuel - 4, by omega⟩
          obtain ⟨own, right, joins, ownRank, rightRank⟩ := (known link (by simp)).1.joining?
          obtain ⟨inner, outer, rfl, tight, loose⟩ := exists_operand link.1.rightPower others
          rw [List.length_append] at short enough
          have regrouped : before ++ link :: (inner ++ outer) = before ++ link :: inner ++ outer :=
            (List.append_assoc before (link :: inner) outer).symm
          rw [regrouped] at known
          have chained : AreLinks (before ++ link :: inner) := fun each member =>
            known each (List.mem_append_left outer member)
          have operand : AreLinks ([] ++ inner) := fun each member =>
            chained each (List.mem_append_right before (List.mem_cons_of_mem link member))
          have remaining : AreLinks outer := fun each member =>
            known each (List.mem_append_right _ member)
          have wider : level.rank ≤ right.rank := by
            have bound := tighter link List.mem_cons_self
            have cases := (chained link (by simp)).1.power_cases
            omega
          -- The link is the root of all before it and of the tighter ones that its operand takes.
          have root : IsRoot before link.1 inner := isRoot_of_yields chained yields tight
          have inside : Reads (readExpr (fuel + 2) right) (link.2 :: linkTokens inner) (Stops right)
              (Grouping link.2 inner) :=
            readExpr_atom (chained link (by simp)).2
              (ih link.2 (fuel + 1) right link.2.atom [] inner (by omega) (by omega) operand
                (fun each member => rightRank ▸ tight each member) (by simp [Yields])
                (.atom link.2))
          have joined : Reads (readJoining (fuel + 3) (.binary right) own left)
              (link.1 :: link.2 :: linkTokens inner) (Stops right)
              (Grouping first (before ++ link :: inner)) := by
            rw [readJoining]
            refine .step (.advance link.1) fun operator same => ?_
            subst same
            exact .last inside fun right grouped => .pure (.operation root grouping grouped)
          rw [linkTokens_cons_append, regrouped]
          refine readJoins_joins (fun _ _ => joins) ?_
            (.bind joined (fun tree grouped => ?_) fun kind stops => ?_)
          · have bound := tighter link List.mem_cons_self
            rwa [← ownRank] at bound
          · exact ih first (fuel + 3) level tree _ outer (by omega) (by omega) known
              (fun each member => tighter each (by simp [member]))
              (yields_append chained yields tight loose) grouped
          · exact stops_outer remaining rightRank loose wider stops

/-- **Chains are read by precedence.** Where the tokens of a chain are ahead and then one that
does not go on with an expression, exactly the chain is read, and into its tree. -/
theorem expr_grouping {first : Token} {links : List Link} (atom : first.IsAtom)
    (known : AreLinks links) (cursor : Cursor) (full : cursor.isBare = false) {more : List Token}
    (here : cursor.rest = first :: linkTokens links ++ more)
    (ends : (more.headD cursor.stop).kind.joining? = none) :
    ∃ tree last, Parse.expr .default cursor = .ok tree last ∧ last.rest = more ∧
      Grouping first links tree ∧ ∀ other, Grouping first links other → other = tree := by
  have stops : Stops .default (more.headD cursor.stop).kind := by
    intro own form joins
    rw [ends] at joins
    cases joins
  have positive : ∀ link ∈ links, Power.default.rank < link.1.power := by
    intro link member
    have cases := (known link member).1.power_cases
    change 0 < link.1.power
    omega
  have reads : ∀ fuel, 16 * ((first :: linkTokens links).length + 1) ≤ fuel →
      Reads (readExpr fuel .default) (first :: linkTokens links) (Stops .default)
        (Grouping first links) := by
    intro fuel enough
    rw [List.length_cons, length_linkTokens] at enough
    obtain ⟨fuel, rfl⟩ : ∃ more, fuel = more + 2 := ⟨fuel - 2, by omega⟩
    exact readExpr_atom atom
      (readJoins_grouping links.length first (fuel + 1) .default first.atom [] links (Nat.le_refl _)
        (by omega) known positive (by simp [Yields]) (.atom first))
  obtain ⟨tree, last, read, done, grouping⟩ := expr_of_reads full here stops reads
  refine ⟨tree, last, read, done, grouping, fun other again => ?_⟩
  exact again.unique (fun link member => (known link member).1) grouping

/-- What follows `a` in the chain `a - b ** c ** d * 2`. -/
def powerLinks : List Link :=
  [(⟨.dash, "-", ⟨2, 3⟩⟩, ⟨.identifier, "b", ⟨4, 5⟩⟩),
    (⟨.power, "**", ⟨6, 8⟩⟩, ⟨.identifier, "c", ⟨9, 10⟩⟩),
    (⟨.power, "**", ⟨11, 13⟩⟩, ⟨.identifier, "d", ⟨14, 15⟩⟩),
    (⟨.star, "*", ⟨16, 17⟩⟩, ⟨.number, "2", ⟨18, 19⟩⟩)]

/-- A chain of two powers is grouped from the right. -/
theorem expr_grouping_powerLinks :
    ∃ tree last,
      Parse.expr .default
          (.ofTokens "m.py" false (⟨.identifier, "a", ⟨0, 1⟩⟩ :: linkTokens powerLinks)) =
        .ok tree last ∧ last.rest = [] ∧ Grouping ⟨.identifier, "a", ⟨0, 1⟩⟩ powerLinks tree := by
  have known : AreLinks powerLinks := by
    simp [AreLinks, powerLinks, Token.IsOperator, Token.IsAtom, TokenKind.joining?]
  have atom : (⟨.identifier, "a", ⟨0, 1⟩⟩ : Token).IsAtom := .inl rfl
  have ends : (([] : List Token).headD (Cursor.missingStop
      (⟨.identifier, "a", ⟨0, 1⟩⟩ :: linkTokens powerLinks))).kind.joining? = none := rfl
  obtain ⟨tree, last, read, done, grouping, -⟩ := expr_grouping atom known
    (.ofTokens "m.py" false (⟨.identifier, "a", ⟨0, 1⟩⟩ :: linkTokens powerLinks)) rfl
    (List.append_nil _).symm ends
  exact ⟨tree, last, read, done, grouping⟩

end Grammar

end DocSketch
