import DocSketch.Proofs.Grammar.Spelling

/-!
# Operands and operators are read back

Every operand stands in parentheses, so it is read whole at any level.  What is left is how
the readers go past the tokens of an operator.

* `Grammar.Recovered`: an expression is read back from its text.
* `Grammar.readExpr_grouped`: an operand in parentheses is read at any level.
* `Grammar.recovered_of_opening`, `Grammar.recovered_of_joining`: the two ways to begin.
-/

namespace DocSketch

namespace Grammar

open Parse

variable {Next : TokenKind → Prop} {fuel : Nat} {level : Power} {kind : TokenKind}
  {text later : List Spelling} {e : Expr}

/-- Every level stops at tokens that join nothing. -/
theorem Stops.of_none (free : kind.joining? = none) : Stops level kind := by
  intro own form joins
  rw [free] at joins
  cases joins

/-- An expression is read back from its text, which starts with a token that opens it. -/
structure Recovered (e : Expr) : Prop where
  opens : ∃ first later form, e.spelling = first :: later ∧ first.1.opening? = some form
  reads : ∀ fuel, 8 * e.spelling.length + 8 ≤ fuel →
    Spells (readExpr fuel .default) e.spelling e.EndsBefore (·.unspanned = e.unspanned)

/-- An expression that is written as its start and what that is joined to. -/
theorem readExpr_spells {Good : Expr → Prop} {form : Opening} {first : Spelling}
    (opens : first.1.opening? = some form)
    (spells : Spells (readOpening fuel form >>= readJoins fuel level) (first :: later) Next Good) :
    Spells (readExpr (fuel + 1) level) (first :: later) Next Good := by
  intro tokens spelled
  refine readExpr_reads (fun kind _ => ?_) (spells tokens spelled)
  rw [kinds_of_spelling spelled]
  exact opens

/-- An operator that binds tighter is read, and then what follows it. -/
theorem readJoins_spells {Good : Expr → Prop} {own : Power} {form : Joining} {left : Expr}
    {first : Spelling} (joins : first.1.joining? = some (own, form)) (tighter : level < own)
    (spells : Spells (readJoining fuel form own left >>= readJoins fuel level) (first :: later) Next
      Good) :
    Spells (readJoins (fuel + 1) level left) (first :: later) Next Good := by
  intro tokens spelled
  refine readJoins_joins (fun kind _ => ?_) tighter (spells tokens spelled)
  rw [kinds_of_spelling spelled]
  exact joins

/-- Nothing more is read where the level stops. -/
theorem readJoins_ends {left : Expr} {Good : Expr → Prop} (enough : 0 < fuel) (good : Good left)
    (stops : ∀ kind, Next kind → Stops level kind) :
    Spells (readJoins fuel level left) [] Next Good := by
  obtain ⟨fuel, rfl⟩ : ∃ less, fuel = less + 1 := ⟨fuel - 1, by omega⟩
  exact .of_reads_nil (readJoins_stops.mono stops fun _ same => same ▸ good)

section Clauses

variable {α : Type} {yes no : Parse α} {Good : α → Prop}

/-- No clause starts here. -/
theorem ifNotClause
    (other : ∀ kind, Next kind → lead text kind ≠ .forKw ∧ lead text kind ≠ .asyncKw)
    (spells : Spells no text Next Good) :
    Spells (atClause >>= fun found => if found = true then yes else no) text Next Good := by
  have looks : Spells atClause [] (fun kind => kind ≠ .forKw ∧ kind ≠ .asyncKw) (· = false) := by
    refine .of_reads_nil fun file previous more stop other => ⟨_, previous, rfl, ?_⟩
    exact decide_eq_false fun found => found.elim other.1 fun both => other.2 both.1
  refine .look looks (fun found isFalse => ?_) other
  rwa [isFalse, if_neg Bool.false_ne_true]

/-- A clause starts here, perhaps with a word of its own before it. -/
theorem ifClause {clauses : List (Clause Expr)} (nonempty : clauses ≠ [])
    (spells : Spells yes (Expr.clauseText clauses ++ later) Next Good) :
    Spells (atClause >>= fun found => if found = true then yes else no)
      (Expr.clauseText clauses ++ later) Next Good := by
  intro tokens spelled
  have kinds := kinds_of_spelling spelled
  have looks : Looks atClause tokens Next true := by
    intro file previous more stop _
    obtain _ | ⟨⟨target, iter, conditions, _ | _⟩, others⟩ := clauses
    · exact absurd rfl nonempty
    · obtain ⟨token, tokens, rfl, here, -⟩ := List.map_eq_cons_iff.mp kinds
      exact congrArg (EStateM.Result.ok · _) (decide_eq_true (.inl here))
    · obtain ⟨token, tokens, rfl, here, others⟩ := List.map_eq_cons_iff.mp kinds
      obtain ⟨second, tokens, rfl, after, -⟩ := List.map_eq_cons_iff.mp others
      exact congrArg (EStateM.Result.ok · _) (decide_eq_true (.inr ⟨here, after⟩))
  refine .peek looks ?_
  rw [if_pos rfl]
  exact spells tokens spelled

end Clauses

/-- A written expression starts with a token that opens one. -/
theorem Recovered.lead_ne (known : Recovered e) (closed : kind.opening? = none)
    (next : TokenKind) : lead (e.spelling ++ later) next ≠ kind := by
  obtain ⟨first, others, form, spelled, opens⟩ := known.opens
  rw [spelled]
  intro same
  change first.1 = kind at same
  rw [same, closed] at opens
  cases opens

/-- Nothing goes on behind a token that neither joins nor opens anything. -/
theorem endsBefore_closing (free : kind.joining? = none) (closed : kind.opening? = none)
    (named : kind ≠ .fromKw ∧ kind ≠ .comma) : e.EndsBefore kind := by
  refine ⟨free, ?_⟩
  split
  · rintro rfl
    cases closed
  · exact ⟨closed, named.1⟩
  · exact named.2
  · trivial

/-- What stands in parentheses is read whole, whatever follows. -/
theorem readOpening_grouped (known : Recovered e)
    (enough : 8 * (grouped e.spelling).length ≤ fuel + 1) :
    Spells (readOpening fuel .group) (grouped e.spelling) Next (·.unspanned = e.unspanned) := by
  simp only [grouped, List.length_cons, List.length_append, List.length_nil] at enough
  obtain ⟨fuel, rfl⟩ : ∃ less, fuel = less + 2 := ⟨fuel - 2, by omega⟩
  rw [readOpening, readGroup]
  refine .step .advance fun _ _ => ?_
  dsimp only
  refine .ifUneaten (fun kind _ => known.lead_ne rfl kind) ?_
  refine .bind (known.reads fuel (by omega)) (fun read same => ?_)
    fun _ _ => endsBefore_closing rfl rfl (by simp)
  refine ifNotClause (fun _ _ => by simp) (.ifNotKind (fun _ _ => by simp) ?_)
  exact .step (.expect rfl) fun _ _ => .pure same

/-- An operand in parentheses is read at any level. -/
theorem readExpr_grouped (known : Recovered e) (enough : 8 * (grouped e.spelling).length ≤ fuel) :
    Spells (readExpr fuel level) (grouped e.spelling) (Stops level)
      (·.unspanned = e.unspanned) := by
  have long : 0 < (grouped e.spelling).length := Nat.succ_pos _
  obtain ⟨fuel, rfl⟩ : ∃ less, fuel = less + 1 := ⟨fuel - 1, by omega⟩
  refine readExpr_spells rfl (.last (readOpening_grouped known enough) fun read same => ?_)
  exact readJoins_ends (by omega) same fun _ stops => stops

/-- An expression is read back if what it starts with is. -/
theorem recovered_of_opening {form : Opening} {first : Spelling}
    (spelled : e.spelling = first :: later) (opens : first.1.opening? = some form)
    (reads : ∀ fuel, 8 * later.length + 6 ≤ fuel →
      Spells (readOpening (fuel + 2) form) (first :: later) e.EndsBefore
        (·.unspanned = e.unspanned)) :
    Recovered e := by
  refine ⟨⟨first, later, form, spelled, opens⟩, fun fuel enough => ?_⟩
  rw [spelled] at enough ⊢
  rw [List.length_cons] at enough
  obtain ⟨fuel, rfl⟩ : ∃ less, fuel = less + 3 := ⟨fuel - 3, by omega⟩
  refine readExpr_spells opens (.last (reads fuel (by omega)) fun read same => ?_)
  exact readJoins_ends (Nat.succ_pos _) same fun _ ends => .of_none ends.1

/-- Whatever joins binds tighter than the default level. -/
theorem default_lt_of_joining? {own : Power} {form : Joining}
    (joins : kind.joining? = some (own, form)) : Power.default < own := by
  cases kind <;> cases joins <;> decide

/-- An expression is read back if what joins its first operand to the others is. -/
theorem recovered_of_joining {left : Expr} {own : Power} {form : Joining} {first : Spelling}
    (known : Recovered left) (spelled : e.spelling = grouped left.spelling ++ first :: later)
    (joins : first.1.joining? = some (own, form))
    (reads : ∀ fuel read, 8 * later.length + 7 ≤ fuel → read.unspanned = left.unspanned →
      Spells (readJoining (fuel + 1) form own read) (first :: later) (·.joining? = none)
        (·.unspanned = e.unspanned)) :
    Recovered e := by
  refine ⟨⟨_, _, .group, spelled, rfl⟩, fun fuel enough => ?_⟩
  rw [spelled] at enough ⊢
  rw [List.length_append, List.length_cons] at enough
  obtain ⟨fuel, rfl⟩ : ∃ less, fuel = less + 3 := ⟨fuel - 3, by omega⟩
  have front : Spells (readOpening (fuel + 2) .group) (grouped left.spelling) (fun _ => True)
      (·.unspanned = left.unspanned) := readOpening_grouped known (by omega)
  refine readExpr_spells rfl (.bind front (fun read same => ?_) fun _ _ => trivial)
  have joined := (reads fuel read (by omega) same).mono (fun _ (ends : e.EndsBefore _) => ends.1)
    fun _ same => same
  refine readJoins_spells joins (default_lt_of_joining? joins) (.last joined fun read same => ?_)
  exact readJoins_ends (Nat.succ_pos fuel) same fun _ ends => .of_none ends.1

/-- A number is recovered. -/
theorem recovered_number {span : Span} {text : String} (nonempty : text.isEmpty = false) :
    Recovered (.number span (numberKind text) text) := by
  refine recovered_of_opening rfl rfl fun fuel _ => ?_
  rw [readOpening, readNumber]
  refine .step .advance fun token spelled => ?_
  have value : token.value = text := congrArg Prod.snd spelled
  rw [value, nonempty]
  exact .pure rfl

/-- A constant is recovered. -/
theorem recovered_constant {span : Span} {value : Constant} : Recovered (.constant span value) := by
  have opens : (fixed value.tokenKind).1.opening? = some (.constant value) := by
    cases value <;> rfl
  refine recovered_of_opening rfl opens fun fuel _ => ?_
  rw [readOpening]
  exact .step .advance fun _ _ => .pure rfl

/-- A name is recovered. -/
theorem recovered_symbol {span : Span} {name : String} : Recovered (.symbol span name) := by
  refine recovered_of_opening rfl rfl fun fuel _ => ?_
  rw [readOpening]
  refine .step .advance fun token spelled => .pure ?_
  have value : token.value = name := congrArg Prod.snd spelled
  rw [value]
  rfl

/-- The last operand in parentheses. -/
theorem readExpr_final (known : Recovered e) (enough : 8 * (grouped e.spelling).length ≤ fuel) :
    Spells (readExpr fuel level) (grouped e.spelling) (·.joining? = none)
      (·.unspanned = e.unspanned) :=
  (readExpr_grouped known enough).mono (fun _ free => .of_none free) fun _ same => same

/-- An operation on one operand is recovered if the operand is. -/
theorem recovered_unary {span : Span} {operator : Token} {operand : Expr}
    (opens : operator.kind.opening? = some (.unary level)) (known : Recovered operand) :
    Recovered (.unary span operator operand) := by
  refine recovered_of_opening rfl opens fun fuel enough => ?_
  rw [readOpening]
  refine .mono ?_ (fun _ ends => ends.1) fun _ same => same
  refine .step .advance fun token spelled => ?_
  refine .last (readExpr_final known (by omega)) fun read same => .pure ?_
  simp only [Expr.unspanned, same, Token.unspanned_eq spelled]

/-- An unpacking is recovered if its value is. -/
theorem recovered_starred {span : Span} {value : Expr} {isDouble : Bool}
    (known : Recovered value) : Recovered (.starred span value isDouble) := by
  have opens : (fixed (if isDouble then .power else .star)).1.opening? = some .star := by
    cases isDouble <;> rfl
  refine recovered_of_opening rfl opens fun fuel enough => ?_
  rw [readOpening]
  refine .mono ?_ (fun _ ends => ends.1) fun _ same => same
  refine .step .advance fun token spelled => ?_
  refine .last (readExpr_final known (by omega)) fun read same => .pure ?_
  have kind : token.kind = if isDouble then .power else .star := congrArg Prod.fst spelled
  rw [kind]
  cases isDouble <;> simp [Expr.unspanned, same]

/-- An attribute is recovered if its object is. -/
theorem recovered_member {span : Span} {object : Expr} {property : String}
    (known : Recovered object) : Recovered (.member span object property) := by
  refine recovered_of_joining known rfl rfl fun fuel read _ same => ?_
  rw [readJoining]
  refine .step .advance fun _ _ => .step (.expectOr rfl _) fun token spelled => .pure ?_
  have value : token.value = property := congrArg Prod.snd spelled
  simp only [Expr.unspanned, same, value]

/-- A choice is recovered if its parts are. -/
theorem recovered_ternary {span : Span} {body test orelse : Expr} (known : Recovered body)
    (tested : Recovered test) (otherwise : Recovered orelse) :
    Recovered (.ternary span body test orelse) := by
  refine recovered_of_joining known rfl rfl fun fuel read enough same => ?_
  rw [List.length_append, List.length_cons] at enough
  rw [readJoining]
  refine .step .advance fun _ _ => ?_
  refine .bind (readExpr_grouped tested (by omega)) (fun test same' => ?_) fun _ _ => .of_none rfl
  refine .step (.expect rfl) fun _ _ => ?_
  refine .last (readExpr_final otherwise (by omega)) fun orelse same'' => .pure ?_
  simp only [Expr.unspanned, same, same', same'']

/-- The spelling of an operator: of two words, or of its own. -/
theorem operatorSpelling_cases (operator : Token) :
    operator.kind = .isKw ∧ operator.value = "is not" ∧
        operator.operatorSpelling = [fixed .isKw, fixed .notKw] ∨
      operator.kind = .inKw ∧ operator.value = "not in" ∧
        operator.operatorSpelling = [fixed .notKw, fixed .inKw] ∨
      operator.operatorSpelling = [operator.spelling] := by
  unfold Token.operatorSpelling
  split
  case isTrue both => exact .inl ⟨both.1, both.2, rfl⟩
  case isFalse =>
    split
    case isTrue both => exact .inr (.inl ⟨both.1, both.2, rfl⟩)
    case isFalse => exact .inr (.inr rfl)

/-- An operation on two operands is recovered if both are. -/
theorem recovered_binary {span : Span} {left right : Expr} {operator : Token}
    (joins : operator.kind = .isKw ∨ operator.IsOperator) (known : Recovered left)
    (other : Recovered right) : Recovered (.binary span left operator right) := by
  have spelled : (Expr.binary span left operator right).spelling = grouped left.spelling ++
      (operator.operatorSpelling ++ grouped right.spelling) := by
    rw [Expr.spelling]
  obtain ⟨kind, value, two⟩ | ⟨kind, value, two⟩ | one := operatorSpelling_cases operator
  · simp only [two, List.cons_append, List.nil_append] at spelled
    refine recovered_of_joining known spelled rfl fun fuel read enough same => ?_
    rw [List.length_cons] at enough
    rw [readJoining]
    refine .step .advance fun token first => .step (.eat rfl) fun negated isTrue => ?_
    refine .last (readExpr_final other (by omega)) fun right same' => .pure ?_
    have kind' : token.kind = operator.kind := (congrArg Prod.fst first).trans kind.symm
    simp only [Expr.unspanned, same, same', isTrue, if_true, Token.unspanned, kind', value]
  · simp only [two, List.cons_append, List.nil_append] at spelled
    refine recovered_of_joining known spelled rfl fun fuel read enough same => ?_
    rw [List.length_cons] at enough
    rw [readJoining]
    refine .step .advance fun _ _ => .step (.expectOr rfl _) fun token second => ?_
    refine .last (readExpr_final other (by omega)) fun right same' => .pure ?_
    have kind' : token.kind = operator.kind := (congrArg Prod.fst second).trans kind.symm
    simp only [Expr.unspanned, same, same', Token.unspanned, kind', value]
  · simp only [one, List.cons_append, List.nil_append] at spelled
    obtain identity | ⟨own, right, joins⟩ := joins
    · have joins : operator.spelling.1.joining? = some (.relational, .identity) := by
        rw [Token.spelling, identity]
        rfl
      refine recovered_of_joining known spelled joins fun fuel read enough same => ?_
      rw [readJoining]
      refine .step .advance fun token first => ?_
      refine .look .uneaten (fun negated isFalse => ?_) fun _ _ => by simp [grouped]
      refine .last (readExpr_final other (by omega)) fun right same' => .pure ?_
      simp [Expr.unspanned, same, same', isFalse, Token.unspanned_eq first]
    · refine recovered_of_joining known spelled joins fun fuel read enough same => ?_
      rw [readJoining]
      refine .step .advance fun token first => ?_
      refine .last (readExpr_final other (by omega)) fun right same' => .pure ?_
      simp only [Expr.unspanned, same, same', Token.unspanned_eq first]

end Grammar

end DocSketch
