import Mathlib.Data.List.Forall2
import DocSketch.Proofs.Grammar.Moves
import DocSketch.Proofs.Grammar.Recovery

/-!
# Stars before chains of operators

The operand of a star is read with operators that bind tighter than a bar.  A star before a
chain that has a bar therefore goes with what stands before the first one, and the bars then
join the starred expression to what follows; two stars in braces do not go on at all.

* `Expr.starFirst`: the tree of a chain with a star before it.
* `Grammar.readExpr_starred`: what is read of a star and a chain.
* `Grammar.unpacking_read`: starred chains in brackets, in calls and in braces.
-/

namespace DocSketch

namespace Expr

/-- The tree with a star before its first operand: the star takes all of it up to the first
bar. -/
def starFirst (star : Token) : Expr → Expr
  | binary span left operator right =>
    if operator.kind = .pipe then
      .binary ⟨star.span.start, span.stop⟩ (starFirst star left) operator right
    else
      .starred ⟨star.span.start, span.stop⟩ (.binary span left operator right)
        (star.kind = .power)
  | e => .starred ⟨star.span.start, e.span.stop⟩ e (star.kind = .power)

/-- The whole tree with a star before it. -/
def starWhole (star : Token) (e : Expr) : Expr :=
  .starred ⟨star.span.start, e.span.stop⟩ e (star.kind = .power)

/-- An expression whose first operand is starred starts at the star. -/
theorem start_starFirst (star : Token) (e : Expr) :
    (e.starFirst star).span.start = star.span.start := by
  cases e with
  | binary span left operator right =>
      rw [starFirst]
      split <;> rfl
  | _ => rfl

end Expr

/-- An operand, and operators with their operands behind it. -/
structure Chain where
  first : Token
  links : List Link

namespace Chain

def tokens (chain : Chain) : List Token := chain.first :: linkTokens chain.links

/-- All operators of the chain bind at least as tightly as a bar. -/
structure Tight (chain : Chain) : Prop where
  atom : chain.first.IsAtom
  known : AreLinks chain.links
  tight : ∀ link ∈ chain.links, Power.bitwiseOr.rank ≤ link.1.power

/-- One of the operators is a bar. -/
def IsBarred (chain : Chain) : Prop := ∃ link ∈ chain.links, link.1.kind = .pipe

/-- A chain has an operator before each operand but the first one. -/
theorem length_tokens (chain : Chain) : chain.tokens.length = 2 * chain.links.length + 1 := by
  rw [tokens, List.length_cons, Grammar.length_linkTokens]

end Chain

/-- An item of a display: a chain with or without a star before it. -/
structure ListItem where
  star : Option Token
  chain : Chain

namespace ListItem

def tokens (item : ListItem) : List Token := item.star.toList ++ item.chain.tokens

structure Proper (item : ListItem) : Prop where
  starred : ∀ star ∈ item.star, star.kind = .star
  tight : item.chain.Tight

/-- What the tree of the chain becomes behind the star. -/
def unpack (item : ListItem) (tree : Expr) : Expr := item.star.elim tree tree.starFirst

end ListItem

/-- Elements with commas between them, and perhaps one behind them. -/
structure Listing where
  first : ListItem
  others : List (Token × ListItem)
  ending : Option Token

namespace Listing

def items (listing : Listing) : List ListItem := listing.first :: listing.others.map Prod.snd

/-- Further items, each behind its comma. -/
def further (others : List (Token × ListItem)) : List Token :=
  others.flatMap fun other => other.1 :: other.2.tokens

def tokens (listing : Listing) : List Token :=
  listing.first.tokens ++ (further listing.others ++ listing.ending.toList)

theorem further_cons (comma : Token) (item : ListItem) (others : List (Token × ListItem)) :
    further ((comma, item) :: others) = comma :: (item.tokens ++ further others) := rfl

/-- A listing has the tokens of its first item, of the others and perhaps a last comma. -/
theorem length_tokens (listing : Listing) :
    listing.tokens.length = listing.first.tokens.length +
      ((further listing.others).length + listing.ending.toList.length) := by
  rw [tokens, List.length_append, List.length_append]

structure Proper (listing : Listing) : Prop where
  commas : ∀ other ∈ listing.others, other.1.kind = .comma
  ends : ∀ comma ∈ listing.ending, comma.kind = .comma
  each : ∀ item ∈ listing.items, item.Proper

end Listing

/-- The tokens are ahead, then `more`, which does not go on with an expression. -/
structure Cursor.Faces (cursor : Cursor) (tokens more : List Token) : Prop where
  full : cursor.isBare = false
  here : cursor.rest = tokens ++ more
  ends : (more.headD cursor.stop).kind.joining? = none

/-- The cursor reads the expression `e`, and then `more` is ahead. -/
def Cursor.Gives (cursor : Cursor) (e : Expr) (more : List Token) : Prop :=
  ∃ last, Parse.expr .default cursor = .ok e last ∧ last.rest = more

/-- The tree that a chain alone is read as. -/
def Chain.StandsFor (chain : Chain) (tree : Expr) : Prop :=
  ∀ (cursor : Cursor) (more : List Token), cursor.Faces chain.tokens more → cursor.Gives tree more

/-- An operator as loose as a bar is one. -/
theorem Token.IsOperator.bar_iff {token : Token} (operator : token.IsOperator) :
    token.power = Power.bitwiseOr.rank ↔ token.kind = .pipe := by
  obtain ⟨own, right, joins⟩ := operator
  rw [Token.power, joins]
  cases kind : token.kind <;> rw [kind] at joins <;> cases joins <;> decide

/-- A star takes the whole tree of a chain exactly if the chain has no bar. -/
theorem Grouping.starFirst_iff {chain : Chain} (tight : chain.Tight) {tree : Expr}
    (grouping : Grouping chain.first chain.links tree) (star : Token) :
    tree.starFirst star = tree.starWhole star ↔ ¬chain.IsBarred := by
  obtain ⟨first, links⟩ := chain
  cases grouping with
  | atom =>
      refine iff_of_true ?_ ?_
      · unfold Token.atom
        split <;> rfl
      · rintro ⟨link, member, -⟩
        cases member
  | @operation _ operator second before after left right root leftSide rightSide =>
      have member : (operator, second) ∈ before ++ (operator, second) :: after := by simp
      have operates : operator.IsOperator := (tight.known _ member).1
      by_cases bar : operator.kind = .pipe
      · refine iff_of_false ?_ fun none => none ⟨_, member, bar⟩
        rw [Expr.starFirst, if_pos bar]
        exact Expr.noConfusion
      · refine iff_of_true ?_ ?_
        · rw [Expr.starFirst, if_neg bar]
          rfl
        · rintro ⟨link, found, isBar⟩
          -- The root is the loosest operator, so it would be as loose as that bar.
          have loose := ((tight.known link found).1.bar_iff).mpr isBar
          have least : Power.bitwiseOr.rank ≤ operator.power := tight.tight _ member
          have looser : operator.power ≤ link.1.power := by
            change link ∈ before ++ (operator, second) :: after at found
            rw [List.mem_append, List.mem_cons] at found
            obtain early | rfl | late := found
            · exact root.loosest link (List.mem_append_left _ early)
            · exact Nat.le_refl _
            · exact root.loosest link (List.mem_append_right _ late)
          exact bar (operates.bar_iff.mp (by omega))

namespace Grammar

open Parse

variable {fuel : Nat} {level : Power} {chain : Chain}

/-- A chain whose operators all bind tighter than the level is read into its tree. -/
theorem readExpr_chain {first : Token} {links : List Link} (atom : first.IsAtom)
    (known : AreLinks links) (tighter : ∀ link ∈ links, level.rank < link.1.power)
    (enough : 3 * links.length + 3 ≤ fuel) :
    Reads (readExpr fuel level) (first :: linkTokens links) (Stops level)
      (Grouping first links) := by
  obtain ⟨fuel, rfl⟩ : ∃ more, fuel = more + 2 := ⟨fuel - 2, by omega⟩
  exact readExpr_atom atom
    (readJoins_grouping links.length first (fuel + 1) level first.atom [] links (Nat.le_refl _)
      (by omega) known tighter (by simp [Yields]) (.atom first))

/-- A bar does not go on with the operand of a star or of another bar. -/
theorem stops_bar {outer : List Link} {kind : TokenKind}
    (looser : ∀ link ∈ outer.head?, link.1.power ≤ Power.bitwiseOr.rank)
    (stops : Stops .default kind) :
    Stops .bitwiseOr (ahead ((linkTokens outer).map Token.kind) kind) := by
  intro own form joins
  cases outer with
  | nil => exact Nat.le_trans (stops own form joins) (Nat.zero_le _)
  | cons link outer =>
      change link.1.kind.joining? = _ at joins
      have power : link.1.power = own.rank := by
        rw [Token.power, joins]
        rfl
      change own.rank ≤ _
      exact power ▸ looser link rfl

/-- Bars after a starred expression: each takes all before it as its left operand. -/
theorem readJoins_starred (star : Token) (size : Nat) :
    ∀ (fuel : Nat) (first : Token) (before taken : List Link) (tree : Expr),
      taken.length ≤ size → 3 * taken.length + 2 ≤ fuel → AreLinks (before ++ taken) →
      (∀ link ∈ before ++ taken, Power.bitwiseOr.rank ≤ link.1.power) →
      (∀ link ∈ taken.head?, link.1.power ≤ Power.bitwiseOr.rank) →
      Grouping first before tree →
        Reads (readJoins fuel .default (tree.starFirst star)) (linkTokens taken) (Stops .default)
          fun e => ∃ whole, Grouping first (before ++ taken) whole ∧ e = whole.starFirst star := by
  -- By induction on the number of links: each turn takes a bar with all tighter links behind it.
  induction size with
  | zero =>
      intro fuel first before taken tree short enough known tight heads grouping
      obtain rfl := List.length_eq_zero_iff.mp (Nat.le_zero.mp short)
      obtain ⟨fuel, rfl⟩ : ∃ less, fuel = less + 1 := ⟨fuel - 1, by omega⟩
      rw [List.append_nil]
      exact readJoins_stops.mono (fun _ stops => stops) fun _ same => ⟨tree, grouping, same⟩
  | succ size ih =>
      intro fuel first before taken tree short enough known tight heads grouping
      cases taken with
      | nil =>
          exact ih fuel first before [] tree (Nat.zero_le _) enough known tight heads grouping
      | cons link others =>
          simp only [List.length_cons] at short enough
          obtain ⟨fuel, rfl⟩ : ∃ less, fuel = less + 3 := ⟨fuel - 3, by omega⟩
          have own := known link (by simp)
          have power : link.1.power = Power.bitwiseOr.rank :=
            Nat.le_antisymm (heads link rfl) (tight link (by simp))
          have isBar : link.1.kind = .pipe := own.1.bar_iff.mp power
          obtain ⟨inner, outer, rfl, tighter, looser⟩ :=
            exists_operand Power.bitwiseOr.rank others
          rw [List.length_append] at short enough
          have regrouped : before ++ link :: (inner ++ outer) = before ++ link :: inner ++ outer :=
            (List.append_assoc before (link :: inner) outer).symm
          -- Bars associate to the left, so all links before this one are in its left operand.
          have root : IsRoot before link.1 inner := by
            refine ⟨fun each member => ?_, fun _ each member => ?_, fun isPower => ?_⟩
            · rw [power]
              refine tight each ?_
              rcases List.mem_append.mp member with early | inside
              · exact List.mem_append_left _ early
              · exact List.mem_append_right _ (by simp [inside])
            · rw [power]
              exact tighter each member
            · rw [isBar] at isPower
              cases isPower
          have inside : Reads (readExpr (fuel + 1) .bitwiseOr) (link.2 :: linkTokens inner)
              (Stops .bitwiseOr) (Grouping link.2 inner) :=
            readExpr_chain own.2 (fun each member => known each (by simp [member])) tighter
              (by omega)
          have joined : Reads
              (readJoining (fuel + 2) (.binary .bitwiseOr) .bitwiseOr (tree.starFirst star))
              (link.1 :: link.2 :: linkTokens inner) (Stops .bitwiseOr) fun e =>
                ∃ whole, Grouping first (before ++ link :: inner) whole ∧
                  e = whole.starFirst star := by
            rw [readJoining]
            refine .step (.advance link.1) fun operator same => ?_
            subst same
            refine .last inside fun right grouped => .pure ⟨_, .operation root grouping grouped, ?_⟩
            rw [Expr.start_starFirst, Expr.starFirst, if_pos isBar]
          have joins : link.1.kind.joining? = some (.bitwiseOr, .binary .bitwiseOr) := by
            rw [isBar]
            rfl
          rw [linkTokens_cons_append, regrouped]
          rw [regrouped] at known tight
          refine readJoins_joins (fun _ _ => joins) (by decide) (.bind joined ?_ fun _ stops => ?_)
          · rintro _ ⟨whole, grouped, rfl⟩
            exact ih (fuel + 2) first _ outer whole (by omega) (by omega) known tight looser
              grouped
          · exact stops_bar looser stops

/-- A star and a chain are read, and the star goes with what stands before the first bar. -/
theorem readExpr_starred (tight : chain.Tight) {star : Token} (isStar : star.kind = .star)
    (enough : 3 * chain.links.length + 6 ≤ fuel) :
    Reads (readExpr fuel .default) (star :: chain.tokens) (Stops .default) fun e =>
      ∃ tree, Grouping chain.first chain.links tree ∧ e = tree.starFirst star := by
  obtain ⟨fuel, rfl⟩ : ∃ less, fuel = less + 2 := ⟨fuel - 2, by omega⟩
  obtain ⟨inner, outer, split, tighter, looser⟩ :=
    exists_operand Power.bitwiseOr.rank chain.links
  have known := tight.known
  have bound := tight.tight
  rw [split] at known bound enough
  rw [List.length_append] at enough
  have unbarred : Chain.Tight ⟨chain.first, inner⟩ :=
    ⟨tight.atom, fun link member => known link (List.mem_append_left _ member),
      fun link member => Nat.le_of_lt (tighter link member)⟩
  have free : ¬Chain.IsBarred ⟨chain.first, inner⟩ := by
    rintro ⟨link, member, isBar⟩
    have loose := ((unbarred.known link member).1.bar_iff).mpr isBar
    exact absurd (tighter link member) (by omega)
  have operand : Reads (readExpr fuel .bitwiseOr) (chain.first :: linkTokens inner)
      (Stops .bitwiseOr) (Grouping chain.first inner) :=
    readExpr_chain tight.atom unbarred.known tighter (by omega)
  have opening : Reads (readOpening (fuel + 1) .star) (star :: chain.first :: linkTokens inner)
      (Stops .bitwiseOr) fun e =>
        ∃ tree, Grouping chain.first inner tree ∧ e = tree.starFirst star := by
    rw [readOpening]
    refine .step (.advance star) fun token same => ?_
    subst same
    refine .last operand fun tree grouped => .pure ⟨tree, grouped, ?_⟩
    exact ((grouped.starFirst_iff unbarred token).mpr free).symm
  have tokens : star :: chain.tokens =
      star :: chain.first :: linkTokens inner ++ linkTokens outer := by
    rw [Chain.tokens, split, linkTokens_append]
    rfl
  have opens : star.kind.opening? = some .star := by
    rw [isStar]
    rfl
  rw [tokens, split]
  refine readExpr_reads (fun _ _ => opens) (.bind opening ?_ fun _ stops => ?_)
  · rintro _ ⟨tree, grouped, rfl⟩
    exact readJoins_starred star outer.length (fuel + 1) chain.first inner outer tree
      (Nat.le_refl _) (by omega) known bound looser grouped
  · exact stops_bar looser stops

/-- What an item is read as. -/
def Shown (item : ListItem) (e : Expr) : Prop :=
  ∃ tree, Grouping item.chain.first item.chain.links tree ∧ e = item.unpack tree

section Branches

variable {α : Type} {yes no : Parse α} {token : Token} {tokens later : List Token}
  {expected : TokenKind} {Next : TokenKind → Prop} {Fit : α → Prop}

/-- An optional token that is there decides for the first branch. -/
theorem reads_ifEaten (here : token.kind = expected) (reads : Reads yes later Next Fit) :
    Reads (eat expected >>= fun eaten => if eaten = true then yes else no) (token :: later) Next
      Fit := by
  refine .step (.eat here) fun eaten isTrue => ?_
  rwa [if_pos isTrue]

/-- An optional token that is not there decides for the second branch. -/
theorem reads_ifUneaten (other : ∀ kind, Next kind → ahead (tokens.map Token.kind) kind ≠ expected)
    (reads : Reads no tokens Next Fit) :
    Reads (eat expected >>= fun eaten => if eaten = true then yes else no) tokens Next Fit := by
  refine .look .uneaten (fun eaten isFalse => ?_) other
  rwa [isFalse, if_neg Bool.false_ne_true]

/-- The kind that is asked for decides for the first branch. -/
theorem reads_ifKind
    (here : ∀ kind, Next kind → ahead (tokens.map Token.kind) kind = expected)
    (reads : Reads yes tokens Next Fit) :
    Reads (kind >>= fun kind => if kind = expected then yes else no) tokens Next Fit := by
  have looks : Reads Parse.kind [] (· = expected) (· = expected) := .kind
  refine .look looks (fun kind holds => ?_) here
  rwa [if_pos holds]

/-- Another kind decides for the second branch. -/
theorem reads_ifNotKind
    (other : ∀ kind, Next kind → ahead (tokens.map Token.kind) kind ≠ expected)
    (reads : Reads no tokens Next Fit) :
    Reads (kind >>= fun kind => if kind = expected then yes else no) tokens Next Fit := by
  have looks : Reads Parse.kind [] (· ≠ expected) (· ≠ expected) := .kind
  refine .look looks (fun kind differs => ?_) other
  rwa [if_neg differs]

/-- Where neither `for` nor `async` stands, no clause starts. -/
theorem reads_ifNoClause
    (other : ∀ kind, Next kind → ahead (tokens.map Token.kind) kind ≠ .forKw ∧
      ahead (tokens.map Token.kind) kind ≠ .asyncKw)
    (reads : Reads no tokens Next Fit) :
    Reads (atClause >>= fun found => if found = true then yes else no) tokens Next Fit := by
  have unclaused : Reads atClause [] (fun kind => kind ≠ .forKw ∧ kind ≠ .asyncKw)
      (· = false) := by
    intro file last more stop other
    refine ⟨false, last, ?_, rfl⟩
    change EStateM.Result.ok (decide _) _ = _
    rw [decide_eq_false]
    · rfl
    · rintro (isFor | ⟨isAsync, -⟩)
      · exact other.1 isFor
      · exact other.2 isAsync
  refine .look unclaused (fun found isFalse => ?_) other
  rwa [isFalse, if_neg Bool.false_ne_true]

end Branches

/-- A proper item is read as the expression that it shows. -/
theorem readExpr_item {item : ListItem} (proper : item.Proper)
    (enough : 8 * item.tokens.length ≤ fuel) :
    Reads (readExpr fuel .default) item.tokens (·.joining? = none) (Shown item) := by
  obtain ⟨star, chain⟩ := item
  have size := chain.length_tokens
  have tight : chain.Tight := proper.tight
  cases star with
  | none =>
      change 8 * chain.tokens.length ≤ fuel at enough
      have tighter : ∀ link ∈ chain.links, Power.default.rank < link.1.power := fun link member =>
        Nat.lt_of_lt_of_le (by decide) (tight.tight link member)
      refine (readExpr_chain tight.atom tight.known tighter (by omega)).mono
        (fun _ free => .of_none free) ?_
      exact fun tree grouping => ⟨tree, grouping, rfl⟩
  | some star =>
      change 8 * (chain.tokens.length + 1) ≤ fuel at enough
      exact (readExpr_starred tight (proper.starred star rfl) (by omega)).mono
        (fun _ free => .of_none free) fun _ shown => shown

/-- An item starts with a star, or with an operand and then no assignment. -/
theorem tokens_starts {item : ListItem} (proper : item.Proper) :
    ∃ token later, item.tokens = token :: later ∧
      (token.kind = .star ∨ token.IsAtom ∧ ∀ second ∈ later.head?, second.kind ≠ .assignment) := by
  obtain ⟨star, first, links⟩ := item
  cases star with
  | some star => exact ⟨_, _, rfl, .inl (proper.starred star rfl)⟩
  | none =>
      refine ⟨first, linkTokens links, rfl, .inr ⟨proper.tight.atom, fun second found => ?_⟩⟩
      cases links with
      | nil => cases found
      | cons link links =>
          obtain ⟨own, right, joins⟩ := (proper.tight.known link List.mem_cons_self).1
          obtain rfl : link.1 = second := Option.some.inj found
          intro assigns
          rw [assigns] at joins
          cases joins

/-- No item starts with a token of a kind other than stars and operands. -/
theorem ahead_tokens_ne {item : ListItem} (proper : item.Proper) {kind : TokenKind}
    (other : kind ≠ .star ∧ kind ≠ .identifier ∧ kind ≠ .number) (later : List Token)
    (next : TokenKind) : ahead ((item.tokens ++ later).map Token.kind) next ≠ kind := by
  obtain ⟨token, others, starts, isStar | ⟨name | ⟨number, -⟩, -⟩⟩ := tokens_starts proper <;>
    rw [starts] <;> rintro rfl
  · exact other.1 isStar
  · exact other.2.1 name
  · exact other.2.2 number

/-- Behind an item stands a comma or what closes the list. -/
theorem ahead_further {others : List (Token × ListItem)} {ending : Option Token}
    (commas : ∀ other ∈ others, other.1.kind = .comma)
    (ends : ∀ comma ∈ ending, comma.kind = .comma) (kind : TokenKind) :
    ahead ((Listing.further others ++ ending.toList).map Token.kind) kind = .comma ∨
      ahead ((Listing.further others ++ ending.toList).map Token.kind) kind = kind := by
  cases others with
  | cons other others => exact .inl (commas other List.mem_cons_self)
  | nil =>
      cases ending with
      | none => exact .inr rfl
      | some comma => exact .inl (ends comma rfl)

/-- Behind an item comes a comma or the closing bracket. -/
theorem exists_divider {others : List (Token × ListItem)} {ending : Option Token}
    (commas : ∀ other ∈ others, other.1.kind = .comma)
    (ends : ∀ comma ∈ ending, comma.kind = .comma) (closing : Token) :
    ∃ divider later, Listing.further others ++ (ending.toList ++ [closing]) = divider :: later ∧
      (divider.kind = .comma ∨ divider.kind = closing.kind) := by
  have first := ahead_further commas ends closing.kind
  rw [← List.append_assoc]
  cases whole : Listing.further others ++ ending.toList with
  | nil => exact ⟨closing, [], rfl, .inr rfl⟩
  | cons token later =>
      rw [whole] at first
      exact ⟨token, later ++ [closing], rfl, first⟩

/-- The other items of a display are read one behind each comma. -/
theorem readElements_further {others : List (Token × ListItem)} {ending : Option Token}
    (commas : ∀ other ∈ others, other.1.kind = .comma)
    (ends : ∀ comma ∈ ending, comma.kind = .comma)
    (proper : ∀ item ∈ others.map Prod.snd, item.Proper)
    (enough : 8 * (Listing.further others).length + 1 ≤ fuel) :
    Reads (readElements fuel .closeBracket) (Listing.further others ++ ending.toList)
      (· = .closeBracket) (List.Forall₂ Shown (others.map Prod.snd)) := by
  induction others generalizing fuel with
  | nil =>
      obtain ⟨fuel, rfl⟩ : ∃ less, fuel = less + 1 := ⟨fuel - 1, by omega⟩
      rw [readElements]
      cases ending with
      | none => exact reads_ifUneaten (fun _ here => by subst here; decide) (.pure .nil)
      | some comma =>
          exact reads_ifEaten (ends comma rfl) (reads_ifKind (fun _ here => here) (.pure .nil))
  | cons other others ih =>
      obtain ⟨comma, item⟩ := other
      obtain ⟨here, commas⟩ := List.forall_mem_cons.mp commas
      obtain ⟨own, proper⟩ := List.forall_mem_cons.mp proper
      rw [Listing.further_cons] at enough ⊢
      rw [List.length_cons, List.length_append] at enough
      obtain ⟨fuel, rfl⟩ : ∃ less, fuel = less + 1 := ⟨fuel - 1, by omega⟩
      rw [List.cons_append, List.append_assoc, readElements]
      refine reads_ifEaten here (reads_ifNotKind (fun kind _ => ?_) ?_)
      · exact ahead_tokens_ne own (by simp) _ kind
      · refine .bind (readExpr_item own (by omega)) (fun e shown => ?_) fun kind closing => ?_
        · exact .last (ih commas proper (by omega)) fun es all => .pure (.cons shown all)
        · rcases ahead_further commas ends kind with comma | last
          · rw [comma]
            rfl
          · rw [last, closing]
            rfl

/-- An item is not taken for a keyword argument: no assignment stands behind its first
token. -/
theorem peek_item {item : ListItem} (proper : item.Proper) {divider : Token}
    (divides : divider.kind = .comma ∨ divider.kind = .closeParen) {cursor : Cursor}
    {later : List Token} (here : cursor.rest = item.tokens ++ divider :: later) :
    cursor.kind ≠ .closeParen ∧ cursor.kind ≠ .power ∧
      ¬(cursor.kind = .identifier ∧ cursor.peek 1 = .assignment) := by
  obtain ⟨file, isBare, previous, rest, stop⟩ := cursor
  subst here
  obtain ⟨token, others, starts, first⟩ := tokens_starts proper
  have kind : Cursor.kind ⟨file, isBare, previous, item.tokens ++ divider :: later, stop⟩ =
      token.kind := by
    rw [starts]
    rfl
  have ahead : Cursor.peek ⟨file, isBare, previous, item.tokens ++ divider :: later, stop⟩ 1 =
      ((others ++ divider :: later).headD stop).kind := by
    rw [starts]
    cases others <;> rfl
  rw [kind, ahead]
  rcases first with isStar | ⟨atom, second⟩
  · simp [isStar]
  · have unnamed : ((others ++ divider :: later).headD stop).kind ≠ .assignment := by
      cases others with
      | nil =>
          change divider.kind ≠ _
          rcases divides with comma | closing
          · simp [comma]
          · simp [closing]
      | cons other others => exact second other rfl
    refine ⟨?_, ?_, fun keyword => unnamed keyword.2⟩ <;>
      rcases atom with name | ⟨number, -⟩ <;> simp [*]

/-- An item is read as the next argument, before the others. -/
theorem readArguments_item {item : ListItem} (proper : item.Proper) {divider : Token}
    (divides : divider.kind = .comma ∨ divider.kind = .closeParen) {later : List Token}
    {items : List ListItem} (enough : 8 * item.tokens.length < fuel)
    (reads : Reads (readMoreArguments fuel) (divider :: later) Any fun found =>
      List.Forall₂ Shown items found.1 ∧ found.2 = []) :
    Reads (readArguments (fuel + 1)) (item.tokens ++ divider :: later) Any fun found =>
      List.Forall₂ Shown (item :: items) found.1 ∧ found.2 = [] := by
  have free : divider.kind.joining? = none ∧ divider.kind ≠ .forKw ∧ divider.kind ≠ .asyncKw := by
    rcases divides with comma | closing
    · rw [comma]
      decide
    · rw [closing]
      decide
  obtain ⟨fuel, rfl⟩ : ∃ less, fuel = less + 1 := ⟨fuel - 1, by omega⟩
  have argument : Reads (readArgument (fuel + 1)) item.tokens
      (fun kind => kind.joining? = none ∧ kind ≠ .forKw ∧ kind ≠ .asyncKw) (Shown item) := by
    rw [readArgument]
    have first := readExpr_item proper (show 8 * item.tokens.length ≤ fuel by omega)
    refine .last (first.mono (fun _ free => free.1) fun _ good => good) fun e shown => ?_
    exact reads_ifNoClause (fun _ free => free.2) (.pure shown)
  rw [readArguments]
  refine .get fun file previous more stop => ?_
  -- The reader looks two tokens ahead for a keyword, so the tokens at the cursor have to be known.
  have rest : (standing file previous (item.tokens ++ divider :: later ++ more) stop).rest =
      item.tokens ++ divider :: (later ++ more) := by
    rw [← List.cons_append, ← List.append_assoc]
  obtain ⟨unclosed, single, unnamed⟩ := peek_item proper divides rest
  rw [if_neg unclosed, if_neg single, if_neg unnamed]
  refine .bind argument (fun e shown => ?_) fun _ _ => free
  refine .last reads fun found good => .pure ⟨?_, good.2⟩
  exact .cons shown good.1

/-- The other items of a call are read one behind each comma. -/
theorem readMoreArguments_further {others : List (Token × ListItem)} {ending : Option Token}
    {closing : Token} (commas : ∀ other ∈ others, other.1.kind = .comma)
    (ends : ∀ comma ∈ ending, comma.kind = .comma) (closes : closing.kind = .closeParen)
    (proper : ∀ item ∈ others.map Prod.snd, item.Proper)
    (enough : 8 * (Listing.further others).length + 2 ≤ fuel) :
    Reads (readMoreArguments fuel) (Listing.further others ++ (ending.toList ++ [closing])) Any
      fun found => List.Forall₂ Shown (others.map Prod.snd) found.1 ∧ found.2 = [] := by
  induction others generalizing fuel with
  | nil =>
      obtain ⟨fuel, rfl⟩ : ∃ less, fuel = less + 2 := ⟨fuel - 2, by omega⟩
      rw [readMoreArguments]
      cases ending with
      | none =>
          have differs : closing.kind ≠ .comma := by simp [closes]
          refine reads_ifUneaten (fun _ _ => differs) ?_
          exact .step (.expectOr closes _) fun _ _ => .pure ⟨.nil, rfl⟩
      | some comma =>
          refine reads_ifEaten (ends comma rfl) ?_
          rw [readArguments]
          refine .get fun file previous more stop => ?_
          have here : (standing file previous ([].append [closing] ++ more) stop).kind =
              .closeParen := closes
          rw [if_pos here]
          exact .step (.advance closing) fun _ _ => .pure ⟨.nil, rfl⟩
  | cons other others ih =>
      obtain ⟨comma, item⟩ := other
      obtain ⟨here, commas⟩ := List.forall_mem_cons.mp commas
      obtain ⟨own, proper⟩ := List.forall_mem_cons.mp proper
      rw [Listing.further_cons] at enough ⊢
      rw [List.length_cons, List.length_append] at enough
      obtain ⟨fuel, rfl⟩ : ∃ less, fuel = less + 2 := ⟨fuel - 2, by omega⟩
      have reads : Reads (readMoreArguments fuel)
          (Listing.further others ++ (ending.toList ++ [closing])) Any fun found =>
            List.Forall₂ Shown (others.map Prod.snd) found.1 ∧ found.2 = [] :=
        ih commas proper (by omega)
      rw [List.cons_append, List.append_assoc, readMoreArguments]
      refine reads_ifEaten here ?_
      obtain ⟨divider, later, behind, divides⟩ := exists_divider commas ends closing
      rw [closes] at divides
      rw [behind] at reads ⊢
      exact readArguments_item own divides (by dsimp only; omega) reads

/-- What comes after a reader knows the token that the reader went past last. -/
theorem reads_after {α β : Type} {reader : Parse α} {others : α → Parse β} {tokens : List Token}
    {closing : Token} {Next : TokenKind → Prop} {Fine : α → Prop} {Fit : β → Prop}
    (reads : Reads reader (tokens ++ [closing]) Next Fine)
    (keeps : ∀ Valid, Guards Valid (fun _ => True) → Keeps Valid Any reader)
    (goesOn : ∀ value, Fine value → ∀ file more stop, ∃ result,
      others value (standing file closing more stop) =
        .ok result (standing file closing more stop) ∧ Fit result) :
    Reads (reader >>= others) (tokens ++ [closing]) Next Fit := by
  intro file previous more stop allowed
  obtain ⟨value, last, read, fine⟩ := reads file previous more stop allowed
  have guards : Guards (fun cursor => ∃ front, tokens ++ [closing] ++ more = front ++ cursor.rest ∧
      cursor.previous = front.getLastD previous) fun _ => True := by
    refine ⟨fun cursor valid => ?_, fun _ _ _ => trivial⟩
    obtain ⟨file, isBare, previous, rest, stop⟩ := cursor
    obtain ⟨front, split, behind⟩ := valid
    cases rest with
    | nil => exact ⟨front, split, behind⟩
    | cons token rest =>
        refine ⟨front ++ [token], ?_, ?_⟩
        · simp [split, Cursor.advance]
        · simp [Cursor.advance]
  obtain ⟨⟨front, split, behind⟩, -⟩ := keeps _ guards _ _ _ ⟨[], rfl, rfl⟩ read
  obtain rfl : tokens ++ [closing] = front := List.append_cancel_right split
  obtain rfl : last = closing := by simpa using behind
  obtain ⟨result, finished, fit⟩ := goesOn value fine file more stop
  refine ⟨result, last, ?_, fit⟩
  change EStateM.bind reader others _ = _
  rw [EStateM.bind, read]
  exact finished

/-- The span of a display ends with the token that closes it. -/
theorem reads_closed {α : Type} {closing : Token} {expected : TokenKind}
    (closes : closing.kind = expected) {start : Nat} {build : Span → α} {Next : TokenKind → Prop}
    {Good : α → Prop} (good : Token → Good (build ⟨start, closing.span.stop⟩)) :
    Reads (expect expected >>= fun _ => spanFrom start >>= fun span => pure (build span)) [closing]
      Next Good := by
  have closed : Reads (expect expected) ([] ++ [closing]) Next (· = closing) := .expectOr closes _
  exact reads_after closed (fun _ guards => expect_keeps guards _)
    fun token _ _ _ _ => ⟨_, rfl, good token⟩

/-- An expression that is what it starts with. -/
theorem readExpr_opened {form : Opening} {first : Token} {later : List Token} {Good : Expr → Prop}
    (opens : first.kind.opening? = some form)
    (reads : Reads (readOpening (fuel + 1) form) (first :: later) (·.joining? = none) Good) :
    Reads (readExpr (fuel + 2) level) (first :: later) (·.joining? = none) Good := by
  refine readExpr_reads (fun _ _ => opens) (.last reads fun e good => ?_)
  exact readJoins_stops.mono (fun _ free => .of_none free) fun _ same => same ▸ good

/-- A list display of items is read, and each item as what it shows. -/
theorem readExpr_list {listing : Listing} (proper : listing.Proper) {opening closing : Token}
    (opens : opening.kind = .openBracket) (closes : closing.kind = .closeBracket)
    (enough : 8 * listing.tokens.length + 8 ≤ fuel) :
    Reads (readExpr fuel .default) (opening :: (listing.tokens ++ [closing])) (·.joining? = none)
      fun e => ∃ es, List.Forall₂ Shown listing.items es ∧
        e = .sequence ⟨opening.span.start, closing.span.stop⟩ .list es := by
  obtain ⟨fuel, rfl⟩ : ∃ less, fuel = less + 3 := ⟨fuel - 3, by omega⟩
  obtain ⟨own, each⟩ := List.forall_mem_cons.mp proper.each
  have size := listing.length_tokens
  have tokens : opening :: (listing.tokens ++ [closing]) = opening :: (listing.first.tokens ++
      (Listing.further listing.others ++ listing.ending.toList ++ [closing])) := by
    simp [Listing.tokens]
  have divided : ∀ kind, ahead ((Listing.further listing.others ++ listing.ending.toList ++
      [closing]).map Token.kind) kind = .comma ∨ ahead ((Listing.further listing.others ++
        listing.ending.toList ++ [closing]).map Token.kind) kind = .closeBracket := by
    obtain ⟨divider, later, behind, divides⟩ := exists_divider proper.commas proper.ends closing
    rw [List.append_assoc, behind, ← closes]
    exact fun _ => divides
  have starts : opening.kind.opening? = some .list := by
    rw [opens]
    rfl
  refine readExpr_opened starts ?_
  rw [tokens, readOpening, readListDisplay]
  refine .step (.advance opening) fun token same => ?_
  subst same
  refine reads_ifUneaten (fun kind _ => ahead_tokens_ne own (by simp) _ kind) ?_
  refine .bind (readExpr_item own (by omega)) (fun e shown => ?_) fun kind _ => ?_
  · refine reads_ifNoClause (fun kind _ => ?_) ?_
    · rcases divided kind with comma | last
      · exact comma ▸ by decide
      · exact last ▸ by decide
    · refine .bind (readElements_further proper.commas proper.ends each (by omega))
        (fun es all => ?_) fun _ _ => closes
      exact reads_closed closes fun _ => ⟨_, .cons shown all, rfl⟩
  · rcases divided kind with comma | last
    · exact comma ▸ rfl
    · exact last ▸ rfl

/-- A call with items for arguments is read, and each item as what it shows. -/
theorem readExpr_call {listing : Listing} (proper : listing.Proper) {name opening closing : Token}
    (named : name.kind = .identifier) (opens : opening.kind = .openParen)
    (closes : closing.kind = .closeParen) (enough : 8 * listing.tokens.length + 8 ≤ fuel) :
    Reads (readExpr fuel .default) (name :: opening :: (listing.tokens ++ [closing]))
      (·.joining? = none) fun e => ∃ es, List.Forall₂ Shown listing.items es ∧
        e = .call ⟨name.span.start, closing.span.stop⟩ (.symbol name.span name.value) es [] := by
  obtain ⟨fuel, rfl⟩ : ∃ less, fuel = less + 4 := ⟨fuel - 4, by omega⟩
  obtain ⟨own, each⟩ := List.forall_mem_cons.mp proper.each
  have size := listing.length_tokens
  have tokens : listing.tokens ++ [closing] = listing.first.tokens ++
      (Listing.further listing.others ++ (listing.ending.toList ++ [closing])) := by
    simp [Listing.tokens]
  have arguments : Reads (readArguments (fuel + 1)) (listing.tokens ++ [closing]) Any fun found =>
      List.Forall₂ Shown listing.items found.1 ∧ found.2 = [] := by
    have others : Reads (readMoreArguments fuel) (Listing.further listing.others ++
        (listing.ending.toList ++ [closing])) Any fun found =>
          List.Forall₂ Shown (listing.others.map Prod.snd) found.1 ∧ found.2 = [] :=
      readMoreArguments_further proper.commas proper.ends closes each (by omega)
    obtain ⟨divider, later, behind, divides⟩ := exists_divider proper.commas proper.ends closing
    rw [closes] at divides
    rw [tokens, behind]
    rw [behind] at others
    exact readArguments_item own divides (by omega) others
  have atom : name.atom = .symbol name.span name.value := by
    rw [Token.atom, if_neg (by simp [named])]
  have joins : opening.kind.joining? = some (.call, .call) := by
    rw [opens]
    rfl
  have joined : Reads (readJoining (fuel + 2) .call .call (.symbol name.span name.value))
      (opening :: (listing.tokens ++ [closing])) Any fun e =>
        ∃ es, List.Forall₂ Shown listing.items es ∧
          e = .call ⟨name.span.start, closing.span.stop⟩ (.symbol name.span name.value) es [] := by
    rw [readJoining]
    refine .step (.advance opening) fun _ _ => ?_
    refine reads_after arguments (fun _ guards => readArguments_keeps guards _) ?_
    rintro ⟨es, keywords⟩ ⟨all, rfl⟩ file more stop
    exact ⟨_, rfl, es, all, rfl⟩
  refine readExpr_atom (.inl named) ?_
  rw [atom]
  refine readJoins_joins (fun _ _ => joins) (by decide) ?_
  refine .last (joined.mono (fun _ _ => trivial) fun _ good => good) fun e good => ?_
  exact readJoins_stops.mono (fun _ free => .of_none free) fun _ same => same ▸ good

/-- Wherever the tokens are ahead and then one of a kind that `Next` allows, the reader fails at
that one. -/
def Refuses {α : Type} (reader : Parse α) (tokens : List Token) (Next : TokenKind → Prop)
    (message : String) : Prop :=
  ∀ (file : String) (previous : Token) (more : List Token) (stop : Token),
    Next (more.headD stop).kind →
      ∃ last, reader (standing file previous (tokens ++ more) stop) =
        .error ⟨.unexpectedTokenDetailed (more.headD stop).describe message,
          ⟨(more.headD stop).span.start, file⟩⟩ last

section Refuses

variable {α β : Type} {reader : Parse α} {others : α → Parse β} {tokens later : List Token}
  {Next Middle : TokenKind → Prop} {Fine : α → Prop} {message : String}

/-- A reader refuses if what it does behind its first part does. -/
theorem Refuses.after (first : Reads reader tokens Middle Fine)
    (second : ∀ value, Fine value → Refuses (others value) later Next message)
    (follows : ∀ kind, Next kind → Middle (ahead (later.map Token.kind) kind)) :
    Refuses (reader >>= others) (tokens ++ later) Next message := by
  intro file previous more stop allowed
  have between : Middle ((later ++ more).headD stop).kind := by
    rw [kind_ahead]
    exact follows _ allowed
  obtain ⟨value, middle, read, fine⟩ := first file previous (later ++ more) stop between
  obtain ⟨last, failed⟩ := second value fine file middle more stop allowed
  refine ⟨last, ?_⟩
  rw [List.append_assoc]
  change EStateM.bind reader others _ = _
  rw [EStateM.bind, read]
  exact failed

/-- A reader refuses if its first part does. -/
theorem Refuses.first (first : Refuses reader tokens Next message) :
    Refuses (reader >>= others) tokens Next message := by
  intro file previous more stop allowed
  obtain ⟨last, failed⟩ := first file previous more stop allowed
  refine ⟨last, ?_⟩
  change EStateM.bind reader others _ = _
  rw [EStateM.bind, failed]

/-- A token that is expected and not there is refused. -/
theorem Refuses.expect {expected : TokenKind} (differs : ∀ kind, Next kind → kind ≠ expected) :
    Refuses (expect expected) [] Next s!"expected {expected.name}" := by
  intro file previous more stop allowed
  refine ⟨standing file previous more stop, ?_⟩
  change (if (more.headD stop).kind = expected then _ else _ : Parse Token) _ = _
  rw [if_neg (differs _ allowed)]
  rfl

end Refuses

/-- Two stars in braces take what stands before the first bar. -/
theorem readEntry_chain {stars first : Token} {links : List Link} (isPower : stars.kind = .power)
    (atom : first.IsAtom) (known : AreLinks links)
    (tighter : ∀ link ∈ links, Power.bitwiseOr.rank < link.1.power)
    (enough : 3 * links.length + 4 ≤ fuel) :
    Reads (readEntry fuel) (stars :: first :: linkTokens links) (Stops .bitwiseOr) fun entry =>
      ∃ tree, Grouping first links tree ∧ entry = ⟨none, tree⟩ := by
  obtain ⟨fuel, rfl⟩ : ∃ less, fuel = less + 1 := ⟨fuel - 1, by omega⟩
  rw [readEntry]
  refine reads_ifEaten isPower ?_
  exact .last (readExpr_chain atom known tighter (by omega)) fun tree grouping =>
    .pure ⟨tree, grouping, rfl⟩

/-- A mapping has no other entries without a comma. -/
theorem readEntries_none : Reads (readEntries (fuel + 1)) [] (· ≠ .comma) (· = []) := by
  rw [readEntries]
  exact reads_ifUneaten (fun _ other => other) (.pure rfl)

/-- Braces around two stars and a chain without a bar are a mapping with one entry. -/
theorem readExpr_mapping (tight : chain.Tight) (unbarred : ¬chain.IsBarred)
    {opening stars closing : Token} (opens : opening.kind = .openCurly)
    (isPower : stars.kind = .power) (closes : closing.kind = .closeCurly)
    (enough : 8 * chain.tokens.length + 8 ≤ fuel) :
    Reads (readExpr fuel .default) (opening :: stars :: (chain.tokens ++ [closing]))
      (·.joining? = none) fun e => ∃ tree, Grouping chain.first chain.links tree ∧
        e = .dict ⟨opening.span.start, closing.span.stop⟩ [⟨none, tree⟩] := by
  obtain ⟨fuel, rfl⟩ : ∃ less, fuel = less + 5 := ⟨fuel - 5, by omega⟩
  have size := chain.length_tokens
  have tighter : ∀ link ∈ chain.links, Power.bitwiseOr.rank < link.1.power := by
    intro link member
    refine Nat.lt_of_le_of_ne (tight.tight link member) fun same => unbarred ⟨link, member, ?_⟩
    exact (tight.known link member).1.bar_iff.mp same.symm
  have starts : opening.kind.opening? = some .curly := by
    rw [opens]
    rfl
  have entry : Reads (readEntry (fuel + 2)) (stars :: chain.tokens) (Stops .bitwiseOr) fun entry =>
      ∃ tree, Grouping chain.first chain.links tree ∧ entry = ⟨none, tree⟩ :=
    readEntry_chain isPower tight.atom tight.known tighter (by omega)
  refine readExpr_opened starts ?_
  rw [readOpening, readCurly]
  refine .step (.advance opening) fun token same => ?_
  subst same
  refine reads_ifUneaten (fun _ _ => ?_) (reads_ifKind (fun _ _ => isPower) ?_)
  · change stars.kind ≠ _
    simp [isPower]
  refine .bind entry ?_ fun _ _ => ?_
  · rintro _ ⟨tree, grouping, rfl⟩
    rw [readDict]
    refine .look readEntries_none (fun others none => ?_) fun _ _ => ?_
    · subst none
      exact reads_closed closes fun _ => ⟨tree, grouping, rfl⟩
    · change closing.kind ≠ _
      simp [closes]
  · change Stops _ closing.kind
    rw [closes]
    exact Stops.of_none rfl

/-- Braces around two stars and a chain are refused at the first bar of the chain. -/
theorem readExpr_mapping_barred {first opening stars : Token} {links : List Link}
    (atom : first.IsAtom) (known : AreLinks links)
    (tighter : ∀ link ∈ links, Power.bitwiseOr.rank < link.1.power)
    (opens : opening.kind = .openCurly) (isPower : stars.kind = .power)
    (enough : 3 * links.length + 10 ≤ fuel) :
    Refuses (readExpr fuel level) (opening :: stars :: first :: linkTokens links) (· = .pipe)
      "expected CloseCurly" := by
  obtain ⟨fuel, rfl⟩ : ∃ less, fuel = less + 5 := ⟨fuel - 5, by omega⟩
  have entry : Reads (readEntry (fuel + 2)) (stars :: first :: linkTokens links)
      (Stops .bitwiseOr) fun entry => ∃ tree, Grouping first links tree ∧ entry = ⟨none, tree⟩ :=
    readEntry_chain isPower atom known tighter (by omega)
  have rest : ∀ start entry, Refuses (readDict (fuel + 2) start entry) [] (· = .pipe)
      "expected CloseCurly" := by
    intro start entry
    rw [readDict]
    refine .after readEntries_none (fun _ _ => .first (.expect ?_)) ?_
    · rintro kind rfl
      decide
    · rintro kind rfl
      decide
  have display : Refuses (readOpening (fuel + 4) .curly)
      (opening :: stars :: first :: linkTokens links) (· = .pipe) "expected CloseCurly" := by
    have opened : Reads advance [opening] Any (· = opening) := .advance opening
    have unclosed : Reads (eat .closeCurly) [] (· ≠ .closeCurly) (· = false) := .uneaten
    have doubled : Reads Parse.kind [] (· = .power) (· = .power) := .kind
    rw [readOpening, readCurly]
    refine .after opened (fun token _ => ?_) fun _ _ => trivial
    refine .after unclosed (fun eaten isFalse => ?_) fun _ _ => ?_
    · rw [isFalse, if_neg Bool.false_ne_true]
      refine .after doubled (fun kind here => ?_) fun _ _ => isPower
      rw [if_pos here]
      have both := Refuses.after entry (fun first _ => rest token.span.start first) ?_
      · rwa [List.append_nil] at both
      · rintro kind rfl own form joins
        cases joins
        exact Nat.le_refl _
    · change stars.kind ≠ _
      simp [isPower]
  intro file previous more stop allowed
  have here : (standing file previous (opening :: stars :: first :: linkTokens links ++ more)
      stop).opening? = some .curly := by
    change opening.kind.opening? = _
    rw [opens]
    rfl
  rw [readExpr, get_bind, here]
  exact display.first file previous more stop allowed

/-- A chain is read as its tree, and only as that. -/
theorem standsFor_of_grouping (tight : chain.Tight) {tree : Expr}
    (grouping : Grouping chain.first chain.links tree) : chain.StandsFor tree := by
  intro cursor more faces
  have size := chain.length_tokens
  have proper : ListItem.Proper ⟨none, chain⟩ := ⟨fun star member => (by cases member), tight⟩
  obtain ⟨e, last, read, done, other, again, rfl⟩ := expr_of_reads faces.full faces.here faces.ends
    fun fuel enough => readExpr_item proper (by change 8 * chain.tokens.length ≤ fuel; omega)
  obtain rfl := grouping.unique (fun link member => (tight.known link member).1) again
  exact ⟨last, read, done⟩

/-- A tight chain has a grouping. -/
theorem exists_tree (tight : chain.Tight) : ∃ tree, Grouping chain.first chain.links tree := by
  have tighter : ∀ link ∈ chain.links, Power.default.rank < link.1.power := fun link member =>
    Nat.lt_of_lt_of_le (by decide) (tight.tight link member)
  obtain ⟨tree, -, -, grouping⟩ := readExpr_chain tight.atom tight.known tighter (Nat.le_refl _) ""
    chain.first [] ⟨.eof, "", ⟨0, 0⟩⟩ (Stops.of_none rfl)
  exact ⟨tree, grouping⟩

/-- What items are read as: each as its chain alone, but with its star before the first
operand. -/
def Unpacks (items : List ListItem) (es : List Expr) : Prop :=
  List.Forall₂ (fun item e => ∃ tree, item.chain.StandsFor tree ∧ e = item.unpack tree)
    items es

/-- Items are unpacked as the expressions that show them. -/
theorem unpacks_of_shown {items : List ListItem} {es : List Expr}
    (proper : ∀ item ∈ items, item.Proper) (all : List.Forall₂ Shown items es) :
    Unpacks items es := by
  induction all with
  | nil => exact .nil
  | cons shown _ ih =>
      obtain ⟨own, proper⟩ := List.forall_mem_cons.mp proper
      obtain ⟨tree, grouping, same⟩ := shown
      exact .cons ⟨tree, standsFor_of_grouping own.tight grouping, same⟩ (ih proper)

/-- A chain is cut at its first bar. -/
theorem exists_bar (tight : chain.Tight) (barred : chain.IsBarred) :
    ∃ inner bar second outer, chain.links = inner ++ (bar, second) :: outer ∧ bar.kind = .pipe ∧
      ∀ link ∈ inner, Power.bitwiseOr.rank < link.1.power := by
  obtain ⟨inner, outer, split, tighter, looser⟩ :=
    exists_operand Power.bitwiseOr.rank chain.links
  cases outer with
  | nil =>
      obtain ⟨link, member, isBar⟩ := barred
      rw [split, List.append_nil] at member
      have found : link ∈ chain.links := by rwa [split, List.append_nil]
      have loose := (tight.known link found).1.bar_iff.mpr isBar
      exact absurd (tighter link member) (by omega)
  | cons link outer =>
      have member : link ∈ chain.links := by rw [split]; simp
      refine ⟨inner, link.1, link.2, outer, split, ?_, tighter⟩
      exact (tight.known link member).1.bar_iff.mp
        (Nat.le_antisymm (looser link rfl) (tight.tight link member))

/-- Two stars in braces: the first bar of the chain is refused. -/
theorem expr_mapping_barred (tight : chain.Tight) (barred : chain.IsBarred) {cursor : Cursor}
    {more : List Token} {opening stars closing : Token} (opens : opening.kind = .openCurly)
    (isPower : stars.kind = .power)
    (faces : cursor.Faces (opening :: stars :: (chain.tokens ++ [closing])) more) :
    ∃ inner bar second outer last,
      chain.links = inner ++ (bar, second) :: outer ∧ bar.kind = .pipe ∧
        (∀ link ∈ inner, link.1.kind ≠ .pipe) ∧
        Parse.expr .default cursor = .error ⟨.unexpectedTokenDetailed bar.describe
          "expected CloseCurly", ⟨bar.span.start, cursor.file⟩⟩ last := by
  obtain ⟨inner, bar, second, outer, split, isBar, tighter⟩ := exists_bar tight barred
  have known : AreLinks inner := fun link member =>
    tight.known link (by rw [split]; exact List.mem_append_left _ member)
  have unbarred : ∀ link ∈ inner, link.1.kind ≠ .pipe := fun link member isBar =>
    absurd (tighter link member)
      (Nat.not_lt.mpr (Nat.le_of_eq ((known link member).1.bar_iff.mpr isBar)))
  obtain ⟨file, isBare, previous, rest, stop⟩ := cursor
  obtain rfl : isBare = false := faces.full
  have here : rest = opening :: stars :: chain.first :: linkTokens inner ++
      (bar :: (second :: linkTokens outer ++ [closing] ++ more)) := by
    refine Eq.trans faces.here ?_
    rw [Chain.tokens, split, linkTokens_append]
    simp [linkTokens]
  subst here
  have enough : 3 * inner.length + 10 ≤ (standing file previous (opening :: stars ::
      chain.first :: linkTokens inner ++ (bar :: (second :: linkTokens outer ++ [closing] ++
        more))) stop).budget := by
    simp only [Cursor.budget, List.length_append, List.length_cons, length_linkTokens]
    omega
  obtain ⟨last, failed⟩ := readExpr_mapping_barred tight.atom known tighter opens isPower enough
    file previous (bar :: (second :: linkTokens outer ++ [closing] ++ more)) stop isBar
  exact ⟨inner, bar, second, outer, last, split, isBar, unbarred, (expr_eq _ _).trans failed⟩

/-- **A star takes its operand up to the first bar.** In a list display and in the arguments of
a call, a star before a chain is read as the tree of the chain alone with the star at its first
operand that a bar joins; that is the whole tree exactly if the chain has no bar.  Two stars in
braces make a mapping of the whole tree, but a chain with a bar is refused at its first one. -/
theorem unpacking_read (listing : Listing) (proper : listing.Proper) (chain : Chain)
    (tight : chain.Tight) (cursor : Cursor) (more : List Token) (name opening stars closing : Token)
    (named : name.kind = .identifier) (isPower : stars.kind = .power) :
    (opening.kind = .openBracket → closing.kind = .closeBracket →
      cursor.Faces (opening :: (listing.tokens ++ [closing])) more →
      ∃ es, Unpacks listing.items es ∧
        cursor.Gives (.sequence ⟨opening.span.start, closing.span.stop⟩ .list es) more) ∧
    (opening.kind = .openParen → closing.kind = .closeParen →
      cursor.Faces (name :: opening :: (listing.tokens ++ [closing])) more →
      ∃ es, Unpacks listing.items es ∧
        cursor.Gives (.call ⟨name.span.start, closing.span.stop⟩ (.symbol name.span name.value)
          es []) more) ∧
    (opening.kind = .openCurly → closing.kind = .closeCurly →
      cursor.Faces (opening :: stars :: (chain.tokens ++ [closing])) more →
      (¬chain.IsBarred → ∃ tree, chain.StandsFor tree ∧
        cursor.Gives (.dict ⟨opening.span.start, closing.span.stop⟩ [⟨none, tree⟩]) more) ∧
      (chain.IsBarred → ∃ inner bar second outer last,
        chain.links = inner ++ (bar, second) :: outer ∧ bar.kind = .pipe ∧
          (∀ link ∈ inner, link.1.kind ≠ .pipe) ∧
          Parse.expr .default cursor = .error ⟨.unexpectedTokenDetailed bar.describe
            "expected CloseCurly", ⟨bar.span.start, cursor.file⟩⟩ last)) ∧
    ∃ tree, chain.StandsFor tree ∧
      ∀ star, tree.starFirst star = tree.starWhole star ↔ ¬chain.IsBarred := by
  refine ⟨fun opens closes faces => ?_, fun opens closes faces => ?_, fun opens closes faces =>
    ⟨fun unbarred => ?_, fun barred => ?_⟩, ?_⟩
  · obtain ⟨e, last, read, done, es, all, rfl⟩ := expr_of_reads faces.full faces.here faces.ends
      fun fuel enough => readExpr_list proper opens closes (by simp at enough; omega)
    exact ⟨es, unpacks_of_shown proper.each all, last, read, done⟩
  · obtain ⟨e, last, read, done, es, all, rfl⟩ := expr_of_reads faces.full faces.here faces.ends
      fun fuel enough => readExpr_call proper named opens closes (by simp at enough; omega)
    exact ⟨es, unpacks_of_shown proper.each all, last, read, done⟩
  · obtain ⟨e, last, read, done, tree, grouping, rfl⟩ :=
      expr_of_reads faces.full faces.here faces.ends fun fuel enough =>
        readExpr_mapping tight unbarred opens isPower closes (by simp at enough; omega)
    exact ⟨tree, standsFor_of_grouping tight grouping, last, read, done⟩
  · exact expr_mapping_barred tight barred opens isPower faces
  · obtain ⟨tree, grouping⟩ := exists_tree tight
    exact ⟨tree, standsFor_of_grouping tight grouping, grouping.starFirst_iff tight⟩

/-- The chain `a | b`, from the fourth place on. -/
def barChain : Chain :=
  ⟨⟨.identifier, "a", ⟨3, 4⟩⟩, [(⟨.pipe, "|", ⟨5, 6⟩⟩, ⟨.identifier, "b", ⟨7, 8⟩⟩)]⟩

/-- The items ` *a | b, c ** d`, one place behind a bracket. -/
def starredListing : Listing where
  first := ⟨some ⟨.star, "*", ⟨2, 3⟩⟩, barChain⟩
  others := [(⟨.comma, ",", ⟨8, 9⟩⟩, ⟨none, ⟨.identifier, "c", ⟨10, 11⟩⟩,
    [(⟨.power, "**", ⟨12, 14⟩⟩, ⟨.identifier, "d", ⟨15, 16⟩⟩)]⟩)]
  ending := none

/-- The items of `[*a | b, c ** d]` are unpacked, and a star before `a | b` is not on its whole
value. -/
theorem unpacking_read_listing :
    starredListing.Proper ∧ barChain.Tight ∧
      (∃ es, Unpacks starredListing.items es ∧
        (Cursor.ofTokens "m.py" false (⟨.openBracket, "[", ⟨0, 1⟩⟩ ::
          (starredListing.tokens ++ [⟨.closeBracket, "]", ⟨16, 17⟩⟩]))).Gives
            (.sequence ⟨0, 17⟩ .list es) []) ∧
      ∃ tree, barChain.StandsFor tree ∧
        ∀ star, tree.starFirst star = tree.starWhole star ↔ ¬barChain.IsBarred := by
  have tight : barChain.Tight := by
    refine ⟨.inl rfl, ?_, by decide⟩
    simp [AreLinks, barChain, Token.IsOperator, Token.IsAtom, TokenKind.joining?]
  have plain : Chain.Tight ⟨⟨.identifier, "c", ⟨10, 11⟩⟩,
      [(⟨.power, "**", ⟨12, 14⟩⟩, ⟨.identifier, "d", ⟨15, 16⟩⟩)]⟩ := by
    refine ⟨.inl rfl, ?_, by decide⟩
    simp [AreLinks, Token.IsOperator, Token.IsAtom, TokenKind.joining?]
  have proper : starredListing.Proper := by
    refine ⟨by decide, by decide, List.forall_mem_cons.mpr ⟨⟨by decide, tight⟩, ?_⟩⟩
    exact List.forall_mem_singleton.mpr ⟨by decide, plain⟩
  obtain ⟨displayed, -, -, stands⟩ := unpacking_read starredListing proper barChain tight
    (.ofTokens "m.py" false (⟨.openBracket, "[", ⟨0, 1⟩⟩ ::
      (starredListing.tokens ++ [⟨.closeBracket, "]", ⟨16, 17⟩⟩]))) []
    ⟨.identifier, "f", ⟨0, 1⟩⟩ ⟨.openBracket, "[", ⟨0, 1⟩⟩ ⟨.power, "**", ⟨1, 3⟩⟩
    ⟨.closeBracket, "]", ⟨16, 17⟩⟩ rfl rfl
  exact ⟨proper, tight, displayed rfl rfl ⟨rfl, rfl, rfl⟩, stands⟩

/-- In `[ *a | b]` the star does not take `a | b`, and `{**a | b}` is no expression. -/
theorem unpacking_stops_at_bar :
    (∃ tree, Parse.expr .default (.ofTokens "m.py" false barChain.tokens) = .ok tree
        (standing "m.py" ⟨.identifier, "b", ⟨7, 8⟩⟩ [] ⟨.eof, "EOF", ⟨8, 8⟩⟩) ∧
      ∀ span last, Parse.expr .default (.ofTokens "m.py" false (⟨.openBracket, "[", ⟨0, 1⟩⟩ ::
          ⟨.star, "*", ⟨2, 3⟩⟩ :: (barChain.tokens ++ [⟨.closeBracket, "]", ⟨8, 9⟩⟩]))) ≠
        .ok (.sequence ⟨0, 9⟩ .list [.starred span tree false]) last) ∧
    ∀ e last, Parse.expr .default (.ofTokens "m.py" false (⟨.openCurly, "\x7b", ⟨0, 1⟩⟩ ::
      ⟨.power, "**", ⟨1, 3⟩⟩ :: (barChain.tokens ++ [⟨.closeCurly, "\x7d", ⟨8, 9⟩⟩]))) ≠
        .ok e last := by
  refine ⟨⟨_, rfl, fun span last read => ?_⟩, fun e last read => ?_⟩
  · cases read
  · cases read

end Grammar

end DocSketch
