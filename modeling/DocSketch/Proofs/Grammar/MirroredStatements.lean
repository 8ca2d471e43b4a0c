import DocSketch.Grammar.Stmt
import DocSketch.Proofs.Grammar.Displays
import DocSketch.Proofs.Grammar.MirroredReaders

/-!
# Parts of statements are read alike

What has been said of the readers of expressions holds of all readers that do not go past the end
of a statement: names in imports, items of a `with` statement, heads of functions and classes,
and simple statements up to their ends.

* `Stmt.unspanned`: a statement without its places.
* `Grammar.MirroredParts`: the loops in a statement beside themselves with a larger bound.
* `Grammar.readSimpleHead_mirrors`: a statement that starts with an expression.
-/

namespace DocSketch

open DocSketch.Expr

/-- What a function declares, without places. -/
def Signature.unspanned (signature : Signature) : Signature :=
  ⟨unspannedParameters signature.parameters, unspannedOption signature.returns⟩

/-- An item of a `with` statement without its places. -/
def WithItem.unspanned (item : WithItem) : WithItem :=
  ⟨item.context.unspanned, unspannedOption item.target⟩

namespace Stmt

mutual

/-- A statement without its places. -/
def unspanned : Stmt → Stmt
  | expression _ value => expression default value.unspanned
  | assign _ targets value annotation =>
    assign default (unspannedAll targets) (unspannedOption value) (unspannedOption annotation)
  | augAssign _ target operator value =>
    augAssign default target.unspanned operator.unspanned value.unspanned
  | importNames _ names => importNames default names
  | importFrom _ module names isWildcard => importFrom default module names isWildcard
  | function _ name signature body decorators isAsync =>
    function default name signature.unspanned (unspannedBody body) (unspannedAll decorators)
      isAsync
  | classDef _ name bases keywords body decorators =>
    classDef default name (unspannedAll bases) (unspannedKeywords keywords) (unspannedBody body)
      (unspannedAll decorators)
  | ret _ value => ret default (unspannedOption value)
  | raise _ exception cause => raise default (unspannedOption exception) (unspannedOption cause)
  | conditional _ test body orelse =>
    conditional default test.unspanned (unspannedBody body) (unspannedBody orelse)
  | whileLoop _ test body orelse =>
    whileLoop default test.unspanned (unspannedBody body) (unspannedBody orelse)
  | forLoop _ target iter body orelse isAsync =>
    forLoop default target.unspanned iter.unspanned (unspannedBody body) (unspannedBody orelse)
      isAsync
  | withBlock _ items body isAsync =>
    withBlock default (items.map WithItem.unspanned) (unspannedBody body) isAsync
  | tryBlock _ body handlers orelse finalbody =>
    tryBlock default (unspannedBody body) (unspannedHandlers handlers) (unspannedBody orelse)
      (unspannedBody finalbody)
  | keyword _ word arguments => keyword default word (unspannedAll arguments)

def unspannedBody : List Stmt → List Stmt
  | [] => []
  | stmt :: others => stmt.unspanned :: unspannedBody others

def unspannedHandlers : List (Handler Stmt) → List (Handler Stmt)
  | [] => []
  | ⟨_, exception, name, body⟩ :: others =>
    ⟨default, unspannedOption exception, name, unspannedBody body⟩ :: unspannedHandlers others

end

end Stmt

namespace Expr

/-- The place of an expression is taken off if there is one. -/
theorem unspannedOption_eq_map (part : Option Expr) :
    unspannedOption part = part.map unspanned := by
  cases part <;> rfl

mutual

/-- Whether something can be assigned to does not depend on where it stands. -/
theorem isAssignable_unspanned (e : Expr) : e.unspanned.isAssignable = e.isAssignable := by
  cases e with
  | sequence span kind elements =>
      rw [unspanned, isAssignable, isAssignable, areAssignable_unspanned elements]
  | _ => rfl

/-- Places do not matter to what can be assigned to. -/
theorem areAssignable_unspanned (elements : List Expr) :
    areAssignable (unspannedAll elements) = areAssignable elements := by
  cases elements with
  | nil => rfl
  | cons e others =>
      rw [unspannedAll, areAssignable, areAssignable, isAssignable_unspanned e,
        areAssignable_unspanned others]

end

/-- Expressions that are alike can be assigned to together. -/
theorem isAssignable_eq {e e' : Expr} (alike : e.unspanned = e'.unspanned) :
    e.isAssignable = e'.isAssignable := by
  rw [← isAssignable_unspanned e, alike, isAssignable_unspanned]

/-- The targets of a chain of assignments are alike, and so is its value. -/
theorem unspanned_chain {chain chain' : List Expr}
    (alike : unspannedAll chain = unspannedAll chain') :
    unspannedAll chain.dropLast = unspannedAll chain'.dropLast ∧
      unspannedOption chain.getLast? = unspannedOption chain'.getLast? := by
  simp only [Grammar.unspannedAll_eq_map] at alike
  simp only [Grammar.unspannedAll_eq_map, unspannedOption_eq_map, ← List.getLast?_map,
    List.map_dropLast, alike, and_self]

end Expr

namespace Grammar

open Parse

/-- Each loop in a statement with the bound `fuel` beside itself with the bound `more`. -/
structure MirroredParts (R : Cursor → Cursor → Prop) (fuel more : Nat) : Prop where
  dots : Mirrors R R id (readDots fuel) (readDots more)
  leadingDots : Mirrors R R id (readLeadingDots fuel) (readLeadingDots more)
  imports : Mirrors R R id (readImports fuel) (readImports more)
  importedNames : ∀ inParens,
    Mirrors R R id (readImportedNames fuel inParens) (readImportedNames more inParens)
  operands : Mirrors R R unspannedAll (readOperands fuel) (readOperands more)
  links : Mirrors R R unspannedAll (readLinks fuel) (readLinks more)
  withItems : Mirrors R R (List.map WithItem.unspanned) (readWithItems fuel) (readWithItems more)

section Loops

variable {R : Cursor → Cursor → Prop} {fuel more : Nat} (mirroring : Mirroring R)

include mirroring

/-- Aliases are read alike. -/
theorem readAlias_mirrors : Mirrors R R id readAlias readAlias := by
  refine .ifEaten (mirroring.crosses rfl) ?_ (Mirrors.pure rfl).facing
  refine .bind (.expect (mirroring.crosses rfl)) fun name name' same => .pure ?_
  exact congrArg some (Prod.mk.inj same).2

/-- A loop over items with commas between them: the rest of it behind an item. -/
theorem chained_mirrors {α γ : Type} {view : List α → γ} {item item' : α}
    {others others' : Parse (List α)} (reads : Mirrors R R view others others')
    (single : view [item] = view [item'])
    (cons : ∀ {list list' : List α}, view list = view list' →
      view (item :: list) = view (item' :: list')) :
    Mirrors R R view
      (eat .comma >>= fun eaten =>
        if eaten = true then others >>= fun others => pure (item :: others) else pure [item])
      (eat .comma >>= fun eaten =>
        if eaten = true then others' >>= fun others => pure (item' :: others)
        else pure [item']) := by
  refine .ifEaten (mirroring.crosses rfl) ?_ (Mirrors.pure single).facing
  exact .bind reads fun list list' alike => .pure (cons alike)

section Parts

variable (ih : MirroredParts R fuel more)

include ih

/-- The further parts of a dotted name are read alike. -/
theorem dots_mirrors : Mirrors R R id (readDots (fuel + 1)) (readDots (more + 1)) := by
  rw [readDots, readDots]
  refine .ifEaten (mirroring.crosses rfl) ?_ (Mirrors.pure rfl).facing
  refine .bind (.expect (mirroring.crosses rfl)) fun name name' same => ?_
  refine .bind ih.dots fun others others' alike => .pure ?_
  rw [(Prod.mk.inj same).2, show others = others' from alike]

/-- Dotted names are read alike. -/
theorem readDottedName_mirrors : Mirrors R R id (readDottedName fuel) (readDottedName more) := by
  refine .bind (.expect (mirroring.crosses rfl)) fun name name' same => ?_
  refine .bind ih.dots fun others others' alike => .pure ?_
  rw [(Prod.mk.inj same).2, show others = others' from alike]

/-- The dots of a relative import are read alike. -/
theorem leadingDots_mirrors :
    Mirrors R R id (readLeadingDots (fuel + 1)) (readLeadingDots (more + 1)) := by
  have marked : ∀ mark : String, Mirrors (Midway R) R id
      (advance >>= fun _ => readLeadingDots fuel >>= fun others => pure (mark ++ others))
      (advance >>= fun _ => readLeadingDots more >>= fun others => pure (mark ++ others)) := by
    refine fun mark => .bind (.advance mirroring) fun _ _ _ => ?_
    exact .bind ih.leadingDots fun others others' alike => .pure (congrArg (mark ++ ·) alike)
  rw [readLeadingDots, readLeadingDots]
  refine .kind fun cursor cursor' related => ?_
  split
  case h_1 here =>
      rw [(mirroring.kind_iff related rfl).mp here]
      exact (marked ".").here (by rw [here]; rfl)
  case h_2 here =>
      rw [(mirroring.kind_iff related rfl).mp here]
      exact (marked "...").here (by rw [here]; rfl)
  case h_3 noDot noEllipsis =>
      split
      case h_1 there => exact absurd ((mirroring.kind_iff related rfl).mpr there) noDot
      case h_2 there => exact absurd ((mirroring.kind_iff related rfl).mpr there) noEllipsis
      case h_3 => exact (Mirrors.pure rfl).facing

/-- Imported modules are read alike. -/
theorem imports_mirrors : Mirrors R R id (readImports (fuel + 1)) (readImports (more + 1)) := by
  rw [readImports, readImports]
  refine .bind (readDottedName_mirrors mirroring ih) ?_
  rintro path - rfl
  refine .bind (readAlias_mirrors mirroring) ?_
  rintro localName - rfl
  exact chained_mirrors mirroring ih.imports rfl fun alike => congrArg (List.cons _) alike

/-- Imported names are read alike. -/
theorem importedNames_mirrors (inParens : Bool) : Mirrors R R id
    (readImportedNames (fuel + 1) inParens) (readImportedNames (more + 1) inParens) := by
  rw [readImportedNames, readImportedNames]
  refine .bind (.expect (mirroring.crosses rfl)) fun path path' same => ?_
  rw [(Prod.mk.inj same).2]
  refine .bind (readAlias_mirrors mirroring) ?_
  rintro localName - rfl
  refine .ifEaten (mirroring.crosses rfl) ?_ (Mirrors.pure rfl).facing
  refine .kind fun cursor cursor' related => ?_
  refine .ite (and_congr_right fun _ => mirroring.kind_iff related rfl)
    (fun _ => (Mirrors.pure rfl).facing) fun _ => Mirrors.facing ?_
  refine .bind (ih.importedNames _) fun others others' alike => .pure ?_
  exact congrArg (List.cons _) alike

/-- Lists of imported names are read alike, in parentheses or not. -/
theorem readImportList_mirrors :
    Mirrors R R id (readImportList fuel) (readImportList more) := by
  refine .bind (.eats mirroring rfl) ?_
  rintro inParens - rfl
  refine .bind (ih.importedNames _) ?_
  rintro names - rfl
  refine .ite Iff.rfl (fun _ => ?_) fun _ => .pure rfl
  exact .bind (.expect (mirroring.crosses rfl)) fun _ _ _ => .pure rfl

variable (exprs : Mirrored R fuel more)

include exprs

/-- The operands of a keyword statement are read alike. -/
theorem operands_mirrors :
    Mirrors R R unspannedAll (readOperands (fuel + 1)) (readOperands (more + 1)) := by
  rw [readOperands, readOperands]
  refine .ifExpression mirroring ?_ (.pure rfl)
  refine .bind (exprs.expr _) fun operand operand' alike => ?_
  refine chained_mirrors mirroring ih.operands ?_ fun alikes => ?_
  · simp only [unspannedAll, alike]
  · simp only [unspannedAll, alike, alikes]

/-- The links of a chain of assignments are read alike. -/
theorem links_mirrors :
    Mirrors R R unspannedAll (readLinks (fuel + 1)) (readLinks (more + 1)) := by
  rw [readLinks, readLinks]
  refine .ifEaten (mirroring.crosses rfl) ?_ (Mirrors.pure rfl).facing
  refine .bind (exprs.tuple _) fun link link' alike => ?_
  refine .bind ih.links fun others others' alikes => .pure ?_
  simp only [unspannedAll, alike, alikes]

/-- The items of a `with` block are read alike. -/
theorem withItems_mirrors : Mirrors R R (List.map WithItem.unspanned)
    (readWithItems (fuel + 1)) (readWithItems (more + 1)) := by
  rw [readWithItems, readWithItems]
  refine .bind (exprs.expr _) fun context context' alike => ?_
  have rest : ∀ target target', unspannedOption target = unspannedOption target' →
      Mirrors R R (List.map WithItem.unspanned)
        (do
          if ← eat .comma then return ⟨context, target⟩ :: (← readWithItems fuel)
          else return [⟨context, target⟩])
        (do
          if ← eat .comma then return ⟨context', target'⟩ :: (← readWithItems more)
          else return [⟨context', target'⟩]) := by
    intro target target' aimed
    have same : WithItem.unspanned ⟨context, target⟩ = WithItem.unspanned ⟨context', target'⟩ := by
      simp only [WithItem.unspanned, alike, aimed]
    refine chained_mirrors mirroring ih.withItems ?_ fun alikes => ?_
    · simp only [List.map_cons, List.map_nil, same]
    · simp only [List.map_cons, same, alikes]
  refine .ifEaten (mirroring.crosses rfl) ?_ (Mirrors.supply (rest _ _ rfl)).facing
  refine .bind (exprs.expr _) fun target target' aimed => ?_
  refine .supply (rest _ _ ?_)
  exact congrArg some aimed

end Parts

end Loops

/-- Layout is no operator of an augmented assignment. -/
theorem isAugmentedAssignment_of_isIdle (kind : TokenKind) (idle : kind.isIdle = true) :
    kind.isAugmentedAssignment = false := by
  cases kind <;> first | rfl | cases idle

/-- The parts of statements are read alike, with any number of steps. -/
theorem mirroredParts {R : Cursor → Cursor → Prop} (mirroring : Mirroring R) (fuel : Nat) :
    ∀ more, fuel ≤ more → MirroredParts R fuel more := by
  induction fuel with
  | zero =>
      intro more _
      constructor
      all_goals intros
      all_goals exact .exhausted rfl
  | succ fuel ih =>
      intro more larger
      obtain ⟨more, rfl⟩ : ∃ less, more = less + 1 := ⟨more - 1, by omega⟩
      have exprs := mirrored mirroring fuel more (by omega)
      have below := ih more (by omega)
      exact {
        dots := dots_mirrors mirroring below
        leadingDots := leadingDots_mirrors mirroring below
        imports := imports_mirrors mirroring below
        importedNames := importedNames_mirrors mirroring below
        operands := operands_mirrors mirroring below exprs
        links := links_mirrors mirroring below exprs
        withItems := withItems_mirrors mirroring below exprs }

section Heads

variable {R : Cursor → Cursor → Prop} {fuel more : Nat} (mirroring : Mirroring R)
  (larger : fuel ≤ more)

include mirroring larger

/-- The bases and keywords of classes are read alike. -/
theorem readBases_mirrors :
    Mirrors R R unspannedArguments (readBases fuel) (readBases more) :=
  .ifEaten (mirroring.crosses rfl) (mirrored mirroring fuel more larger).arguments
    (Mirrors.pure rfl).facing

/-- The names and signatures of functions are read alike. -/
theorem readSignature_mirrors :
    Mirrors R R (fun found => (found.1, found.2.unspanned)) (readSignature fuel)
      (readSignature more) := by
  have exprs := mirrored mirroring fuel more larger
  refine .bind (.expect (mirroring.crosses rfl)) fun _ _ _ => ?_
  refine .bind (.expectOr (mirroring.crosses rfl) _) fun name name' same => ?_
  refine .bind (.expect (mirroring.crosses rfl)) fun _ _ _ => ?_
  refine .bind (exprs.parameters _ _ rfl) fun parameters parameters' declared => ?_
  refine .bind (.expect (mirroring.crosses rfl)) fun _ _ _ => ?_
  refine .bind (exprs.optional _ rfl) fun returns returns' alike => .pure ?_
  simp only [Signature.unspanned, (Prod.mk.inj same).2, declared, alike]

omit mirroring larger in
/-- Targets that are alike are refused together. -/
theorem ensureAssignable_mirrors {target target' : Expr}
    (alike : target.unspanned = target'.unspanned) :
    Mirrors R R id (ensureAssignable target) (ensureAssignable target') := by
  unfold ensureAssignable
  rw [isAssignable_eq alike]
  exact .ite Iff.rfl (fun _ => .pure rfl) fun _ => .failAt _ _

omit mirroring larger in
/-- Chains of targets that are alike are refused together. -/
theorem ensureAllAssignable_mirrors {targets : List Expr} :
    ∀ {targets' : List Expr}, unspannedAll targets = unspannedAll targets' →
      Mirrors R R id (ensureAllAssignable targets) (ensureAllAssignable targets') := by
  induction targets with
  | nil =>
      intro targets' alikes
      cases targets' with
      | nil => exact .pure rfl
      | cons target' targets' => cases alikes
  | cons target targets ih =>
      intro targets' alikes
      cases targets' with
      | nil => cases alikes
      | cons target' targets' =>
          obtain ⟨alike, alikes⟩ := List.cons.inj alikes
          exact .bind (ensureAssignable_mirrors alike) fun _ _ _ => ih alikes

/-- A statement that starts with an expression, up to its end. -/
theorem readSimpleHead_mirrors :
    Mirrors R R Stmt.unspanned (readSimpleHead fuel) (readSimpleHead more) := by
  have exprs := mirrored mirroring fuel more larger
  have parts := mirroredParts mirroring fuel more larger
  refine .offset fun start start' => .bind (exprs.tuple _) fun first first' alike => ?_
  have declared : ∀ annotation annotation' : Expr, ∀ value value' : Option Expr,
      annotation.unspanned = annotation'.unspanned →
      unspannedOption value = unspannedOption value' →
      Mirrors R R Stmt.unspanned
        (do return .assign (← spanFrom start) [first] value (some annotation))
        (do return .assign (← spanFrom start') [first'] value' (some annotation')) := by
    intro annotation annotation' value value' typed given
    refine .spanFrom fun _ _ => .pure ?_
    simp only [Stmt.unspanned, unspannedAll, unspannedOption, alike, typed, given]
  refine .kind fun cursor cursor' related => ?_
  split
  case h_1 here =>
      rw [(mirroring.kind_iff related rfl).mp here]
      refine Mirrors.facing (.bind parts.links fun links links' alikes => ?_)
      have chained : unspannedAll (first :: links) = unspannedAll (first' :: links') := by
        simp only [unspannedAll, alike, alikes]
      obtain ⟨targets, value⟩ := unspanned_chain chained
      refine .bind (ensureAllAssignable_mirrors targets) fun _ _ _ => .spanFrom fun _ _ => .pure ?_
      simp only [Stmt.unspanned, targets, value]
  case h_2 here =>
      rw [(mirroring.kind_iff related rfl).mp here]
      have real : cursor.kind.isIdle = false := by rw [here]; rfl
      refine .bind ((Mirrors.advance mirroring).here real) fun _ _ _ => ?_
      refine .bind (ensureAssignable_mirrors alike) fun _ _ _ => ?_
      refine .bind (exprs.expr _) fun annotation annotation' typed => ?_
      refine .ifEaten (mirroring.crosses rfl) ?_ (Mirrors.facing ?_)
      · refine .bind (exprs.tuple _) fun value value' given => .supply ?_
        exact declared _ _ _ _ typed (congrArg some given)
      · exact .supply (declared _ _ _ _ typed rfl)
  case h_3 next noChain noColon =>
      have noChain' : cursor'.kind ≠ .assignment := fun there =>
        noChain ((mirroring.kind_iff related rfl).mpr there)
      have noColon' : cursor'.kind ≠ .colon := fun there =>
        noColon ((mirroring.kind_iff related rfl).mpr there)
      have same := mirroring.test_eq related isAugmentedAssignment_of_isIdle
      split
      case isTrue augmented =>
          have real : cursor.kind.isIdle = false := by
            cases idle : cursor.kind.isIdle with
            | false => rfl
            | true => cases (isAugmentedAssignment_of_isIdle _ idle).symm.trans augmented
          split
          case h_1 there => exact absurd there noChain'
          case h_2 there => exact absurd there noColon'
          case h_3 =>
              rw [if_pos (same.symm.trans augmented)]
              refine .bind (ensureAssignable_mirrors alike) fun _ _ _ => ?_
              refine .bind ((Mirrors.advance mirroring).here real) fun operator operator' op => ?_
              refine .bind (exprs.tuple _) fun value value' given => .spanFrom fun _ _ => .pure ?_
              simp only [Stmt.unspanned, alike, Token.unspanned_eq op, given]
      case isFalse plain =>
          split
          case h_1 there => exact absurd there noChain'
          case h_2 there => exact absurd there noColon'
          case h_3 =>
              rw [if_neg fun augmented => plain (same.trans augmented)]
              refine Mirrors.facing (.pure ?_)
              simp only [Stmt.unspanned, alike]

variable {After : Cursor → Cursor → Prop} (ends : Mirrors R After id endSimple endSimple)

include ends

omit mirroring larger in
/-- A simple statement ends where its end is gone past. -/
theorem finished_mirrors {start start' : Nat} {build build' : Span → Stmt}
    (alike : ∀ span span', (build span).unspanned = (build' span').unspanned) :
    Mirrors R After Stmt.unspanned
      (spanFrom start >>= fun span => endSimple >>= fun _ => pure (build span))
      (spanFrom start' >>= fun span => endSimple >>= fun _ => pure (build' span)) :=
  .spanFrom fun span span' => .bind ends fun _ _ _ => .pure (alike span span')

/-- Assignments and expressions are read alike as statements. -/
theorem readSimple_mirrors :
    Mirrors R After Stmt.unspanned (readSimple fuel) (readSimple more) := by
  refine .bind (readSimpleHead_mirrors mirroring larger) fun stmt stmt' alike => ?_
  exact .bind ends fun _ _ _ => .pure alike

/-- `return` statements are read alike. -/
theorem readReturn_mirrors :
    Mirrors (Midway R) After Stmt.unspanned (readReturn fuel) (readReturn more) := by
  refine .bind (.advance mirroring) fun _ _ _ => .ifExpression mirroring ?_ ?_
  · refine .bind ((mirrored mirroring fuel more larger).tuple _) fun value value' alike => ?_
    refine .supply (finished_mirrors ends fun _ _ => ?_)
    simp only [Stmt.unspanned, unspannedOption, alike]
  · exact .supply (finished_mirrors ends fun _ _ => rfl)

/-- `raise` statements are read alike. -/
theorem readRaise_mirrors :
    Mirrors (Midway R) After Stmt.unspanned (readRaise fuel) (readRaise more) := by
  have exprs := mirrored mirroring fuel more larger
  refine .bind (.advance mirroring) fun _ _ _ => .ifExpression mirroring ?_ ?_
  · refine .bind (exprs.expr _) fun exception exception' alike => ?_
    refine .bind (exprs.optional _ rfl) fun cause cause' caused => ?_
    refine finished_mirrors ends fun _ _ => ?_
    simp only [Stmt.unspanned, unspannedOption, alike, caused]
  · exact finished_mirrors ends fun _ _ => rfl

/-- Imports of modules are read alike. -/
theorem readImport_mirrors :
    Mirrors (Midway R) After Stmt.unspanned (readImport fuel) (readImport more) := by
  refine .bind (.advance mirroring) fun _ _ _ => ?_
  refine .bind (mirroredParts mirroring fuel more larger).imports fun names names' same => ?_
  exact finished_mirrors ends fun _ _ => congrArg (Stmt.importNames default) same

/-- Imports of names are read alike. -/
theorem readFromImport_mirrors :
    Mirrors (Midway R) After Stmt.unspanned (readFromImport fuel) (readFromImport more) := by
  have parts := mirroredParts mirroring fuel more larger
  refine .bind (.advance mirroring) fun _ _ _ => ?_
  refine .bind parts.leadingDots ?_
  rintro dots - rfl
  have rest : ∀ {start start' : Nat} (path : String), Mirrors R After Stmt.unspanned
      (do
        let _ ← expect .importKw
        let isWildcard ← eat .star
        let names ← if isWildcard then pure [] else readImportList fuel
        let span ← spanFrom start
        endSimple
        return .importFrom span (dots ++ path) names isWildcard)
      (do
        let _ ← expect .importKw
        let isWildcard ← eat .star
        let names ← if isWildcard then pure [] else readImportList more
        let span ← spanFrom start'
        endSimple
        return .importFrom span (dots ++ path) names isWildcard) := by
    intro start start' path
    refine .bind (.expect (mirroring.crosses rfl)) fun _ _ _ => ?_
    refine .bind (.eats mirroring rfl) ?_
    rintro isWildcard - rfl
    refine .ite Iff.rfl (fun _ => .supply (finished_mirrors ends fun _ _ => rfl)) fun _ => ?_
    refine .bind (readImportList_mirrors mirroring parts) fun names names' same => ?_
    refine finished_mirrors ends fun _ _ => ?_
    exact congrArg (Stmt.importFrom default (dots ++ path) · isWildcard) same
  refine .ifKind (mirroring.crosses rfl) (Mirrors.facing ?_) (Mirrors.facing (.supply (rest _)))
  refine .bind (readDottedName_mirrors mirroring parts) ?_
  rintro path - rfl
  exact rest path

/-- Keyword statements are read alike. -/
theorem readKeyword_mirrors :
    Mirrors (Midway R) After Stmt.unspanned (readKeyword fuel) (readKeyword more) := by
  have parts := mirroredParts mirroring fuel more larger
  refine .bind (.advance mirroring) fun token token' same => ?_
  rw [(Prod.mk.inj same).1]
  split
  case h_4 =>
      refine .bind parts.operands fun operands operands' alikes => ?_
      refine finished_mirrors ends fun _ _ => ?_
      simp only [Stmt.unspanned, alikes]
  all_goals exact .supply (finished_mirrors ends fun _ _ => rfl)

end Heads

end Grammar

end DocSketch
