import DocSketch.Proofs.Grammar.Takes
import DocSketch.Proofs.Grammar.Blocks
import DocSketch.Proofs.Tree.Yields
import Mathlib.Data.List.Sort

/-!
# The order of `yield` expressions

Readers go past the token of a `yield` before they read its operand, and read the parts of an
expression from the left to the right.  So the `yield` expressions of an orderly expression are
listed in the order of their tokens.

* `Expr.marks`: where the `yield` expressions of an orderly expression start.
* `Grammar.Marks`: a reader goes past the tokens at which the marks of its result are.
* `Grammar.marking`: this for all readers of expressions.
-/

namespace DocSketch

namespace Expr

open Classical in
/-- Where the `yield` expressions of an expression start; of one that is not orderly, nothing
is listed. -/
noncomputable def marks (e : Expr) : List Nat :=
  if e.Orderly then e.yieldNodes.map fun node => node.span.start else []

/-- The marks of an orderly expression are the starts of its yields, in their order. -/
theorem marks_of_orderly {e : Expr} (orderly : e.Orderly) :
    e.marks = e.yieldNodes.map fun node => node.span.start :=
  if_pos orderly

/-- A mark is the start of a yield. -/
theorem mem_yieldNodes_of_mem_marks {e : Expr} {start : Nat} (member : start ∈ e.marks) :
    ∃ node ∈ e.yieldNodes, node.span.start = start := by
  unfold marks at member
  split at member
  case isTrue => exact List.mem_map.mp member
  case isFalse => cases member

/-- The marks of an expression are its own and those of its parts. -/
theorem marks_sublist (e : Expr) :
    e.marks.Sublist ((if e.isYield then [e.span.start] else []) ++ e.children.flatMap marks) := by
  by_cases orderly : e.Orderly
  · have below : (e.children.flatMap fun child =>
        child.yieldNodes.map fun node => node.span.start) = e.children.flatMap marks :=
      congrArg List.flatten (List.map_congr_left fun child member =>
        (marks_of_orderly (orderly.part (isPart_iff.mpr member))).symm)
    rw [marks_of_orderly orderly, yieldNodes_eq, List.map_append, List.map_flatMap, below]
    refine (List.append_sublist_append_right _).mpr ?_
    split
    all_goals exact List.Sublist.refl _
  · rw [marks, if_neg orderly]
    exact List.nil_sublist _

/-- The marks of a node other than a yield are among those of its parts. -/
theorem marks_sublist_children {e : Expr} (plain : e.isYield = false) :
    e.marks.Sublist (e.children.flatMap marks) := by
  have listed := e.marks_sublist
  rwa [plain] at listed

end Expr

/-- The marks of the parts of a mapping entry. -/
noncomputable def Entry.marks (entry : Entry Expr) : List Nat :=
  entry.key.toList.flatMap Expr.marks ++ entry.value.marks

/-- The marks of the parts of a clause. -/
noncomputable def Clause.marks (clause : Clause Expr) : List Nat :=
  clause.target.marks ++ clause.iter.marks ++ clause.conditions.flatMap Expr.marks

/-- The marks of one side of the arguments of a call: of the positional ones, or of the
keywords. -/
noncomputable def sideMarks : Bool → List Expr × List (Keyword Expr) → List Nat
  | true, found => found.1.flatMap Expr.marks
  | false, found => found.2.flatMap fun keyword => keyword.value.marks

open Classical in
/-- The marks of the arguments of a call, if no argument yields behind a keyword. -/
noncomputable def callMarks (found : List Expr × List (Keyword Expr)) : List Nat :=
  if Expr.YieldsBefore found.1 (found.2.map Keyword.value) then
    sideMarks true found ++ sideMarks false found
  else []

/-- Lists of numbers that increase, one behind the other. -/
theorem append_sublist_of_lt {first second all : List Nat} (ordered : all.Pairwise (· < ·))
    (left : first.Sublist all) (right : second.Sublist all)
    (apart : ∀ a ∈ first, ∀ b ∈ second, a < b) : (first ++ second).Sublist all := by
  have increasing : (first ++ second).Pairwise (· < ·) :=
    List.pairwise_append.mpr ⟨ordered.sublist left, ordered.sublist right, apart⟩
  have distinct : (first ++ second).Nodup := increasing.imp Nat.ne_of_lt
  have inside : first ++ second ⊆ all := List.append_subset.mpr ⟨left.subset, right.subset⟩
  exact List.sublist_of_subperm_of_pairwise (List.subperm_of_subset distinct inside)
    increasing ordered

/-- Marks of arguments that are in order on either side are in order together. -/
theorem callMarks_sublist {found : List Expr × List (Keyword Expr)} {all : List Nat}
    (ordered : all.Pairwise (· < ·)) (sides : ∀ side, (sideMarks side found).Sublist all) :
    (callMarks found).Sublist all := by
  unfold callMarks
  split
  case isTrue before =>
    refine append_sublist_of_lt ordered (sides true) (sides false) fun a first b second => ?_
    obtain ⟨argument, inArguments, marked⟩ := List.mem_flatMap.mp first
    obtain ⟨keyword, inKeywords, named⟩ := List.mem_flatMap.mp second
    obtain ⟨node, yields, rfl⟩ := Expr.mem_yieldNodes_of_mem_marks marked
    obtain ⟨other, yieldsToo, rfl⟩ := Expr.mem_yieldNodes_of_mem_marks named
    exact before node (List.mem_flatMap.mpr ⟨argument, inArguments, yields⟩) other
      (List.mem_flatMap.mpr ⟨keyword.value, List.mem_map_of_mem inKeywords, yieldsToo⟩)
  case isFalse => exact List.nil_sublist _

namespace Expr

variable {span : Span}

theorem marks_call (callee : Expr) (arguments : List Expr) (keywords : List (Keyword Expr)) :
    (call span callee arguments keywords).marks.Sublist
      (callee.marks ++ callMarks (arguments, keywords)) := by
  by_cases orderly : (call span callee arguments keywords).Orderly
  · have listed := marks_sublist_children (e := call span callee arguments keywords) rfl
    rw [callMarks, if_pos (orderly _ _ _ _ (.refl _))]
    simpa [children, sideMarks, List.flatMap_map] using listed
  · rw [marks, if_neg orderly]
    exact List.nil_sublist _

theorem marks_member (object : Expr) (property : String) :
    (member span object property).marks.Sublist object.marks := by
  simpa [children] using marks_sublist_children (e := member span object property) rfl

theorem marks_sequence (kind : SequenceKind) (elements : List Expr) :
    (sequence span kind elements).marks.Sublist (elements.flatMap marks) :=
  marks_sublist_children rfl

theorem marks_dict (entries : List (Entry Expr)) :
    (dict span entries).marks.Sublist (entries.flatMap Entry.marks) := by
  change List.Sublist _ (entries.flatMap fun entry =>
    entry.key.toList.flatMap marks ++ entry.value.marks)
  simpa [children, List.flatMap_assoc] using
    marks_sublist_children (e := dict span entries) rfl

theorem marks_comprehension (kind : ComprehensionKind) (element : Expr) (value : Option Expr)
    (clauses : List (Clause Expr)) :
    (comprehension span kind element value clauses).marks.Sublist
      (element.marks ++ value.toList.flatMap marks ++ clauses.flatMap Clause.marks) := by
  change List.Sublist _ (_ ++ clauses.flatMap fun clause =>
    clause.target.marks ++ clause.iter.marks ++ clause.conditions.flatMap marks)
  simpa [children, List.flatMap_assoc] using
    marks_sublist_children (e := comprehension span kind element value clauses) rfl

/-- A comprehension that is not a mapping. -/
theorem marks_generated (kind : ComprehensionKind) (element : Expr)
    (clauses : List (Clause Expr)) :
    (comprehension span kind element none clauses).marks.Sublist
      (element.marks ++ clauses.flatMap Clause.marks) := by
  have listed := @marks_comprehension span kind element none clauses
  rwa [Option.toList_none, List.flatMap_nil, List.append_nil] at listed

theorem marks_binary (left : Expr) (operator : Token) (right : Expr) :
    (binary span left operator right).marks.Sublist (left.marks ++ right.marks) := by
  simpa [children] using marks_sublist_children (e := binary span left operator right) rfl

theorem marks_unary (operator : Token) (operand : Expr) :
    (unary span operator operand).marks.Sublist operand.marks := by
  simpa [children] using marks_sublist_children (e := unary span operator operand) rfl

theorem marks_ternary (body test orelse : Expr) :
    (ternary span body test orelse).marks.Sublist (body.marks ++ test.marks ++ orelse.marks) := by
  simpa [children] using marks_sublist_children (e := ternary span body test orelse) rfl

theorem marks_subscript (object index : Expr) :
    (subscript span object index).marks.Sublist (object.marks ++ index.marks) := by
  simpa [children] using marks_sublist_children (e := subscript span object index) rfl

theorem marks_slice (lower upper step : Option Expr) :
    (slice span lower upper step).marks.Sublist
      (lower.toList.flatMap marks ++ upper.toList.flatMap marks ++ step.toList.flatMap marks) := by
  simpa [children] using marks_sublist_children (e := slice span lower upper step) rfl

theorem marks_starred (value : Expr) (isDouble : Bool) :
    (starred span value isDouble).marks.Sublist value.marks := by
  simpa [children] using marks_sublist_children (e := starred span value isDouble) rfl

/-- The marks of a yield are its own start and those of its value. -/
theorem marks_yield (value : Option Expr) (delegates : Bool) :
    (yield span value delegates).marks.Sublist (span.start :: value.toList.flatMap marks) := by
  have listed := (yield span value delegates).marks_sublist
  cases delegates with
  | true => exact listed.trans (List.sublist_cons_self _ _)
  | false => exact listed

/-- Expressions without parts have no marks. -/
theorem marks_eq_nil {e : Expr} (plain : e.isYield = false) (single : e.children = []) :
    e.marks = [] := by
  have listed := marks_sublist_children plain
  rw [single] at listed
  exact List.sublist_nil.mp listed

end Expr

namespace Grammar

open Parse Token

variable {α β : Type} {tokens : List Token} {early : List Nat} {reader : Parse α}
  {others : α → Parse β} {own : α → List Nat} {mark : β → List Nat} {expected : TokenKind}

/-- The reader goes past tokens at which the marks of its result are, behind the marks that
were found before. -/
abbrev Marks (tokens : List Token) (early : List Nat) (own : α → List Nat) (reader : Parse α) :
    Prop :=
  Takes tokens Anywhere reader fun passed _ value => (own value).Sublist (early ++ starts passed)

/-- More tokens in between do not matter. -/
theorem sublist_past {marks : List Nat} (passed : List Token) {later : List Token}
    (found : marks.Sublist (early ++ starts later)) :
    marks.Sublist (early ++ starts (passed ++ later)) := by
  rw [starts_append]
  exact found.trans ((List.append_sublist_append_left _).mpr (List.sublist_append_right _ _))

/-- Of tokens that start one after another, those that a reader goes past do so too. -/
theorem Takes.increasing {At : TokenKind → Prop} {Post : List Token → TokenKind → α → Prop}
    (takes : Takes tokens At reader Post) (ordered : (starts tokens).Pairwise (· < ·)) :
    Takes tokens At reader fun passed next value =>
      Post passed next value ∧ (starts passed).Pairwise (· < ·) := by
  intro cursor value after inside here ran
  obtain ⟨passed, passes, holds⟩ := takes cursor value after inside here ran
  obtain ⟨front, split⟩ := inside.suffix
  rw [split, passes.rest, starts_append, starts_append] at ordered
  exact ⟨passed, passes, holds, (List.pairwise_append.mp (List.pairwise_append.mp ordered).2.1).1⟩

namespace Marks

theorem pure {value : α} (kept : (own value).Sublist early) :
    Marks tokens early own (pure value : Parse α) :=
  Takes.pure fun _ _ => kept.trans (List.sublist_append_left _ _)

/-- Marks of two readers, one behind the other. -/
theorem follow (first : Marks tokens early own reader)
    (second : ∀ value, Marks tokens (own value) mark (others value)) :
    Marks tokens early mark (reader >>= others) := by
  refine Takes.bind first fun value passed _ found => (second value).anywhere.mono ?_
  intro later _ result known
  rw [starts_append, ← List.append_assoc]
  exact known.trans (found.append (.refl _))

/-- A part of the result is read, with its own marks. -/
theorem bind (first : Marks tokens [] own reader)
    (second : ∀ value, Marks tokens (early ++ own value) mark (others value)) :
    Marks tokens early mark (reader >>= others) :=
  follow (first.mono fun _ _ _ found => (List.append_sublist_append_left _).mpr found) second

/-- A reader whose result has no marks. -/
theorem past {Post : List Token → TokenKind → α → Prop} (first : Takes tokens Anywhere reader Post)
    (second : ∀ value, Marks tokens early mark (others value)) :
    Marks tokens early mark (reader >>= others) :=
  Takes.bind first fun value passed _ _ =>
    (second value).anywhere.mono fun _ _ _ known => sublist_past passed known

theorem step {others : Token → Parse β} (second : ∀ token, Marks tokens early mark (others token)) :
    Marks tokens early mark (advance >>= others) := by
  have moves : Takes tokens Anywhere advance fun _ _ _ => True := by
    intro cursor token after _ _ ran
    cases ran
    obtain ⟨file, isBare, previous, rest, stop⟩ := cursor
    cases rest with
    | nil =>
        -- At the end of the file nothing is gone past.
        exact ⟨[], .none _, trivial⟩
    | cons token rest => exact ⟨[token], ⟨rfl, rfl, rfl, rfl⟩, trivial⟩
  exact past moves second

theorem expectOr {others : Token → Parse β} {message : String} (inside : expected.isBorder = false)
    (second : ∀ token, Marks tokens early mark (others token)) :
    Marks tokens early mark (expectOr expected message >>= others) :=
  Takes.expectOr (ne_eof_of_inside inside) fun token _ =>
    (second token).mono fun _ _ _ known => sublist_past [token] known

theorem expect {others : Token → Parse β} (inside : expected.isBorder = false)
    (second : ∀ token, Marks tokens early mark (others token)) :
    Marks tokens early mark (expect expected >>= others) :=
  expectOr inside second

theorem eat {others : Bool → Parse β} (inside : expected.isBorder = false)
    (second : ∀ eaten, Marks tokens early mark (others eaten)) :
    Marks tokens early mark (eat expected >>= others) :=
  Takes.eat (ne_eof_of_inside inside)
    (fun token _ => (second true).mono fun _ _ _ known => sublist_past [token] known)
    (second false).anywhere

theorem takeAll {others : List String → Parse β} (inside : expected.isBorder = false)
    (second : ∀ taken, Marks tokens early mark (others taken)) :
    Marks tokens early mark (takeAll expected >>= others) :=
  Takes.takeAll (ne_eof_of_inside inside) fun taken _ =>
    (second _).mono fun _ _ _ known => sublist_past taken known

theorem kind {others : TokenKind → Parse β}
    (second : ∀ kind, Marks tokens early mark (others kind)) :
    Marks tokens early mark (kind >>= others) :=
  Takes.kind fun kind _ => (second kind).anywhere

/-- A result that is known without going on. -/
theorem known {value : α} (second : Marks tokens early mark (others value)) :
    Marks tokens early mark (Pure.pure value >>= others) :=
  Takes.known second

theorem look {look : Cursor → α} (second : ∀ value, Marks tokens early mark (others value)) :
    Marks tokens early mark ((do return look (← get) : Parse α) >>= others) :=
  Takes.look second

theorem get {others : Cursor → Parse β}
    (second : ∀ cursor, Marks tokens early mark (others cursor)) :
    Marks tokens early mark (get >>= others) :=
  Takes.get second

theorem spanFrom {start : Nat} {others : Span → Parse β}
    (second : ∀ stop, Marks tokens early mark (others ⟨start, stop⟩)) :
    Marks tokens early mark (spanFrom start >>= others) :=
  Takes.spanFrom second

theorem ite {condition : Prop} [Decidable condition] {first second : Parse β}
    (yes : Marks tokens early mark first) (no : Marks tokens early mark second) :
    Marks tokens early mark (if condition then first else second) :=
  Takes.ite (fun _ => yes) fun _ => no

end Marks

/-- The readers of expressions go past the tokens at which the marks of their results are. -/
structure Marking (tokens : List Token) (fuel : Nat) : Prop where
  expr : ∀ level, Marks tokens [] Expr.marks (readExpr fuel level)
  joins : ∀ level left, Marks tokens left.marks Expr.marks (readJoins fuel level left)
  opening : ∀ form, Takes tokens (·.opening? = some form) (readOpening fuel form)
    fun passed _ e => e.marks.Sublist (starts passed)
  joining : ∀ form level left, Marks tokens left.marks Expr.marks (readJoining fuel form level left)
  tuple : ∀ level, Marks tokens [] Expr.marks (readTuple fuel level)
  tupleRest : ∀ level, Marks tokens [] (List.flatMap Expr.marks) (readTupleRest fuel level)
  clauses : Marks tokens [] (List.flatMap Clause.marks) (readClauses fuel)
  conditions : Marks tokens [] (List.flatMap Expr.marks) (readConditions fuel)
  elements : ∀ closing, Marks tokens [] (List.flatMap Expr.marks) (readElements fuel closing)
  group : Marks tokens [] Expr.marks (readGroup fuel)
  listDisplay : Marks tokens [] Expr.marks (readListDisplay fuel)
  curly : Marks tokens [] Expr.marks (readCurly fuel)
  dict : ∀ start first, Marks tokens first.marks Expr.marks (readDict fuel start first)
  entry : Marks tokens [] Entry.marks (readEntry fuel)
  entries : Marks tokens [] (List.flatMap Entry.marks) (readEntries fuel)
  arguments : ∀ side, Marks tokens [] (sideMarks side) (readArguments fuel)
  argument : Marks tokens [] Expr.marks (readArgument fuel)
  moreArguments : ∀ side, Marks tokens [] (sideMarks side) (readMoreArguments fuel)
  sliceItem : Marks tokens [] Expr.marks (readSliceItem fuel)
  slice : ∀ start lower, Marks tokens (lower.toList.flatMap Expr.marks) Expr.marks
    (readSlice fuel start lower)
  slicePart : Marks tokens [] (fun part => part.toList.flatMap Expr.marks) (readSlicePart fuel)
  sliceItems : Marks tokens [] (List.flatMap Expr.marks) (readSliceItems fuel)

section Readers

variable {fuel : Nat} (reads : Marking tokens fuel)

include reads

theorem readTuple_marks (level : Power) :
    Marks tokens [] Expr.marks (readTuple (fuel + 1) level) := by
  rw [readTuple]
  refine .bind (reads.expr level) fun first => .kind fun kind => .ite ?_ (.pure (.refl _))
  refine .bind (reads.tupleRest level) fun others => .spanFrom fun stop => .pure ?_
  exact Expr.marks_sequence .tuple (first :: others)

theorem readTupleRest_marks (level : Power) :
    Marks tokens [] (List.flatMap Expr.marks) (readTupleRest (fuel + 1) level) := by
  rw [readTupleRest]
  refine .eat rfl fun _ => .ite (.look fun _ => .ite ?_ (.pure (.refl _))) (.pure (.refl _))
  exact .bind (reads.expr level) fun _ => .bind (reads.tupleRest level) fun _ => .pure (.refl _)

theorem readConditions_marks :
    Marks tokens [] (List.flatMap Expr.marks) (readConditions (fuel + 1)) := by
  rw [readConditions]
  refine .eat rfl fun _ => .ite ?_ (.pure (.refl _))
  exact .bind (reads.expr _) fun _ => .bind reads.conditions fun _ => .pure (.refl _)

theorem readClauses_marks :
    Marks tokens [] (List.flatMap Clause.marks) (readClauses (fuel + 1)) := by
  rw [readClauses]
  refine .look fun _ => .ite ?_ (.pure (.refl _))
  refine .eat rfl fun isAsync => .expect rfl fun _ => ?_
  refine .bind (reads.tuple _) fun target => .expect rfl fun _ => ?_
  refine .bind (reads.expr _) fun iter => .bind reads.conditions fun conditions => ?_
  exact .bind reads.clauses fun others => .pure (.refl _)

theorem readElements_marks (closing : TokenKind) :
    Marks tokens [] (List.flatMap Expr.marks) (readElements (fuel + 1) closing) := by
  rw [readElements]
  refine .eat rfl fun _ => .ite (.kind fun _ => .ite (.pure (.refl _)) ?_) (.pure (.refl _))
  exact .bind (reads.expr _) fun _ => .bind (reads.elements closing) fun _ => .pure (.refl _)

/-- The further elements of a display and its end. -/
theorem closeElements_marks (start : Nat) (kind : SequenceKind) {closing : TokenKind}
    (inside : closing.isBorder = false) (first : Expr) :
    Marks tokens first.marks Expr.marks (do
      let others ← readElements fuel closing
      let _ ← expect closing
      return .sequence (← spanFrom start) kind (first :: others)) := by
  refine .bind (reads.elements closing) fun others => .expect inside fun _ => .spanFrom fun _ => ?_
  exact .pure (Expr.marks_sequence kind (first :: others))

/-- The clauses of a comprehension that is no mapping, and its end. -/
theorem closeClauses_marks (start : Nat) (kind : ComprehensionKind) {closing : TokenKind}
    (inside : closing.isBorder = false) (element : Expr) :
    Marks tokens element.marks Expr.marks (do
      let clauses ← readClauses fuel
      let _ ← expect closing
      return .comprehension (← spanFrom start) kind element none clauses) := by
  refine .bind reads.clauses fun clauses => .expect inside fun _ => .spanFrom fun _ => ?_
  exact .pure (Expr.marks_generated kind element clauses)

theorem readGroup_marks : Marks tokens [] Expr.marks (readGroup (fuel + 1)) := by
  rw [readGroup]
  refine .step fun opening => .eat rfl fun _ => .ite ?_ ?_
  · exact .spanFrom fun _ => .pure (Expr.marks_sequence .tuple [])
  · refine .bind (reads.expr _) fun first => .look fun _ => .ite ?_ (.kind fun _ => .ite ?_ ?_)
    · exact closeClauses_marks reads _ .generator rfl first
    · exact closeElements_marks reads _ .tuple rfl first
    · exact .expect rfl fun _ => .pure (.refl _)

theorem readListDisplay_marks : Marks tokens [] Expr.marks (readListDisplay (fuel + 1)) := by
  rw [readListDisplay]
  refine .step fun opening => .eat rfl fun _ => .ite ?_ ?_
  · exact .spanFrom fun _ => .pure (Expr.marks_sequence .list [])
  · refine .bind (reads.expr _) fun first => .look fun _ => .ite ?_ ?_
    · exact closeClauses_marks reads _ .list rfl first
    · exact closeElements_marks reads _ .list rfl first

theorem readCurly_marks : Marks tokens [] Expr.marks (readCurly (fuel + 1)) := by
  rw [readCurly]
  refine .step fun opening => .eat rfl fun _ => .ite ?_ (.kind fun _ => .ite ?_ ?_)
  · exact .spanFrom fun _ => .pure (Expr.marks_dict [])
  · exact .bind reads.entry fun first => reads.dict _ first
  · refine .bind (reads.expr _) fun first => .eat rfl fun _ => .ite ?_ (.look fun _ => .ite ?_ ?_)
    · refine .bind (reads.expr _) fun value => .look fun _ => .ite ?_ ?_
      · refine .bind reads.clauses fun clauses => .expect rfl fun _ => .spanFrom fun _ => .pure ?_
        simpa using Expr.marks_comprehension .dict first (some value) clauses
      · simpa [Entry.marks] using reads.dict opening.span.start ⟨some first, value⟩
    · exact closeClauses_marks reads _ .set rfl first
    · exact closeElements_marks reads _ .set rfl first

/-- A mapping has its marks in order, behind those of its first entry. -/
theorem readDict_marks (start : Nat) (first : Entry Expr) :
    Marks tokens first.marks Expr.marks (readDict (fuel + 1) start first) := by
  rw [readDict]
  refine .bind reads.entries fun others => .expect rfl fun _ => .spanFrom fun _ => .pure ?_
  exact Expr.marks_dict (first :: others)

theorem readEntry_marks : Marks tokens [] Entry.marks (readEntry (fuel + 1)) := by
  rw [readEntry]
  refine .eat rfl fun _ => .ite ?_ ?_
  · exact .bind (reads.expr _) fun value => .pure (.refl _)
  · refine .bind (reads.expr _) fun key => .expect rfl fun _ => ?_
    exact .bind (reads.expr _) fun value => .pure (by simp [Entry.marks])

theorem readEntries_marks :
    Marks tokens [] (List.flatMap Entry.marks) (readEntries (fuel + 1)) := by
  rw [readEntries]
  refine .eat rfl fun _ => .ite (.kind fun _ => .ite (.pure (.refl _)) ?_) (.pure (.refl _))
  exact .bind reads.entry fun _ => .bind reads.entries fun _ => .pure (.refl _)

theorem readArgument_marks : Marks tokens [] Expr.marks (readArgument (fuel + 1)) := by
  rw [readArgument]
  refine .bind (reads.expr _) fun argument => .look fun _ => .ite ?_ (.pure (.refl _))
  refine .bind reads.clauses fun clauses => .spanFrom fun _ => .pure ?_
  exact Expr.marks_generated .generator argument clauses

/-- The other arguments have their marks in order, the positional ones and the named ones. -/
theorem readMoreArguments_marks (side : Bool) :
    Marks tokens [] (sideMarks side) (readMoreArguments (fuel + 1)) := by
  rw [readMoreArguments]
  refine .eat rfl fun _ => .ite (reads.arguments side) ?_
  exact .expect rfl fun _ => .pure (by cases side <;> exact .refl _)

/-- Arguments have their marks in order, the positional ones and the named ones apart. -/
theorem readArguments_marks (side : Bool) :
    Marks tokens [] (sideMarks side) (readArguments (fuel + 1)) := by
  have named (name : Option String) (value : Expr) :
      Marks tokens value.marks (sideMarks side)
        (readMoreArguments fuel >>= fun more => pure (more.1, ⟨name, value⟩ :: more.2)) := by
    refine .bind (reads.moreArguments side) ?_
    rintro ⟨arguments, keywords⟩
    refine .pure ?_
    cases side with
    | true => exact List.sublist_append_right _ _
    | false => exact .refl _
  rw [readArguments]
  refine .get fun cursor => .ite ?_ (.ite ?_ (.ite ?_ ?_))
  · exact .step fun _ => .pure (by cases side <;> exact .refl _)
  · exact .step fun _ => .bind (reads.expr _) fun value => named none value
  · exact .step fun name => .step fun _ => .bind (reads.expr _) fun value => named _ value
  · refine .bind reads.argument fun argument => .bind (reads.moreArguments side) ?_
    rintro ⟨arguments, keywords⟩
    refine .pure ?_
    cases side with
    | true => exact .refl _
    | false => exact List.sublist_append_right _ _

theorem readSlicePart_marks :
    Marks tokens [] (fun part => part.toList.flatMap Expr.marks) (readSlicePart (fuel + 1)) := by
  rw [readSlicePart]
  refine .kind fun _ => .ite (.pure (.refl _)) (.bind (reads.expr _) fun part => .pure ?_)
  simp

/-- A slice has its marks in order, behind those of its lower bound. -/
theorem readSlice_marks (start : Nat) (lower : Option Expr) :
    Marks tokens (lower.toList.flatMap Expr.marks) Expr.marks
      (readSlice (fuel + 1) start lower) := by
  rw [readSlice]
  refine .step fun _ => .bind reads.slicePart fun upper => .eat rfl fun _ => ?_
  split
  · refine .bind reads.slicePart fun step => .spanFrom fun _ => .pure ?_
    exact Expr.marks_slice lower upper step
  · refine .known (.spanFrom fun _ => .pure ?_)
    simpa using Expr.marks_slice lower upper none

theorem readSliceItem_marks : Marks tokens [] Expr.marks (readSliceItem (fuel + 1)) := by
  rw [readSliceItem]
  refine .look fun start => .kind fun _ => .ite (reads.slice start none) ?_
  refine .bind (reads.expr _) fun lower => .kind fun _ => .ite ?_ (.pure (.refl _))
  simpa using reads.slice start (some lower)

theorem readSliceItems_marks :
    Marks tokens [] (List.flatMap Expr.marks) (readSliceItems (fuel + 1)) := by
  rw [readSliceItems]
  refine .eat rfl fun _ => .ite (.kind fun _ => .ite (.pure (.refl _)) ?_) (.pure (.refl _))
  exact .bind reads.sliceItem fun _ => .bind reads.sliceItems fun _ => .pure (.refl _)

/-- The joins keep the marks in order, behind those of the expression so far. -/
theorem readJoins_marks (level : Power) (left : Expr) :
    Marks tokens left.marks Expr.marks (readJoins (fuel + 1) level left) := by
  rw [readJoins]
  refine .get fun cursor => ?_
  split
  · exact .pure (.refl _)
  · refine .ite (.pure (.refl _)) ?_
    exact .follow (reads.joining _ _ left) fun joined => reads.joins level joined

/-- The arguments of a call, both sides together.  How the sides alternate is not known, but
the tokens of both start one after another. -/
theorem readArguments_callMarks (ordered : (starts tokens).Pairwise (· < ·)) :
    Marks tokens [] callMarks (readArguments fuel) := by
  have sides := ((reads.arguments true).both (reads.arguments false)).increasing ordered
  refine sides.mono fun passed _ found known => ?_
  obtain ⟨⟨positional, named⟩, increasing⟩ := known
  exact callMarks_sublist increasing (Bool.forall_bool.mpr ⟨named, positional⟩)

/-- A joined expression has the marks of what it joins before its own. -/
theorem readJoining_marks (ordered : (starts tokens).Pairwise (· < ·)) (form : Joining)
    (level : Power) (left : Expr) :
    Marks tokens left.marks Expr.marks (readJoining (fuel + 1) form level left) := by
  cases form with
  | binary right =>
      rw [readJoining]
      refine .step fun operator => .bind (reads.expr _) fun operand => .pure ?_
      exact Expr.marks_binary left operator operand
  | identity =>
      rw [readJoining]
      refine .step fun operator => .eat rfl fun negated => ?_
      refine .bind (reads.expr _) fun operand => .pure ?_
      exact Expr.marks_binary left _ operand
  | exclusion =>
      rw [readJoining]
      refine .step fun _ => .expectOr rfl fun operator => ?_
      refine .bind (reads.expr _) fun operand => .pure ?_
      exact Expr.marks_binary left _ operand
  | ternary =>
      rw [readJoining]
      refine .step fun _ => .bind (reads.expr _) fun test => .expect rfl fun _ => ?_
      refine .bind (reads.expr _) fun orelse => .pure ?_
      exact Expr.marks_ternary left test orelse
  | call =>
      rw [readJoining]
      refine .step fun _ => .bind (readArguments_callMarks reads ordered) ?_
      rintro ⟨arguments, keywords⟩
      exact .spanFrom fun _ => .pure (Expr.marks_call left arguments keywords)
  | subscript =>
      rw [readJoining]
      refine .step fun _ => .look fun start => .bind reads.sliceItem fun first => .kind fun _ => ?_
      have closes (index : Expr) {early : List Nat}
          (inside : (left.marks ++ index.marks).Sublist early) :
          Marks tokens early Expr.marks (do
            let _ ← expect .closeBracket
            return .subscript (← spanFrom left.span.start) left index) :=
        .expect rfl fun _ => .spanFrom fun _ =>
          .pure ((Expr.marks_subscript left index).trans inside)
      split
      · refine .bind reads.sliceItems fun others => .spanFrom fun _ => .known (closes _ ?_)
        rw [List.append_assoc]
        exact (List.append_sublist_append_left _).mpr (Expr.marks_sequence .tuple (first :: others))
      · exact .known (closes first (.refl _))
  | member =>
      rw [readJoining]
      refine .step fun _ => .expectOr rfl fun property => .pure ?_
      exact Expr.marks_member left property.value

/-- A `yield` is marked by the token it starts with. -/
theorem readYield_marks : Takes tokens (·.opening? = some .yield) (readOpening (fuel + 1) .yield)
    fun passed _ e => e.marks.Sublist (starts passed) := by
  have kinds : ∀ kind : TokenKind, kind.opening? = some .yield → kind = .yieldKw := by
    intro kind here
    cases kind <;> cases here
    rfl
  rw [readOpening]
  refine Takes.step (fun kind here => by rw [kinds kind here]; decide) fun token here => ?_
  have visible : Lexeme.isLayoutKind token.kind = false := by rw [kinds _ here]; rfl
  simp only [starts_cons_of_visible visible]
  have marked (value : Option Expr) (delegates : Bool) {early : List Nat}
      (found : early = [token.span.start] ++ value.toList.flatMap Expr.marks) :
      Marks tokens early Expr.marks (do
        return .yield (← spanFrom token.span.start) value delegates) := by
    subst found
    exact .spanFrom fun stop => .pure (Expr.marks_yield value delegates)
  -- From here on, the start of the `yield` itself is the only mark that was found before.
  change Marks tokens [token.span.start] Expr.marks _
  refine .eat rfl fun _ => .ite ?_ (.look fun _ => .ite ?_ ?_)
  · exact .bind (reads.expr _) fun value => marked (some value) true (by simp)
  · exact .bind (reads.tuple _) fun value => marked (some value) false (by simp)
  · exact marked none false rfl

/-- What an expression opens with has its marks among the tokens that are gone past. -/
theorem readOpening_marks (form : Opening) :
    Takes tokens (·.opening? = some form) (readOpening (fuel + 1) form)
      fun passed _ e => e.marks.Sublist (starts passed) := by
  have anyway {reader : Parse Expr} (marks : Marks tokens [] Expr.marks reader) :
      Takes tokens (·.opening? = some form) reader
        fun passed _ e => e.marks.Sublist (starts passed) := marks.anywhere
  have single {e : Expr} (plain : e.isYield = false) (alone : e.children = []) :
      e.marks.Sublist [] := by
    rw [Expr.marks_eq_nil plain alone]
  cases form with
  | yield => exact readYield_marks reads
  | number =>
      rw [readOpening]
      exact anyway (.step fun token => .ite (.failAt _ _) (.pure (single rfl rfl)))
  | string =>
      rw [readOpening]
      refine anyway (.step fun first => .takeAll rfl fun others => .spanFrom fun _ => ?_)
      exact .pure (single rfl rfl)
  | identifier =>
      rw [readOpening]
      exact anyway (.step fun token => .pure (single rfl rfl))
  | constant value =>
      rw [readOpening]
      exact anyway (.step fun token => .pure (single rfl rfl))
  | unary level =>
      rw [readOpening]
      refine anyway (.step fun token => .bind (reads.expr level) fun operand => .pure ?_)
      exact Expr.marks_unary token operand
  | star =>
      rw [readOpening]
      refine anyway (.step fun token => .bind (reads.expr _) fun value => .pure ?_)
      exact Expr.marks_starred value _
  | group =>
      rw [readOpening]
      exact anyway reads.group
  | list =>
      rw [readOpening]
      exact anyway reads.listDisplay
  | curly =>
      rw [readOpening]
      exact anyway reads.curly
  | lambda =>
      rw [readOpening]
      refine anyway (.step fun token => ?_)
      refine .past ((retraces tokens fuel).parameters .colon .positional).takes fun parameters => ?_
      refine .expect rfl fun _ => .past (reads.expr _) fun body => ?_
      exact .pure (single rfl rfl)

/-- An expression has its marks in order. -/
theorem readExpr_marks (level : Power) :
    Marks tokens [] Expr.marks (readExpr (fuel + 1) level) := by
  intro cursor e after inside _ ran
  rw [readExpr, get_bind, inside.opening?] at ran
  cases known : cursor.kind.opening? with
  | none =>
      rw [known] at ran
      cases ran
  | some form =>
      rw [known] at ran
      have takes : Takes tokens (·.opening? = some form)
          (readOpening fuel form >>= readJoins fuel level)
          fun passed _ e => e.marks.Sublist (starts passed) := by
        refine Takes.bind (reads.opening form) fun left passed _ found => ?_
        refine (reads.joins level left).anywhere.mono fun later _ e marked => ?_
        rw [starts_append]
        exact marked.trans (found.append (.refl _))
      exact takes cursor e after inside known ran

end Readers

/-- **Source order of `yield` expressions.**  In tokens that start one after another, every
reader of expressions goes past the tokens at which the `yield` expressions of its result
start, in their order. -/
theorem marking (ordered : (starts tokens).Pairwise (· < ·)) (fuel : Nat) :
    Marking tokens fuel := by
  induction fuel with
  | zero =>
      constructor
      all_goals
        intros
        exact Takes.giveUp
  | succ fuel reads =>
      exact {
        expr := readExpr_marks reads
        joins := readJoins_marks reads
        opening := readOpening_marks reads
        joining := readJoining_marks reads ordered
        tuple := readTuple_marks reads
        tupleRest := readTupleRest_marks reads
        clauses := readClauses_marks reads
        conditions := readConditions_marks reads
        elements := readElements_marks reads
        group := readGroup_marks reads
        listDisplay := readListDisplay_marks reads
        curly := readCurly_marks reads
        dict := readDict_marks reads
        entry := readEntry_marks reads
        entries := readEntries_marks reads
        arguments := readArguments_marks reads
        argument := readArgument_marks reads
        moreArguments := readMoreArguments_marks reads
        sliceItem := readSliceItem_marks reads
        slice := readSlice_marks reads
        slicePart := readSlicePart_marks reads
        sliceItems := readSliceItems_marks reads }

end Grammar

end DocSketch
