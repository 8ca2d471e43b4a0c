import DocSketch.Proofs.Grammar.LostParentheses
import DocSketch.Proofs.Grammar.Restoration
import DocSketch.Proofs.Scope.Collection
import DocSketch.Proofs.Token.Steps

/-!
# The text of a node

The text that a node of a program covers, in parentheses, is a program of its own: a single
expression, which is that node.  Its brackets are balanced.  Both fail for a node that starts or
stops with an operand in parentheses, since its span leaves one of them out.

* `Token.overlapping`: the tokens in the text of a span.
* `Program.ofTokens_grouped`: a program that is one expression in parentheses.
* `Source.read_textOf`: the text of a node, in parentheses, is read as that node.
-/

namespace DocSketch

namespace Grammar

open Parse

variable {first : Spelling} {text : List Spelling} {fuel : Nat} {Good : Expr → Prop}

/-- An expression in parentheses at the end of a line. -/
theorem readTuple_line (opens : first.1 = .openParen)
    (reads : Spells (readGroup fuel) (first :: text) (fun _ => True) Good) :
    Spells (readTuple (fuel + 3) .default) (first :: text) (· = .newline) Good := by
  have starts : first.1.opening? = some .group := by rw [opens]; rfl
  have whole : Spells (readExpr (fuel + 2) .default) (first :: text) (· = .newline) Good := by
    have opening : Spells (readOpening (fuel + 1) .group) (first :: text) (· = .newline) Good := by
      rw [readOpening]
      exact reads.mono (fun _ _ => trivial) fun _ good => good
    refine readExpr_spells starts (.last opening fun e good => ?_)
    refine readJoins_ends (Nat.succ_pos fuel) good fun kind ends => ?_
    rw [ends]
    exact .of_none rfl
  rw [readTuple]
  refine .last whole fun e good => .ifNotKind (fun kind ends => ?_) (.pure good)
  rw [lead_nil, ends]
  decide

/-- A newline spells the end of a simple statement. -/
theorem endSimple_newline {newline : Spelling} (ends : newline.1 = .newline) :
    Spells endSimple [newline] (fun _ => True) fun _ => True := by
  have here : Spells kind [] (· = .newline) (· = .newline) := .of_reads_nil .kind
  refine .look here (fun found same => ?_) fun _ _ => ends
  subst same
  exact .step .advance fun _ _ => .pure trivial

/-- A statement that is an expression in parentheses. -/
theorem readStmt_line {newline : Spelling} (opens : first.1 = .openParen)
    (ends : newline.1 = .newline)
    (reads : Spells (readGroup fuel) (first :: text) (fun _ => True) Good) :
    Spells (readStmt (fuel + 4)) (first :: text ++ [newline]) (fun _ => True)
      fun stmt => ∃ span e, stmt = .expression span e ∧ Good e := by
  have head : Spells (readSimpleHead (fuel + 3)) (first :: text) (· = .newline)
      fun stmt => ∃ span e, stmt = .expression span e ∧ Good e := by
    refine .located fun start => .last (readTuple_line opens reads) fun e good => ?_
    have here : Spells kind [] (· = .newline) (· = .newline) := .of_reads_nil .kind
    refine .look here (fun found same => ?_) fun _ ends => ends
    subst same
    exact .pure ⟨_, e, rfl, good⟩
  have simple : Spells (readSimple (fuel + 3)) (first :: text ++ [newline]) (fun _ => True)
      fun stmt => ∃ span e, stmt = .expression span e ∧ Good e :=
    .bind head (fun stmt good => .last (endSimple_newline ends) fun _ _ => .pure good)
      fun _ _ => ends
  intro tokens spelled
  rw [readStmt]
  refine .get fun file previous more stop => ?_
  have none : (standing file previous (tokens ++ more) stop).statement? = none := by
    have kind : ((tokens ++ more).headD stop).kind = .openParen := by
      rw [kind_ahead, kinds_of_spelling spelled]
      exact opens
    change ((tokens ++ more).headD stop).kind.statement? = none
    rw [kind]
    rfl
  rw [none]
  exact simple tokens spelled

/-- A program of a single line, which is an expression in parentheses. -/
theorem readProgram_line {newline : Spelling} (opens : first.1 = .openParen)
    (ends : newline.1 = .newline)
    (reads : Spells (readGroup fuel) (first :: text) (fun _ => True) Good) :
    Spells (readProgram (fuel + 5)) (first :: text ++ [newline]) (· = .eof)
      fun body => ∃ span e, body = [.expression span e] ∧ Good e := by
  have last : Spells (readProgram (fuel + 4)) [] (· = .eof) (· = []) := by
    rw [readProgram]
    have here : Spells kind [] (· = .eof) (· = .eof) := .of_reads_nil .kind
    refine .look here (fun found same => ?_) fun _ ends => ends
    subst same
    exact .pure rfl
  rw [readProgram]
  have here : Spells kind [] (· = .openParen) (· = .openParen) := .of_reads_nil .kind
  refine .look here (fun found same => ?_) fun _ _ => opens
  subst same
  refine .last ((readStmt_line opens ends reads).mono (fun _ _ => trivial) fun _ good => good) ?_
  rintro stmt ⟨span, e, rfl, good⟩
  refine .last last ?_
  rintro others rfl
  exact .pure ⟨span, e, rfl, good⟩

end Grammar

/-- A program that is one expression in parentheses. -/
theorem Program.ofTokens_grouped (file : String) {tokens : List Token} {first newline stop : Token}
    {Good : Expr → Prop} (opens : first.kind = .openParen) (breaks : newline.kind = .newline)
    (ends : stop.kind = .eof)
    (reads : ∀ fuel, 8 * tokens.length + 16 ≤ fuel →
      Parse.Spells (Grammar.readGroup fuel) ((first :: tokens).map Token.spelling)
        (fun _ => True) Good) :
    ∃ program span e, ofTokens file (first :: tokens ++ [newline, stop]) = .ok program ∧
      program.body = [.expression span e] ∧ Good e := by
  have split : first :: tokens ++ [newline, stop] = (first :: tokens ++ [newline]) ++ [stop] := by
    simp only [List.append_assoc, List.cons_append, List.nil_append]
  obtain ⟨fuel, enough, deep⟩ : ∃ fuel, 8 * tokens.length + 16 ≤ fuel ∧
      (Cursor.before file false (first :: tokens ++ [newline]) stop).budget = fuel + 5 := by
    refine ⟨16 * (tokens.length + 3) - 5, by omega, ?_⟩
    simp only [Cursor.budget, Cursor.before, List.length_append, List.length_cons,
      List.length_nil]
    omega
  have line : Parse.Spells (Grammar.readProgram (fuel + 5))
      ((first :: tokens).map Token.spelling ++ [newline.spelling]) (· = .eof)
      fun body => ∃ span e, body = [.expression span e] ∧ Good e :=
    Grammar.readProgram_line opens breaks (reads fuel enough)
  obtain ⟨body, last, read, span, e, same, good⟩ :=
    line (first :: tokens ++ [newline]) List.map_append file first [] stop ends
  refine ⟨⟨body, ⟨0, stop.span.start⟩⟩, span, e, ?_, same, good⟩
  have ran : Parse.program (Cursor.before file false (first :: tokens ++ [newline]) stop) =
      .ok ⟨body, ⟨0, stop.span.start⟩⟩ (Parse.standing file last [] stop) := by
    rw [List.append_nil] at read
    change EStateM.bind (Grammar.readProgram (Cursor.budget _)) _ _ = _
    have started : Cursor.before file false (first :: tokens ++ [newline]) stop =
        Parse.standing file first (first :: tokens ++ [newline]) stop := rfl
    rw [deep, EStateM.bind, started, read]
    rfl
  rw [split, ofTokens, Cursor.ofTokens_concat file false ends, ran]

namespace Token

open Lexeme Text Grammar

variable {offset : Nat} {chars after : List Char} {tokens front inner back : List Token}
  {span : Span}

/-- The tokens in the text of a span. -/
def overlapping (span : Span) (tokens : List Token) : List Token :=
  tokens.filter fun token => token.span.start < span.stop ∧ span.start < token.span.stop

/-- A text with a character has a positive length. -/
theorem byteLength_pos (nonempty : chars ≠ []) : 0 < byteLength chars := by
  cases chars with
  | nil => exact absurd rfl nonempty
  | cons c chars => exact Nat.add_pos_left c.utf8Size_pos _

/-- The tokens of a stretch lie in it, and none is empty. -/
theorem Lexed.inside (lexed : Lexed after offset chars tokens) :
    ∀ token ∈ tokens, offset ≤ token.span.start ∧ token.span.start < token.span.stop ∧
      token.span.stop ≤ offset + byteLength chars := by
  induction lexed with
  | nil => exact List.forall_mem_nil _
  | skip found absent goesOn others ih =>
      intro token member
      obtain ⟨starts, wide, stops⟩ := ih token member
      rw [byteLength_append]
      omega
  | @token offset chars rest cls kind tokens found known others ih =>
      have wide : 0 < byteLength chars :=
        byteLength_pos (List.ne_nil_of_length_pos (pos_of_next? found))
      rw [byteLength_append]
      refine List.forall_mem_cons.mpr ⟨?_, fun token member => ?_⟩
      · change offset ≤ offset ∧ offset < offset + _ ∧ offset + _ ≤ _
        omega
      · obtain ⟨starts, wide, stops⟩ := ih token member
        omega

/-- The stretch of a text that a span covers with the tokens that it starts and stops with. -/
theorem scan_stretch {text file : String}
    (scanned : scan text file = .ok (front ++ (inner ++ back)))
    (plain : ∀ token ∈ inner, isLayoutKind token.kind = false) (outlines : Outlines span inner) :
    ∃ before own after, text.toList = before ++ (own ++ after) ∧
      span = ⟨byteLength before, byteLength before + byteLength own⟩ ∧
      Lexed after (byteLength before) own inner := by
  obtain ⟨added, whole, traced⟩ := Layout.scanFrom_traced Layout.initial 0 text.toList scanned
  cases inner with
  | nil => exact absurd rfl outlines.ne_nil
  | cons first inner =>
      rw [show added = front ++ (first :: inner ++ back) from whole.symm] at traced
      obtain ⟨before, own, after, split, starts, lexed⟩ := traced.stretch plain
      rw [Nat.zero_add] at starts lexed
      refine ⟨before, own, after, split, ?_, lexed⟩
      obtain ⟨last, isLast, stops⟩ := Option.map_eq_some_iff.mp outlines.stops
      obtain ⟨start, stop⟩ := span
      have begins : first.span.start = start := Option.some.inj outlines.starts
      have ends : last.span.stop = stop := stops
      rw [← begins, ← ends, lexed.getLast? last isLast, starts]

/-- The tokens of a text stand one behind the other. -/
theorem scan_row {text file : String} (scanned : scan text file = .ok tokens) : Row tokens := by
  refine ⟨?_, fun token member visible => ?_⟩
  · obtain ⟨added, rfl, tiles⟩ := Layout.scanFrom_tiles Layout.initial 0 text.toList scanned
    exact tiles.tiling.ordered
  · obtain ⟨front, back, rfl⟩ := List.append_of_mem member
    have alone : Outlines token.span [token] := ⟨rfl, rfl⟩
    have plain : ∀ one ∈ [token], isLayoutKind one.kind = false :=
      List.forall_mem_singleton.mpr visible
    obtain ⟨before, own, after, -, -, lexed⟩ := scan_stretch scanned plain alone
    exact (lexed.inside token (List.mem_singleton_self token)).2.1

/-- A span overlaps with exactly the tokens that it covers. -/
theorem overlapping_eq
    (ordered : (front ++ (inner ++ back)).Pairwise fun early late =>
      early.span.stop ≤ late.span.start)
    (outlines : Outlines span inner)
    (inside : ∀ token ∈ inner, span.start ≤ token.span.start ∧
      token.span.start < token.span.stop ∧ token.span.stop ≤ span.stop) :
    overlapping span (front ++ (inner ++ back)) = inner := by
  obtain ⟨first, isFirst, starts⟩ := Option.map_eq_some_iff.mp outlines.starts
  obtain ⟨last, isLast, stops⟩ := Option.map_eq_some_iff.mp outlines.stops
  obtain ⟨-, later, earlier⟩ := List.pairwise_append.mp ordered
  obtain ⟨-, -, later⟩ := List.pairwise_append.mp later
  have before : overlapping span front = [] := by
    refine List.filter_eq_nil_iff.mpr fun token member => ?_
    have ends := earlier token member first
      (List.mem_append_left back (List.mem_of_mem_head? isFirst))
    rw [decide_eq_true_eq]
    omega
  have behind : overlapping span back = [] := by
    refine List.filter_eq_nil_iff.mpr fun token member => ?_
    have begins := later last (List.mem_of_mem_getLast? isLast) token member
    rw [decide_eq_true_eq]
    omega
  have within : overlapping span inner = inner := by
    refine List.filter_eq_self.mpr fun token member => ?_
    have lies := inside token member
    rw [decide_eq_true_eq]
    omega
  unfold overlapping at before behind within ⊢
  rw [List.filter_append, List.filter_append, before, behind, within, List.nil_append,
    List.append_nil]

end Token

namespace Source

open Grammar

variable {text file : String} {source : Source} {tokens : List Token} {e : Expr}

/-- Where the brackets in a span are balanced, it leaves no parenthesis out. -/
theorem whole_of_balanced (scanned : Token.scan text file = .ok tokens)
    (front inner back : List Token) (whole : tokens = front ++ (inner ++ back))
    (outlines : Outlines e.span inner)
    (plain : ∀ token ∈ inner, Lexeme.isLayoutKind token.kind = false)
    (balanced : Token.Balanced inner) : ¬LosesOpening tokens e ∧ ¬LosesClosing tokens e :=
  have row := Token.scan_row scanned
  ⟨fun loses => loses.unbalanced row whole outlines plain balanced,
    fun loses => loses.unbalanced row whole outlines plain balanced⟩

/-- The text that a node covers, with its tokens. -/
theorem lexed_textOf (accepted : read text file = .ok source)
    (scanned : Token.scan text file = .ok tokens) (has : source.program.HasNode e)
    (unsliced : e.isSliced = false) :
    ∃ own after start inner, source.textOf e.span = String.ofList own ∧
      Token.overlapping e.span tokens = inner ∧ Token.Lexed after start own inner ∧
      (Token.Balanced inner → ¬LosesOpening tokens e ∧ ¬LosesClosing tokens e) ∧
      (¬LosesOpening tokens e → ¬LosesClosing tokens e → Regroups inner e) := by
  obtain ⟨found, program, lexed, parsed, rfl⟩ := eq_ofProgram_of_read accepted
  cases scanned.symm.trans lexed
  have row := Token.scan_row scanned
  obtain ⟨added, rfl, tiles⟩ := Layout.scanFrom_tiles Layout.initial 0 text.toList scanned
  obtain ⟨body, rfl⟩ := List.getLast?_eq_some_iff.mp tiles.tiling.ended
  obtain ⟨front, inner, back, rfl, outlines, plain, regroups⟩ :=
    Program.restored_of_hasNode rfl parsed has unsliced
  simp only [List.append_assoc] at scanned row ⊢
  obtain ⟨before, own, after, here, spans, lexed⟩ := Token.scan_stretch scanned plain outlines
  refine ⟨own, after, _, inner, ?_, ?_, lexed,
    whole_of_balanced scanned _ _ _ rfl outlines plain, fun opened closed => regroups ?_ ?_⟩
  · change String.ofList ((Text.slice? e.span text.toList).getD []) = _
    rw [spans, here, ← List.append_assoc, Text.slice?_append]
    rfl
  · refine Token.overlapping_eq row.ordered outlines ?_
    rw [spans]
    exact lexed.inside
  · intro loses
    have more := loses.within [] [.layout .eof (Text.byteLength text.toList)]
    simp only [List.nil_append, List.append_assoc] at more
    exact opened more
  · intro loses
    have more := loses.within [] [.layout .eof (Text.byteLength text.toList)]
    simp only [List.nil_append, List.append_assoc] at more
    exact closed more

/-- A stretch of a text, in parentheses, is a program of one expression. -/
theorem read_parenthesised {Good : Expr → Prop} {own after : List Char} {start : Nat}
    {inner : List Token} (lexed : Token.Lexed after start own inner)
    (balanced : Token.Balanced inner)
    (reads : ∀ fuel, 8 * inner.length + 16 ≤ fuel →
      Parse.Spells (Grammar.readGroup fuel) (grouped (inner.map Token.spelling)) (fun _ => True)
        Good) (file : String) :
    ∃ source span e, read ("(" ++ String.ofList own ++ ")") file = .ok source ∧
      source.program.body = [.expression span e] ∧ Good e := by
  have written : "(" ++ String.ofList own ++ ")" = String.ofList ('(' :: (own ++ [')'])) := by
    rw [String.ofList_cons, String.ofList_append]
    rfl
  obtain ⟨first, found, last, newline, stop, scanned, opens, spelled, closes, breaks, ends⟩ :=
    Token.scan_parenthesised file lexed balanced
  have regrouped : (first :: (found ++ [last])).map Token.spelling =
      grouped (inner.map Token.spelling) := by
    rw [List.map_cons, List.map_append, List.map_singleton, opens, spelled, closes]
    rfl
  have long : found.length = inner.length := by
    simpa only [List.length_map] using congrArg List.length spelled
  have again : ∀ fuel, 8 * (found ++ [last]).length + 16 ≤ fuel →
      Parse.Spells (Grammar.readGroup fuel) ((first :: (found ++ [last])).map Token.spelling)
        (fun _ => True) Good := by
    intro fuel enough
    rw [List.length_append, long] at enough
    rw [regrouped]
    exact reads fuel (by omega)
  obtain ⟨program, span, e, parsed, single, good⟩ :=
    Program.ofTokens_grouped file (congrArg Prod.fst opens) breaks ends again
  rw [List.cons_append, List.append_assoc] at parsed
  rw [written]
  exact ⟨_, span, e, read_of_scan scanned parsed, single, good⟩

/-- The call `g(a, (b + c) * d)`, with a line break inside. -/
def brokenCall : Expr :=
  .call ⟨4, 23⟩ (.symbol ⟨4, 5⟩ "g")
    [.symbol ⟨6, 7⟩ "a",
      .binary ⟨12, 22⟩
        (.binary ⟨12, 17⟩ (.symbol ⟨12, 13⟩ "b") ⟨.plus, "+", ⟨14, 15⟩⟩ (.symbol ⟨16, 17⟩ "c"))
        ⟨.star, "*", ⟨19, 20⟩⟩ (.symbol ⟨21, 22⟩ "d")] []

def brokenLine : Source :=
  .ofProgram "x = g(a,\n  (b + c) * d)\n" "m.py"
    ⟨[.assign ⟨0, 23⟩ [.symbol ⟨0, 1⟩ "x"] (some brokenCall) none], ⟨0, 24⟩⟩

def brokenTokens : List Token :=
  [⟨.identifier, "x", ⟨0, 1⟩⟩, ⟨.assignment, "=", ⟨2, 3⟩⟩, ⟨.identifier, "g", ⟨4, 5⟩⟩,
    ⟨.openParen, "(", ⟨5, 6⟩⟩, ⟨.identifier, "a", ⟨6, 7⟩⟩, ⟨.comma, ",", ⟨7, 8⟩⟩,
    ⟨.openParen, "(", ⟨11, 12⟩⟩, ⟨.identifier, "b", ⟨12, 13⟩⟩, ⟨.plus, "+", ⟨14, 15⟩⟩,
    ⟨.identifier, "c", ⟨16, 17⟩⟩, ⟨.closeParen, ")", ⟨17, 18⟩⟩, ⟨.star, "*", ⟨19, 20⟩⟩,
    ⟨.identifier, "d", ⟨21, 22⟩⟩, ⟨.closeParen, ")", ⟨22, 23⟩⟩, ⟨.newline, "\n", ⟨23, 24⟩⟩,
    ⟨.eof, "", ⟨24, 24⟩⟩]

/-- **The text of a node is that node.** Its brackets are balanced, and in parentheses it is read
as a single expression, the same up to places, exactly if the node neither starts nor stops with
an operand in parentheses. -/
theorem read_textOf (accepted : read text file = .ok source)
    (scanned : Token.scan text file = .ok tokens) (has : source.program.HasNode e)
    (unsliced : e.isSliced = false) (other : String) :
    (Token.Balanced (Token.overlapping e.span tokens) ∧
        ∃ again span same, read ("(" ++ source.textOf e.span ++ ")") other = .ok again ∧
          again.program.body = [.expression span same] ∧ same.unspanned = e.unspanned) ↔
      ¬LosesOpening tokens e ∧ ¬LosesClosing tokens e := by
  obtain ⟨own, after, start, inner, excerpt, rfl, lexed, complete, regroups⟩ :=
    lexed_textOf accepted scanned has unsliced
  refine ⟨fun ⟨balanced, _⟩ => complete balanced, fun ⟨opened, closed⟩ => ?_⟩
  have again := regroups opened closed
  rw [excerpt]
  exact ⟨again.balanced, read_parenthesised lexed again.balanced again.reads other⟩

/-- A call over two lines with a parenthesised operand inside is read again from its text. -/
theorem read_textOf_brokenLine :
    read "x = g(a,\n  (b + c) * d)\n" "m.py" = .ok brokenLine ∧
      brokenLine.textOf brokenCall.span = "g(a,\n  (b + c) * d)" ∧
      ∃ again span same, read "(g(a,\n  (b + c) * d))" "n.py" = .ok again ∧
        again.program.body = [.expression span same] ∧
        same.unspanned = brokenCall.unspanned := by
  have steps : Layout.scanWithin 40 .initial "m.py" 0 "x = g(a,\n  (b + c) * d)\n".toList =
      some (.ok brokenTokens) := by
    with_unfolding_all rfl
  have accepted : read "x = g(a,\n  (b + c) * d)\n" "m.py" = .ok brokenLine :=
    read_of_steps 40 steps (by with_unfolding_all rfl)
  have has : brokenLine.program.HasNode brokenCall :=
    .top (.top List.mem_cons_self) (by simp [Stmt.expressions])
  have own : brokenLine.textOf brokenCall.span = "g(a,\n  (b + c) * d)" := by decide
  refine ⟨accepted, own, ?_⟩
  have scanned : Token.scan "x = g(a,\n  (b + c) * d)\n" "m.py" = .ok brokenTokens :=
    Layout.scanFrom_of_scanWithin steps
  have whole : ¬LosesOpening brokenTokens brokenCall ∧ ¬LosesClosing brokenTokens brokenCall :=
    whole_of_balanced scanned (brokenTokens.take 2) ((brokenTokens.drop 2).take 12)
      (brokenTokens.drop 14) rfl ⟨rfl, rfl⟩ (by decide) (by decide)
  obtain ⟨-, again⟩ := (read_textOf accepted scanned has rfl "n.py").mpr whole
  rw [own] at again
  exact again

/-- The index of `x[a:b, c]`. -/
def slicedIndex : Expr :=
  .sequence ⟨2, 8⟩ .tuple
    [.slice ⟨2, 5⟩ (some (.symbol ⟨2, 3⟩ "a")) (some (.symbol ⟨4, 5⟩ "b")) none,
      .symbol ⟨7, 8⟩ "c"]

def slicedSubscript : Source :=
  .ofProgram "x[a:b, c]" "m.py"
    ⟨[.expression ⟨0, 9⟩ (.subscript ⟨0, 9⟩ (.symbol ⟨0, 1⟩ "x") slicedIndex)], ⟨0, 9⟩⟩

def slicedTokens : List Token :=
  [⟨.identifier, "x", ⟨0, 1⟩⟩, ⟨.openBracket, "[", ⟨1, 2⟩⟩, ⟨.identifier, "a", ⟨2, 3⟩⟩,
    ⟨.colon, ":", ⟨3, 4⟩⟩, ⟨.identifier, "b", ⟨4, 5⟩⟩, ⟨.comma, ",", ⟨5, 6⟩⟩,
    ⟨.identifier, "c", ⟨7, 8⟩⟩, ⟨.closeBracket, "]", ⟨8, 9⟩⟩, ⟨.newline, "", ⟨9, 9⟩⟩,
    ⟨.eof, "", ⟨9, 9⟩⟩]

/-- The tokens of `x[a:b, c]`. -/
theorem slicedTokens_steps :
    Layout.scanWithin 20 .initial "m.py" 0 "x[a:b, c]".toList = some (.ok slicedTokens) := by
  with_unfolding_all rfl

theorem read_slicedSubscript : read "x[a:b, c]" "m.py" = .ok slicedSubscript :=
  read_of_steps 20 slicedTokens_steps (by with_unfolding_all rfl)

theorem read_slicedIndex_ne : read "(a:b, c)" "m.py" ≠ .ok source := by
  have steps : Layout.scanWithin 20 .initial "m.py" 0 "(a:b, c)".toList =
      some (.ok [⟨.openParen, "(", ⟨0, 1⟩⟩, ⟨.identifier, "a", ⟨1, 2⟩⟩, ⟨.colon, ":", ⟨2, 3⟩⟩,
        ⟨.identifier, "b", ⟨3, 4⟩⟩, ⟨.comma, ",", ⟨4, 5⟩⟩, ⟨.identifier, "c", ⟨6, 7⟩⟩,
        ⟨.closeParen, ")", ⟨7, 8⟩⟩, ⟨.newline, "", ⟨8, 8⟩⟩, ⟨.eof, "", ⟨8, 8⟩⟩]) := by
    with_unfolding_all rfl
  exact read_ne_of_steps 20 steps (by with_unfolding_all rfl)

/-- The product `(a + b) * c`, whose span starts inside the parentheses. -/
def trimmedProduct : Expr :=
  .binary ⟨1, 11⟩
    (.binary ⟨1, 6⟩ (.symbol ⟨1, 2⟩ "a") ⟨.plus, "+", ⟨3, 4⟩⟩ (.symbol ⟨5, 6⟩ "b"))
    ⟨.star, "*", ⟨8, 9⟩⟩ (.symbol ⟨10, 11⟩ "c")

def trimmedLine : Source :=
  .ofProgram "(a + b) * c" "m.py" ⟨[.expression ⟨1, 11⟩ trimmedProduct], ⟨0, 11⟩⟩

theorem read_trimmedLine : read "(a + b) * c" "m.py" = .ok trimmedLine := by
  have steps : Layout.scanWithin 20 .initial "m.py" 0 "(a + b) * c".toList =
      some (.ok [⟨.openParen, "(", ⟨0, 1⟩⟩, ⟨.identifier, "a", ⟨1, 2⟩⟩, ⟨.plus, "+", ⟨3, 4⟩⟩,
        ⟨.identifier, "b", ⟨5, 6⟩⟩, ⟨.closeParen, ")", ⟨6, 7⟩⟩, ⟨.star, "*", ⟨8, 9⟩⟩,
        ⟨.identifier, "c", ⟨10, 11⟩⟩, ⟨.newline, "", ⟨11, 11⟩⟩, ⟨.eof, "", ⟨11, 11⟩⟩]) := by
    with_unfolding_all rfl
  exact read_of_steps 20 steps (by with_unfolding_all rfl)

theorem read_trimmedProduct_ne : read "(a + b) * c)" "m.py" ≠ .ok source := by
  have steps : Layout.scanWithin 20 .initial "m.py" 0 "(a + b) * c)".toList =
      some (.ok [⟨.openParen, "(", ⟨0, 1⟩⟩, ⟨.identifier, "a", ⟨1, 2⟩⟩, ⟨.plus, "+", ⟨3, 4⟩⟩,
        ⟨.identifier, "b", ⟨5, 6⟩⟩, ⟨.closeParen, ")", ⟨6, 7⟩⟩, ⟨.star, "*", ⟨8, 9⟩⟩,
        ⟨.identifier, "c", ⟨10, 11⟩⟩, ⟨.closeParen, ")", ⟨11, 12⟩⟩, ⟨.newline, "", ⟨12, 12⟩⟩,
        ⟨.eof, "", ⟨12, 12⟩⟩]) := by
    with_unfolding_all rfl
  exact read_ne_of_steps 20 steps (by with_unfolding_all rfl)

/-- Neither condition can be left out.  Between parentheses, a slice has no meaning; and where
a node starts with an operand in parentheses, its span leaves the opening one out. -/
theorem textOf_not_read :
    (¬∀ (text file : String) (source : Source) (tokens : List Token) (e : Expr),
      read text file = .ok source → Token.scan text file = .ok tokens →
        source.program.HasNode e → e.isSlice = false →
          ¬LosesOpening tokens e → ¬LosesClosing tokens e →
            ∃ again span same, read ("(" ++ source.textOf e.span ++ ")") file = .ok again ∧
              again.program.body = [.expression span same] ∧ same.unspanned = e.unspanned) ∧
    ¬∀ (text file : String) (source : Source) (e : Expr), read text file = .ok source →
      source.program.HasNode e → e.isSliced = false →
        ∃ again span same, read ("(" ++ source.textOf e.span ++ ")") file = .ok again ∧
          again.program.body = [.expression span same] ∧ same.unspanned = e.unspanned := by
  refine ⟨fun claim => ?_, fun claim => ?_⟩
  · have has : slicedSubscript.program.HasNode slicedIndex :=
      .part (.top (.top List.mem_cons_self) List.mem_cons_self)
        (List.mem_cons_of_mem _ List.mem_cons_self)
    have own : slicedSubscript.textOf slicedIndex.span = "a:b, c" := by decide
    have scanned : Token.scan "x[a:b, c]" "m.py" = .ok slicedTokens :=
      Layout.scanFrom_of_scanWithin slicedTokens_steps
    obtain ⟨opened, closed⟩ : ¬LosesOpening slicedTokens slicedIndex ∧
        ¬LosesClosing slicedTokens slicedIndex :=
      whole_of_balanced scanned (slicedTokens.take 2) ((slicedTokens.drop 2).take 5)
        (slicedTokens.drop 7) rfl ⟨rfl, rfl⟩ (by decide) (by decide)
    obtain ⟨again, span, same, read, -⟩ := claim _ _ _ _ _ read_slicedSubscript scanned has rfl
      opened closed
    rw [own] at read
    exact read_slicedIndex_ne read
  · have has : trimmedLine.program.HasNode trimmedProduct :=
      .top (.top List.mem_cons_self) List.mem_cons_self
    have own : trimmedLine.textOf trimmedProduct.span = "a + b) * c" := by decide
    obtain ⟨again, span, same, read, -⟩ := claim _ _ _ _ read_trimmedLine has rfl
    rw [own] at read
    exact read_trimmedProduct_ne read

end Source

end DocSketch
