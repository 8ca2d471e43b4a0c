import DocSketch.Proofs.Grammar.StatementEdges
import DocSketch.Proofs.Scope.Hierarchy
import DocSketch.Proofs.Source.NodeText
import Mathlib.Logic.Relation

/-!
# Spans of nodes and statements

The spans of an accepted text start and stop with its tokens, so they cut it between characters
and their text is always there.  They nest as the tree does, and the statements of a body stand
one behind the other.

* `Token.cut_of_edged`: what a span that starts and stops with tokens covers.
* `Source.Spanned`: all that is said about the spans of a source.
* `Source.read_spanned`: it holds of every accepted text.
-/

namespace DocSketch

namespace Token

open Text

variable {text : String} {tokens : List Token} {span : Span}

/-- The characters up to a place in a text are among those up to a later one. -/
theorem prefix_of_le {front back front' back' : List Char} (same : front ++ back = front' ++ back')
    (le : byteLength front ≤ byteLength front') : ∃ own, front' = front ++ own := by
  rcases List.append_eq_append_iff.mp same with ⟨own, longer, -⟩ | ⟨own, longer, -⟩
  · exact ⟨own, longer⟩
  · by_cases empty : own = []
    · subst empty
      exact ⟨[], by rw [longer, List.append_nil, List.append_nil]⟩
    · have wide := byteLength_pos empty
      rw [longer, byteLength_append] at le
      omega

/-- Where a token starts or stops, the text can be cut. -/
theorem scan_cuts {file : String} (scanned : scan text file = .ok tokens) :
    ∀ token ∈ tokens,
      (∃ front back, text.toList = front ++ back ∧ byteLength front = token.span.start) ∧
        ∃ front back, text.toList = front ++ back ∧ byteLength front = token.span.stop := by
  intro token member
  obtain ⟨added, same, tiles⟩ := Layout.scanFrom_tiles Layout.initial 0 text.toList scanned
  have all : tokens = added := same
  obtain ⟨early, late, split⟩ := List.append_of_mem (all ▸ member)
  obtain ⟨before, own, after, whole, starts, stops, -⟩ := tiles.locate split
  refine ⟨⟨before, own ++ after, whole, ?_⟩, before ++ own, after, ?_, ?_⟩
  · rw [starts, Nat.zero_add]
  · rw [whole, List.append_assoc]
  · rw [stops, starts, byteLength_append, Nat.zero_add]

/-- A span that starts and stops with tokens covers whole characters. -/
theorem cut_of_edged {file : String} (scanned : scan text file = .ok tokens)
    (edged : span.Edged tokens) (ordered : span.start ≤ span.stop) :
    ∃ front own back, text.toList = front ++ (own ++ back) ∧
      span = ⟨byteLength front, byteLength front + byteLength own⟩ := by
  obtain ⟨⟨first, listed, starts⟩, last, listed', stops⟩ := edged
  obtain ⟨⟨front, back, whole, begins⟩, -⟩ := scan_cuts scanned first listed
  obtain ⟨-, front', back', whole', ends⟩ := scan_cuts scanned last listed'
  rw [starts] at begins
  rw [stops] at ends
  obtain ⟨own, rfl⟩ := prefix_of_le (whole.symm.trans whole') (begins ▸ ends ▸ ordered)
  refine ⟨front, own, back', by rw [whole', List.append_assoc], ?_⟩
  rw [← byteLength_append, begins, ends]

end Token

namespace Stmt

variable {lo hi : Nat} {stmts : List Stmt} {stmt outer : Stmt}

/-- A statement stands inside another one, at any depth. -/
def Nests : Stmt → Stmt → Prop := Relation.TransGen fun outer stmt => stmt ∈ outer.inner

/-- Statements stop before the next ones start. -/
abbrev InOrder (body : List Stmt) : Prop :=
  body.Pairwise fun first second => first.span.stop ≤ second.span.start

namespace Settled

/-- Of settled statements, each is inside the bounds and is settled inside its own span. -/
theorem of_mem (settled : Settled lo stmts hi) (member : stmt ∈ stmts) :
    lo ≤ stmt.span.start ∧ Settled stmt.span.start stmt.inner stmt.span.stop ∧
      stmt.span.stop ≤ hi := by
  induction settled with
  | nil => cases member
  | cons after inner others _ ih =>
      rcases List.mem_cons.mp member with rfl | member
      · exact ⟨after, inner, others.le⟩
      · obtain ⟨lower, own, upper⟩ := ih member
        exact ⟨after.trans (inner.le.trans lower), own, upper⟩

/-- A statement inside of a settled one has its span inside. -/
theorem inside (settled : Settled outer.span.start outer.inner outer.span.stop)
    (member : stmt ∈ outer.inner) : stmt.span.Inside outer.span := by
  obtain ⟨starts, own, stops⟩ := settled.of_mem member
  exact ⟨starts, own.le, stops⟩

/-- Settled statements stand in order. -/
theorem inOrder (settled : Settled lo stmts hi) : InOrder stmts := by
  induction settled with
  | nil => exact .nil
  | cons after inner others _ ih =>
      exact .cons (fun later member => (others.of_mem member).1) ih

end Settled

end Stmt

theorem Span.Inside.trans {inner middle outer : Span} (first : inner.Inside middle)
    (second : middle.Inside outer) : inner.Inside outer :=
  ⟨second.starts.trans first.starts, first.ordered, first.stops.trans second.stops⟩

namespace Source

variable {text file : String} {source : Source} {tokens : List Token}

/-- A span that starts and stops with tokens, and whose text is that between its ends. -/
structure Covers (source : Source) (tokens : List Token) (span : Span) : Prop
    extends span.Edged tokens where
  ordered : span.start ≤ span.stop
  bounded : span.stop ≤ Text.byteLength source.text.toList
  read : ∃ front own back, source.text.toList = front ++ (own ++ back) ∧
    span = ⟨Text.byteLength front, Text.byteLength front + Text.byteLength own⟩ ∧
    source.textOf span = String.ofList own

/-- The spans of a source with the given tokens. -/
structure Spanned (source : Source) (tokens : List Token) : Prop where
  nodes : ∀ e, source.program.HasNode e → source.Covers tokens e.span
  /-- Direct sub-expressions, what a lambda holds included. -/
  parts : ∀ e, source.program.HasNode e → ∀ part ∈ e.parts, part.span.Inside e.span
  statements : ∀ stmt, source.program.HasStmt stmt → source.Covers tokens stmt.span
  nested : ∀ outer stmt, source.program.HasStmt outer → outer.Nests stmt →
    stmt.span.Inside outer.span
  topmost : Stmt.InOrder source.program.body
  bodies : ∀ outer, source.program.HasStmt outer → ∀ body ∈ outer.suites, Stmt.InOrder body

/-- A span from the edge of a token to the edge of another one covers whole tokens. -/
theorem covers_of_edged (same : source.text = text) (scanned : Token.scan text file = .ok tokens)
    {span : Span} (edged : span.Edged tokens) (ordered : span.start ≤ span.stop) :
    source.Covers tokens span := by
  obtain ⟨front, own, back, whole, cut⟩ := Token.cut_of_edged scanned edged ordered
  refine ⟨edged, ordered, ?_, front, own, back, same ▸ whole, cut, ?_⟩
  · rw [same, whole, cut, Text.byteLength_append, Text.byteLength_append]
    dsimp only
    omega
  · rw [textOf, same, whole, cut, ← List.append_assoc, Text.slice?_append]
    rfl

/-- Every statement of an accepted text encloses those inside it. -/
theorem settled_of_hasStmt (accepted : read text file = .ok source) {stmt : Stmt}
    (has : source.program.HasStmt stmt) :
    Stmt.Settled stmt.span.start stmt.inner stmt.span.stop := by
  induction has with
  | top member => exact ((statements_settled accepted).of_mem member).2.1
  | inner has member ih => exact (ih.of_mem member).2.1

/-- A statement nested in another one has its span inside. -/
theorem inside_of_nests (accepted : read text file = .ok source) {outer stmt : Stmt}
    (has : source.program.HasStmt outer) (nests : outer.Nests stmt) :
    stmt.span.Inside outer.span := by
  induction nests using Relation.TransGen.head_induction_on with
  | single direct => exact (settled_of_hasStmt accepted has).inside direct
  | head direct _ ih =>
      exact (ih (has.inner direct)).trans ((settled_of_hasStmt accepted has).inside direct)

/-- **The spans of an accepted text start and stop with its tokens and nest as its tree does.** -/
theorem read_spanned (accepted : read text file = .ok source)
    (scanned : Token.scan text file = .ok tokens) : source.Spanned tokens := by
  have settled : ∀ stmt, source.program.HasStmt stmt →
      Stmt.Settled stmt.span.start stmt.inner stmt.span.stop :=
    fun _ => settled_of_hasStmt accepted
  have nested : ∀ outer stmt, source.program.HasStmt outer → outer.Nests stmt →
      stmt.span.Inside outer.span := fun _ _ => inside_of_nests accepted
  have topmost := (statements_settled accepted).inOrder
  obtain ⟨found, program, lexed, parsed, rfl⟩ := eq_ofProgram_of_read accepted
  cases scanned.symm.trans lexed
  obtain ⟨body, stop, rfl, ends, -⟩ := Token.scan_nested scanned
  have spread := Token.scan_spread scanned
  refine ⟨?_, ?_, ?_, nested, topmost, ?_⟩
  · intro e has
    have framed := Program.framed_of_hasNode ends spread parsed has
    exact covers_of_edged rfl scanned framed.edged framed.ordered
  · intro e has part member
    have framed := Program.framed_of_hasNode ends spread parsed has
    obtain ⟨starts, stops⟩ := framed.encloses part member
    exact ⟨starts, (Program.framed_of_hasNode ends spread parsed (has.part member)).ordered, stops⟩
  · intro stmt has
    have edged := Program.edged_of_hasStmt ends spread parsed has
    exact covers_of_edged rfl scanned edged (settled stmt has).le
  · intro outer has body member
    have inner := (settled outer has).inOrder
    rw [outer.inner_eq_flatten] at inner
    exact inner.sublist (List.sublist_flatten_of_mem member)

/-- A function of two statements on its own line, with a slice and a lambda. -/
def shortFunction : Source :=
  .ofProgram "def f(): x[a:] = lambda: (a); g()" "m.py"
    ⟨[.function ⟨0, 33⟩ "f" ⟨[], none⟩
      [.assign ⟨9, 28⟩
          [.subscript ⟨9, 14⟩ (.symbol ⟨9, 10⟩ "x")
            (.slice ⟨11, 13⟩ (some (.symbol ⟨11, 12⟩ "a")) none none)]
          (some (.lambda ⟨17, 27⟩ [] (.symbol ⟨26, 27⟩ "a"))) none,
        .expression ⟨30, 33⟩ (.call ⟨30, 33⟩ (.symbol ⟨30, 31⟩ "g") [] [])] [] false],
      ⟨0, 33⟩⟩

def shortFunctionTokens : List Token :=
  [⟨.defKw, "def", ⟨0, 3⟩⟩, ⟨.identifier, "f", ⟨4, 5⟩⟩, ⟨.openParen, "(", ⟨5, 6⟩⟩,
    ⟨.closeParen, ")", ⟨6, 7⟩⟩, ⟨.colon, ":", ⟨7, 8⟩⟩, ⟨.identifier, "x", ⟨9, 10⟩⟩,
    ⟨.openBracket, "[", ⟨10, 11⟩⟩, ⟨.identifier, "a", ⟨11, 12⟩⟩, ⟨.colon, ":", ⟨12, 13⟩⟩,
    ⟨.closeBracket, "]", ⟨13, 14⟩⟩, ⟨.assignment, "=", ⟨15, 16⟩⟩,
    ⟨.lambdaKw, "lambda", ⟨17, 23⟩⟩, ⟨.colon, ":", ⟨23, 24⟩⟩, ⟨.openParen, "(", ⟨25, 26⟩⟩,
    ⟨.identifier, "a", ⟨26, 27⟩⟩, ⟨.closeParen, ")", ⟨27, 28⟩⟩, ⟨.semicolon, ";", ⟨28, 29⟩⟩,
    ⟨.identifier, "g", ⟨30, 31⟩⟩, ⟨.openParen, "(", ⟨31, 32⟩⟩, ⟨.closeParen, ")", ⟨32, 33⟩⟩,
    ⟨.newline, "", ⟨33, 33⟩⟩, ⟨.eof, "", ⟨33, 33⟩⟩]

/-- The spans of a function on one line, with a slice and a lambda. -/
theorem read_spanned_shortFunction :
    read "def f(): x[a:] = lambda: (a); g()" "m.py" = .ok shortFunction ∧
      Token.scan "def f(): x[a:] = lambda: (a); g()" "m.py" = .ok shortFunctionTokens ∧
      shortFunction.textOf ⟨11, 13⟩ = "a:" ∧ shortFunction.Spanned shortFunctionTokens := by
  have steps : Layout.scanWithin 40 .initial "m.py" 0 "def f(): x[a:] = lambda: (a); g()".toList =
      some (.ok shortFunctionTokens) := by
    with_unfolding_all rfl
  have scanned : Token.scan "def f(): x[a:] = lambda: (a); g()" "m.py" =
      .ok shortFunctionTokens := Layout.scanFrom_of_scanWithin steps
  have accepted : read "def f(): x[a:] = lambda: (a); g()" "m.py" = .ok shortFunction :=
    read_of_steps 40 steps (by with_unfolding_all rfl)
  exact ⟨accepted, scanned, by decide, read_spanned accepted scanned⟩

end Source

end DocSketch
