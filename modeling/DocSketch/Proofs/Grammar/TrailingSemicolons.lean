import DocSketch.Proofs.Grammar.MirroredPrograms
import DocSketch.Proofs.Grammar.Restoration

/-!
# Semicolons at the ends of lines

A semicolon before the newline that ends a simple statement changes nothing but places, unless
what comes next would continue a statement of which the line is a body; then nothing is read.

* `Stage`: whether a newline would end a simple statement.
* `Inserted`, `Severed`: texts of which the second one has one semicolon more, and texts in which
  a semicolon cuts a statement off from what would continue it.
* `Cursor.Abreast`, `Cursor.Beside`, `Cursor.Late`: cursors before the same texts or before such
  texts, and behind the semicolon.
* `Program.ofTokens_semicolon`: both texts are read as the same program, or the second one is not
  read at all.
-/

namespace DocSketch

open Parse (lead)

/-- What the tokens of a line have been so far. -/
inductive Stage where
  /-- None, or only what statements can follow: the header of a block, or a semicolon. -/
  | opening
  /-- Some of a statement. -/
  | reading
  /-- Some of a decorator. -/
  | decorating
deriving DecidableEq

namespace Stage

/-- The stage behind one more token. -/
def next : Stage → TokenKind → Stage
  | .decorating, .newline | .decorating, .indent | .decorating, .dedent => .opening
  | .decorating, _ => .decorating
  | .opening, .atSign => .decorating
  | _, .newline | _, .indent | _, .dedent | _, .semicolon | _, .colon => .opening
  | _, _ => .reading

/-- The stage behind some tokens.  A newline behind them ends a simple statement if some of a
statement has been read. -/
def after (stage : Stage) (tokens : List Token) : Stage :=
  tokens.foldl (fun stage token => stage.next token.kind) stage

/-- Nothing is said of the place. -/
def Anywhere (_ : Stage) (_ : List Spelling) : Prop := True

/-- The place is not in a statement, but it may be in a decorator. -/
def Fresh (stage : Stage) (_ : List Spelling) : Prop := stage ≠ .reading

def Decorated (stage : Stage) (_ : List Spelling) : Prop := stage = .decorating

/-- A statement can start here: the place is not in another one, unless a block ends here. -/
def Begins (stage : Stage) (text : List Spelling) : Prop :=
  stage = .reading → lead text .eof = .dedent ∨ lead text .eof = .eof

/-- A new line starts behind a newline and where the indentation changes. -/
theorem next_line {kind : TokenKind} (stage : Stage)
    (layout : kind = .newline ∨ kind = .indent ∨ kind = .dedent) :
    stage.next kind = .opening := by
  rcases layout with rfl | rfl | rfl <;> cases stage <;> rfl

/-- A decorator goes on until its line is over. -/
theorem next_decorating {kind : TokenKind} (real : kind.isIdle = false) :
    next .decorating kind = .decorating := by
  cases kind <;> first | rfl | cases real

/-- No statement has started behind a colon. -/
theorem next_colon (stage : Stage) : stage.next .colon ≠ .reading := by
  cases stage <;> decide

/-- No statement has started behind a semicolon. -/
theorem next_semicolon (stage : Stage) : stage.next .semicolon ≠ .reading := by
  cases stage <;> decide

/-- A decorator starts where no statement has. -/
theorem next_atSign {stage : Stage} (fresh : stage ≠ .reading) :
    stage.next .atSign = .decorating := by
  cases stage with
  | reading => exact absurd rfl fresh
  | opening | decorating => rfl

/-- A statement can start where none has. -/
theorem Fresh.begins {stage : Stage} {text : List Spelling} (fresh : Fresh stage text) :
    Begins stage text :=
  fun reading => absurd reading fresh

/-- Where a statement can start, no newline stands inside of one. -/
theorem Begins.unread {text : List Spelling} (begins : Begins .reading text) :
    lead text .eof ≠ .newline := by
  intro line
  rcases begins rfl with there | there <;> cases line.symm.trans there

end Stage

/-- The second text has one semicolon more, before a newline that ends a simple statement and no
continuation follows. -/
inductive Inserted : Stage → List Spelling → List Spelling → Prop
  | here {newline semicolon : Spelling} {back : List Spelling} (line : newline.1 = .newline)
      (mark : semicolon.1 = .semicolon)
      (closed : (lead back .eof).continues = false) :
      Inserted .reading (newline :: back) (semicolon :: newline :: back)
  | later {stage : Stage} {head : Spelling} {text text' : List Spelling} :
      Inserted (stage.next head.1) text text' → Inserted stage (head :: text) (head :: text')

/-- A semicolon and a newline stand before a keyword that would continue a statement, and no end
of a file stands before them. -/
inductive Severed : List Spelling → Prop
  | here {semicolon newline keyword : Spelling} {back : List Spelling}
      (mark : semicolon.1 = .semicolon) (line : newline.1 = .newline)
      (continues : keyword.1.continues = true) : Severed (semicolon :: newline :: keyword :: back)
  | later {head : Spelling} {text : List Spelling} (real : head.1 ≠ .eof) :
      Severed text → Severed (head :: text)

namespace Cursor

open Parse

variable {cursor other : Cursor} {head : Spelling} {ahead ahead' : List Spelling}
  {Texts Texts' : List Spelling → List Spelling → Prop}
  {Such Such' : Stage → List Spelling → Prop}

/-- The spellings of the tokens ahead. -/
def text (cursor : Cursor) : List Spelling := cursor.rest.map Token.spelling

/-- Cursors behind tokens of the same kind and before texts that are related. -/
structure Beside (Texts : List Spelling → List Spelling → Prop) (cursor other : Cursor) :
    Prop where
  sound : cursor.Sound
  sound' : other.Sound
  stops : cursor.stop.spelling = other.stop.spelling
  behind : cursor.previous.kind = other.previous.kind
  texts : Texts cursor.text other.text

/-- Cursors before the same text. -/
abbrev Abreast : Cursor → Cursor → Prop := Beside Eq

/-- The texts are the same, or the second one has a semicolon more. -/
def Lacking (Such : Stage → List Spelling → Prop) (text text' : List Spelling) : Prop :=
  text = text' ∨ ∃ stage, Such stage text ∧ Inserted stage text text'

/-- Cursors of which the second one is behind the semicolon and before the newline, and the first
one is behind the newline. -/
structure Late (cursor other : Cursor) : Prop where
  sound : cursor.Sound
  sound' : other.Sound
  stops : cursor.stop.spelling = other.stop.spelling
  gone : cursor.previous.kind = .newline
  closed : cursor.kind.continues = false
  texts : ∃ newline : Spelling, newline.1 = .newline ∧ other.text = newline :: cursor.text

/-- Of a text with a first spelling, the current token has it and the others are behind it. -/
theorem text_eq_cons (same : cursor.text = head :: ahead) :
    cursor.current.spelling = head ∧ cursor.advance.text = ahead ∧
      cursor.advance.previous = cursor.current := by
  obtain ⟨file, isBare, previous, rest, stop⟩ := cursor
  cases rest with
  | nil => cases same
  | cons token rest =>
      obtain ⟨spelled, same⟩ := List.cons.inj same
      exact ⟨spelled, same, rfl⟩

/-- A cursor before no text stands on its last token and stays there. -/
theorem text_eq_nil (same : cursor.text = []) :
    cursor.current.spelling = cursor.stop.spelling ∧ cursor.advance = cursor := by
  obtain ⟨file, isBare, previous, rest, stop⟩ := cursor
  cases rest with
  | nil => exact ⟨rfl, rfl⟩
  | cons token rest => cases same

/-- A cursor stays sound when it goes on. -/
theorem Sound.advance (sound : cursor.Sound) : cursor.advance.Sound := by
  obtain ⟨file, isBare, previous, rest, stop⟩ := cursor
  cases rest with
  | nil => exact sound
  | cons token rest => exact ⟨sound.full, sound.closed⟩

/-- A cursor keeps its last token when it goes on. -/
theorem advance_stop (cursor : Cursor) : cursor.advance.stop = cursor.stop := by
  obtain ⟨file, isBare, previous, rest, stop⟩ := cursor
  cases rest <;> rfl

/-- The kind of the current token is that of the first spelling ahead. -/
theorem Sound.kind_eq_lead (sound : cursor.Sound) : cursor.kind = lead cursor.text .eof := by
  obtain ⟨file, isBare, previous, rest, stop⟩ := cursor
  cases rest with
  | nil => exact sound.closed
  | cons token rest => rfl

namespace Beside

theorem mono (beside : Beside Texts cursor other) (weaker : Texts cursor.text other.text →
    Texts' cursor.text other.text) : Beside Texts' cursor other where
  sound := beside.sound
  sound' := beside.sound'
  stops := beside.stops
  behind := beside.behind
  texts := weaker beside.texts

/-- Tokens ahead that are spelled alike, and what is behind them. -/
theorem moved (beside : Beside Texts cursor other) (same : cursor.text = head :: ahead)
    (same' : other.text = head :: ahead') (texts : Texts' ahead ahead') :
    Beside Texts' cursor.advance other.advance := by
  obtain ⟨spelled, rest, gone⟩ := text_eq_cons same
  obtain ⟨spelled', rest', gone'⟩ := text_eq_cons same'
  refine ⟨beside.sound.advance, beside.sound'.advance, ?_, ?_, ?_⟩
  · rw [advance_stop, advance_stop, beside.stops]
  · rw [gone, gone']
    exact congrArg Prod.fst (spelled.trans spelled'.symm)
  · rw [rest, rest']
    exact texts

end Beside

namespace Abreast

/-- Cursors before the same text have the same spelling ahead. -/
theorem spelled (abreast : Abreast cursor other) :
    cursor.current.spelling = other.current.spelling := by
  have same := abreast.texts
  cases ahead : other.text with
  | nil => rw [(text_eq_nil (same.trans ahead)).1, (text_eq_nil ahead).1, abreast.stops]
  | cons head text => rw [(text_eq_cons (same.trans ahead)).1, (text_eq_cons ahead).1]

/-- Cursors before the same text have the same kind ahead. -/
theorem kind_eq (abreast : Abreast cursor other) : cursor.kind = other.kind :=
  congrArg Prod.fst abreast.spelled

/-- Cursors before the same text go on together. -/
theorem advance (abreast : Abreast cursor other) : Abreast cursor.advance other.advance := by
  have same := abreast.texts
  cases ahead : other.text with
  | nil =>
      rw [(text_eq_nil (same.trans ahead)).2, (text_eq_nil ahead).2]
      exact abreast
  | cons head text => exact abreast.moved (same.trans ahead) ahead rfl

/-- Cursors before the same text lack nothing. -/
theorem lacking (abreast : Abreast cursor other) : Beside (Lacking Such) cursor other :=
  abreast.mono .inl

end Abreast

namespace Beside

/-- Either the current tokens are spelled alike and the cursors behind them are again beside each
other, or they are at the semicolon and the newline. -/
theorem cases (beside : Beside (Lacking Such) cursor other) :
    (cursor.current.spelling = other.current.spelling ∧
      ∀ Such' : Stage → List Spelling → Prop,
        (∀ stage text, Such stage cursor.text → Such' (stage.next cursor.kind) text) →
          Beside (Lacking Such') cursor.advance other.advance) ∨
      Such .reading cursor.text ∧ cursor.kind = .newline ∧ other.kind = .semicolon ∧
        Late cursor.advance other.advance := by
  rcases beside.texts with same | ⟨stage, such, inserted⟩
  · have abreast : Abreast cursor other := beside.mono fun _ => same
    exact .inl ⟨abreast.spelled, fun _ _ => abreast.advance.lacking⟩
  · generalize ahead : cursor.text = text at such inserted
    generalize ahead' : other.text = text' at inserted
    cases inserted with
    | later inserted =>
        have spelled := (text_eq_cons ahead).1
        refine .inl ⟨spelled.trans (text_eq_cons ahead').1.symm, fun Such' follows => ?_⟩
        refine beside.moved ahead ahead' (.inr ⟨_, ?_, inserted⟩)
        exact congrArg Prod.fst spelled ▸ follows stage _ such
    | here line mark closed =>
        obtain ⟨spelled, rest, gone⟩ := text_eq_cons ahead
        obtain ⟨spelled', rest', -⟩ := text_eq_cons ahead'
        have here : cursor.kind = .newline := (congrArg Prod.fst spelled).trans line
        have here' : other.kind = .semicolon := (congrArg Prod.fst spelled').trans mark
        refine .inr ⟨such, here, here', beside.sound.advance, beside.sound'.advance, ?_, ?_, ?_,
          _, line, ?_⟩
        · rw [advance_stop, advance_stop, beside.stops]
        · rw [gone]
          exact here
        · rw [beside.sound.advance.kind_eq_lead, rest]
          exact closed
        · rw [rest, rest']

/-- Less may be said of the stage before the semicolon. -/
theorem weaken (beside : Beside (Lacking Such) cursor other)
    (weaker : ∀ stage text, Such stage text → Such' stage text) :
    Beside (Lacking Such') cursor other := by
  refine beside.mono fun texts => ?_
  rcases texts with same | ⟨stage, such, inserted⟩
  · exact .inl same
  · exact .inr ⟨stage, weaker _ _ such, inserted⟩

/-- Where a block ends, statements can start. -/
theorem begins (beside : Beside (Lacking Such) cursor other)
    (edge : cursor.kind = .eof ∨ cursor.kind = .dedent) :
    Beside (Lacking Stage.Begins) cursor other := by
  refine beside.mono fun texts => ?_
  rcases texts with same | ⟨stage, -, inserted⟩
  · exact .inl same
  · refine .inr ⟨stage, fun _ => ?_, inserted⟩
    rw [← beside.sound.kind_eq_lead]
    exact edge.symm

/-- The kinds ahead agree where a statement can start: the semicolon is not yet reached. -/
theorem kind_eq (beside : Beside (Lacking Stage.Begins) cursor other) :
    cursor.kind = other.kind := by
  rcases beside.cases with ⟨same, -⟩ | ⟨begins, here, -⟩
  · exact congrArg Prod.fst same
  · exact absurd (beside.sound.kind_eq_lead ▸ here) begins.unread

/-- Two texts with a semicolon between them are mirrored wherever the stages allow it. -/
theorem mirroring (keeps : ∀ stage text text' kind, kind.isIdle = false → Such stage text →
    Such (stage.next kind) text') : Mirroring (Beside (Lacking Such)) where
  sound beside := ⟨beside.sound, beside.sound'⟩
  current beside := by
    rcases beside.cases with ⟨same, -⟩ | ⟨-, here, here', -⟩
    · exact .inr same
    · rw [here, here']
      exact .inl ⟨rfl, rfl⟩
  advance beside real := by
    rcases beside.cases with ⟨-, moved⟩ | ⟨-, here, -⟩
    · exact moved Such fun stage text such => keeps _ _ _ _ real such
    · rw [here] at real
      cases real

/-- Going past a token that does not stand where the semicolon is put in. -/
theorem crosses {expected : TokenKind}
    (elsewhere : expected.isIdle = false ∨ ∀ text, Such .reading text → lead text .eof ≠ .newline)
    (follows : ∀ stage text text', lead text .eof = expected → Such stage text →
      Such' (stage.next expected) text') :
    Crosses (Beside (Lacking Such)) expected (Beside (Lacking Such')) := by
  have apart : ∀ {cursor other : Cursor}, Beside (Lacking Such) cursor other →
      cursor.kind = expected ∨ other.kind = expected →
        cursor.current.spelling = other.current.spelling ∧
          (cursor.kind = expected → Beside (Lacking Such') cursor.advance other.advance) := by
    intro cursor other beside found
    rcases beside.cases with ⟨same, moved⟩ | ⟨such, here, here', -⟩
    · refine ⟨same, fun here => moved Such' fun stage text such => ?_⟩
      have led : lead cursor.text .eof = expected := beside.sound.kind_eq_lead ▸ here
      exact here ▸ follows stage _ _ led such
    · rcases elsewhere with plain | elsewhere
      · rcases found with found | found
        · rw [← found, here] at plain
          cases plain
        · rw [← found, here'] at plain
          cases plain
      · exact absurd (beside.sound.kind_eq_lead ▸ here) (elsewhere _ such)
  constructor
  · intro cursor other beside
    constructor
    · exact fun here => (congrArg Prod.fst (apart beside (.inl here)).1).symm.trans here
    · exact fun here => (congrArg Prod.fst (apart beside (.inr here)).1).trans here
  · exact fun beside here => (apart beside (.inl here)).1
  · exact fun beside here => (apart beside (.inl here)).2 here

end Beside

namespace Late

/-- The newline is ahead of the second cursor. -/
theorem kind_eq (late : Late cursor other) : other.kind = .newline := by
  obtain ⟨newline, line, ahead⟩ := late.texts
  exact (congrArg Prod.fst (text_eq_cons ahead).1).trans line

/-- When the newline behind the semicolon is gone past, the texts are the same. -/
theorem settle (late : Late cursor other) : Abreast cursor other.advance := by
  obtain ⟨newline, line, ahead⟩ := late.texts
  obtain ⟨spelled, rest, gone⟩ := text_eq_cons ahead
  refine ⟨late.sound, late.sound'.advance, ?_, ?_, rest.symm⟩
  · rw [advance_stop, late.stops]
  · rw [late.gone, gone]
    exact late.kind_eq.symm

end Late

end Cursor

namespace Grammar

open Parse Cursor

/-- Reading the kind changes no cursor. -/
theorem kind_bind {α : Type} {use : TokenKind → Parse α} (cursor : Cursor) :
    (Parse.kind >>= use) cursor = use cursor.kind cursor := rfl

/-- A simple statement ends with a semicolon or a newline, which is gone past. -/
theorem endSimple_of_mark {cursor : Cursor}
    (mark : cursor.kind = .semicolon ∨ cursor.kind = .newline) :
    endSimple cursor = .ok () cursor.advance := by
  rw [endSimple, kind_bind]
  rcases mark with here | here <;> rw [here] <;> rfl

/-- A simple statement ends before a dedent or the end of the file, which stays ahead. -/
theorem endSimple_of_edge {cursor : Cursor} (edge : cursor.kind = .eof ∨ cursor.kind = .dedent) :
    endSimple cursor = .ok () cursor := by
  rw [endSimple, kind_bind]
  rcases edge with here | here <;> rw [here] <;> rfl

/-- A simple statement ends in no other way. -/
theorem endSimple_cases {cursor next : Cursor} {value : Unit}
    (ran : endSimple cursor = .ok value next) :
    (cursor.kind = .semicolon ∨ cursor.kind = .newline) ∨
      cursor.kind = .eof ∨ cursor.kind = .dedent := by
  rw [endSimple, kind_bind] at ran
  generalize cursor.kind = kind at ran ⊢
  cases kind <;>
    first
    | exact .inl (.inl rfl)
    | exact .inl (.inr rfl)
    | exact .inr (.inl rfl)
    | exact .inr (.inr rfl)
    | cases ran

/-- Ends of simple statements mirror each other if the marks do and the edges do. -/
theorem endSimple_mirrors {Before After : Cursor → Cursor → Prop}
    (marks : ∀ cursor other, Before cursor other →
      cursor.kind = .semicolon ∨ cursor.kind = .newline →
        (other.kind = .semicolon ∨ other.kind = .newline) ∧ After cursor.advance other.advance)
    (edges : ∀ cursor other, Before cursor other → cursor.kind = .eof ∨ cursor.kind = .dedent →
      cursor.kind = other.kind ∧ After cursor other) :
    Mirrors Before After id endSimple endSimple := by
  intro cursor other value next related ran
  rcases endSimple_cases ran with mark | edge
  · obtain ⟨mark', behind⟩ := marks cursor other related mark
    rw [endSimple_of_mark mark] at ran
    cases ran
    exact ⟨(), _, endSimple_of_mark mark', behind, rfl⟩
  · obtain ⟨same, behind⟩ := edges cursor other related edge
    rw [endSimple_of_edge edge] at ran
    cases ran
    exact ⟨(), other, endSimple_of_edge (same ▸ edge), behind, rfl⟩

/-- Cursors before the same text go past any token together. -/
theorem abreast_crosses (kind : TokenKind) : Crosses Abreast kind Abreast where
  kind_iff abreast := by rw [abreast.kind_eq]
  spelled abreast _ := abreast.spelled
  behind abreast _ := abreast.advance

/-- Cursors before the same text mirror each other. -/
theorem abreast_mirroring : Mirroring Abreast where
  sound abreast := ⟨abreast.sound, abreast.sound'⟩
  current abreast := .inr abreast.spelled
  advance abreast _ := abreast.advance

/-- Tokens that are spelled alike are read alike, wherever they stand. -/
theorem abreast_phases : Phases (fun _ => Abreast) (· ≤ ·) where
  within := abreast_mirroring
  decorated := abreast_mirroring
  begins_of_fresh := id
  within_of_begins := id
  left_of_begins := id
  kind_eq := Abreast.kind_eq
  colon := abreast_crosses _
  layout _ := abreast_crosses _
  atSign := abreast_crosses _
  line := abreast_crosses _
  endSimple := by
    apply endSimple_mirrors
    · intro cursor other abreast mark
      exact ⟨abreast.kind_eq ▸ mark, abreast.advance⟩
    · intro cursor other abreast edge
      exact ⟨abreast.kind_eq, abreast⟩
  continuation _ := abreast_crosses _
  continuing abreast _ := abreast
  runsOn_iff abreast := by rw [RunsOn, RunsOn, abreast.kind_eq, abreast.behind]
  runsOn abreast _ := abreast
  ended abreast _ := abreast
  larger := id
  lower {fuel more} enough := ⟨more - 1, by omega, by omega⟩
  indented _ := id
  program _ := id

/-- Cursors before texts of which the second one may have a semicolon more. -/
def Trailing : Phase → Cursor → Cursor → Prop
  | .begins => Beside (Lacking Stage.Begins)
  | .fresh => Beside (Lacking Stage.Fresh)
  | .within => Beside (Lacking Stage.Anywhere)
  | .decorated => Beside (Lacking Stage.Decorated)
  | .left => fun cursor other => Beside (Lacking Stage.Begins) cursor other ∨ Late cursor other
  | .ended => fun _ _ => True

/-- No continuation stands behind the semicolon on the one side and behind the newline on the
other one. -/
theorem trailing_continuation {kind : TokenKind} (continues : kind.continues = true) :
    Crosses (Trailing .left) kind (Trailing .within) := by
  have real : kind.isIdle = false := by
    cases kind <;> first | rfl | cases continues
  have crosses : Crosses (Trailing .begins) kind (Trailing .within) :=
    Beside.crosses (.inl real) fun _ _ _ _ _ => trivial
  have absent : ∀ {cursor other : Cursor}, Late cursor other → cursor.kind ≠ kind := by
    rintro cursor other late rfl
    cases late.closed.symm.trans continues
  have absent' : ∀ {cursor other : Cursor}, Late cursor other → other.kind ≠ kind := by
    rintro cursor other late rfl
    rw [late.kind_eq] at real
    cases real
  constructor
  · rintro cursor other (beside | late)
    · exact crosses.kind_iff beside
    · exact iff_of_false (absent late) (absent' late)
  · rintro cursor other (beside | late) here
    · exact crosses.spelled beside here
    · exact absurd here (absent late)
  · rintro cursor other (beside | late) here
    · exact crosses.behind beside here
    · exact absurd here (absent late)

/-- A simple statement ends on both sides, one of them perhaps at the semicolon. -/
theorem trailing_endSimple :
    Mirrors (Trailing .within) (Trailing .left) id endSimple endSimple := by
  apply endSimple_mirrors
  · intro cursor other beside mark
    rcases beside.cases with ⟨same, moved⟩ | ⟨-, -, here', late⟩
    · have kinds : cursor.kind = other.kind := congrArg Prod.fst same
      refine ⟨kinds ▸ mark, .inl (moved _ fun stage text _ => ?_)⟩
      apply Stage.Fresh.begins
      rcases mark with here | here <;> rw [here]
      · exact stage.next_semicolon
      · rw [Stage.Fresh, stage.next_line (.inl rfl)]
        decide
    · exact ⟨.inl here', .inr late⟩
  · intro cursor other beside edge
    have begins := beside.begins edge
    exact ⟨begins.kind_eq, .inl begins⟩

/-- A block runs on behind the semicolon exactly if it does behind the newline. -/
theorem trailing_runsOn {cursor other : Cursor} (left : Trailing .left cursor other) :
    cursor.RunsOn ↔ other.RunsOn := by
  rcases left with beside | late
  · rw [RunsOn, RunsOn, beside.behind, beside.kind_eq]
  · refine iff_of_false (fun runs => ?_) fun runs => runs.2 (.inl late.kind_eq)
    cases runs.1.symm.trans late.gone

/-- A loop over statements goes past the newline behind the semicolon, and then the texts are the
same. -/
theorem loop_mirrors {α γ : Type} {After : Cursor → Cursor → Prop} {view : α → γ} {more : Nat}
    {reader : Parse α} {loop : Nat → Parse α}
    (line : ∀ cursor : Cursor, cursor.kind = .newline →
      loop (more + 1) cursor = loop more cursor.advance)
    (begins : Mirrors (Trailing .begins) After view reader (loop (more + 1)))
    (settled : Mirrors Abreast After view reader (loop more)) :
    Mirrors (Trailing .left) After view reader (loop (more + 1)) := by
  rintro cursor other value next (beside | late) ran
  · exact begins cursor other value next beside ran
  · rw [line other late.kind_eq]
    exact settled cursor other.advance value next late.settle ran

/-- The phases of statements and blocks, for a text with one semicolon more. -/
theorem trailing_phases : Phases Trailing (· < ·) where
  within := Beside.mirroring fun _ _ _ _ _ _ => trivial
  decorated := by
    refine Beside.mirroring fun stage _ _ kind real decorated => ?_
    rw [show stage = .decorating from decorated]
    exact Stage.next_decorating real
  begins_of_fresh fresh := fresh.weaken fun _ _ => Stage.Fresh.begins
  within_of_begins begins := begins.weaken fun _ _ _ => trivial
  left_of_begins := .inl
  kind_eq := Beside.kind_eq
  colon := Beside.crosses (.inl rfl) fun stage _ _ _ _ => stage.next_colon
  layout := by
    intro kind layout
    refine Beside.crosses (.inr fun _ => Stage.Begins.unread) fun stage _ _ _ _ => ?_
    rw [Stage.Fresh, stage.next_line layout]
    decide
  atSign := by
    refine Beside.crosses (.inl rfl) fun stage text _ led begins => ?_
    refine Stage.next_atSign fun reading => ?_
    rcases begins reading with there | there <;> cases led.symm.trans there
  line := by
    refine Beside.crosses (.inr fun _ => Stage.noConfusion) fun stage _ _ _ _ => ?_
    rw [Stage.Fresh, stage.next_line (.inl rfl)]
    decide
  endSimple := trailing_endSimple
  continuation := trailing_continuation
  continuing := by
    rintro cursor other (beside | late) continues
    · exact beside.weaken fun _ _ _ => trivial
    · cases late.closed.symm.trans continues
  runsOn_iff := trailing_runsOn
  runsOn := by
    rintro cursor other (beside | late) runs
    · exact beside
    · cases runs.1.symm.trans late.gone
  ended _ _ := trivial
  larger := Nat.le_of_lt
  lower {fuel more} enough := ⟨more - 1, by omega, by omega⟩
  -- Behind the semicolon the texts are the same, and the second side goes on past the newline
  -- first.
  indented := by
    intro fuel more enough begins
    have settled := (mirroredStatements abreast_phases (fuel + 1) more enough).indented
    refine loop_mirrors (fun cursor here => ?_) begins (settled.widen Abreast.lacking)
    rw [readIndented, kind_bind, here]
    rfl
  program := by
    intro fuel more enough begins
    have settled := (mirroredStatements abreast_phases (fuel + 1) more enough).program
    refine loop_mirrors (fun cursor here => ?_) begins (settled.widen fun _ => trivial)
    rw [readProgram, kind_bind, here]
    rfl

section Severing

variable {cursor : Cursor}

/-- No statement starts with a keyword that continues one. -/
theorem readStmt_stuck (sound : cursor.Sound) (continues : cursor.kind.continues = true)
    (fuel : Nat) (stmt : Stmt) (next : Cursor) : readStmt fuel cursor ≠ .ok stmt next := by
  intro ran
  have plain : cursor.kind.statement? = none ∧ cursor.kind.opening? = none := by
    generalize cursor.kind = kind at continues ⊢
    cases kind <;> first | exact ⟨rfl, rfl⟩ | cases continues
  cases fuel with
  | zero =>
      rw [readStmt] at ran
      cases ran
  | succ fuel =>
      rw [readStmt, get_bind, sound.statement?_eq, plain.1] at ran
      obtain ⟨head, _, ran, -⟩ := ran_bind ran
      obtain ⟨start, _, looked, ran⟩ := ran_bind ran
      cases looked
      obtain ⟨first, _, ran, -⟩ := ran_bind ran
      cases fuel with
      | zero => cases ran
      | succ fuel =>
          rw [readTuple] at ran
          obtain ⟨e, _, ran, -⟩ := ran_bind ran
          cases fuel with
          | zero => cases ran
          | succ fuel =>
              rw [readExpr, get_bind, sound.opening?_eq, plain.2] at ran
              cases ran

/-- No statement starts with a keyword that continues one. -/
theorem readStmt_bind_stuck {α : Type} {others : Stmt → Parse α} (sound : cursor.Sound)
    (continues : cursor.kind.continues = true) (fuel : Nat) (value : α) (next : Cursor) :
    (readStmt fuel >>= others) cursor ≠ .ok value next := by
  intro ran
  obtain ⟨stmt, middle, ran, -⟩ := ran_bind ran
  exact readStmt_stuck sound continues fuel stmt middle ran

/-- No statement of a block starts with a keyword that continues one. -/
theorem readIndented_stuck (sound : cursor.Sound) (continues : cursor.kind.continues = true)
    (fuel : Nat) (body : List Stmt) (next : Cursor) : readIndented fuel cursor ≠ .ok body next := by
  intro ran
  cases fuel with
  | zero =>
      rw [readIndented] at ran
      cases ran
  | succ fuel =>
      have first : readIndented (fuel + 1) cursor =
          (readStmt fuel >>= fun stmt => readIndented fuel >>= fun others =>
            pure (stmt :: others)) cursor := by
        rw [readIndented, kind_bind]
        generalize cursor.kind = kind at continues ⊢
        cases kind <;> first | rfl | cases continues
      rw [first] at ran
      exact readStmt_bind_stuck sound continues fuel body next ran

/-- No statement of a program starts with a keyword that continues one. -/
theorem readProgram_stuck (sound : cursor.Sound) (continues : cursor.kind.continues = true)
    (fuel : Nat) (body : List Stmt) (next : Cursor) : readProgram fuel cursor ≠ .ok body next := by
  intro ran
  cases fuel with
  | zero => cases ran
  | succ fuel =>
      have first : readProgram (fuel + 1) cursor =
          (readStmt fuel >>= fun stmt => readProgram fuel >>= fun others =>
            pure (stmt :: others)) cursor := by
        rw [readProgram, kind_bind]
        generalize cursor.kind = kind at continues ⊢
        cases kind <;> first | rfl | cases continues
      rw [first] at ran
      exact readStmt_bind_stuck sound continues fuel body next ran

/-- The cursor is behind the semicolon and before the newline. -/
structure Halted (cursor : Cursor) : Prop where
  sound : cursor.Sound
  line : cursor.kind = .newline
  continues : cursor.advance.kind.continues = true

/-- One cursor, before a text in which a statement is cut off from what would continue it. -/
def Severing : Phase → Cursor → Cursor → Prop
  | .left => fun cursor other =>
    cursor = other ∧ (cursor.Sound ∧ Severed cursor.text ∨ Halted cursor)
  | .ended => fun _ _ => False
  | _ => fun cursor other => cursor = other ∧ cursor.Sound ∧ Severed cursor.text

/-- Behind one token the cut is still ahead, or the token was its semicolon. -/
theorem severed_advance (sound : cursor.Sound) (severed : Severed cursor.text) :
    cursor.kind = .semicolon ∧ Halted cursor.advance ∨
      cursor.kind ≠ .eof ∧ cursor.advance.Sound ∧ Severed cursor.advance.text := by
  generalize ahead : cursor.text = text at severed
  cases severed with
  | here mark line continues =>
      obtain ⟨spelled, rest, -⟩ := text_eq_cons ahead
      obtain ⟨spelled', rest', -⟩ := text_eq_cons rest
      refine .inl ⟨(congrArg Prod.fst spelled).trans mark, sound.advance, ?_, ?_⟩
      · exact (congrArg Prod.fst spelled').trans line
      · rw [sound.advance.advance.kind_eq_lead, rest']
        exact continues
  | later real severed =>
      obtain ⟨spelled, rest, -⟩ := text_eq_cons ahead
      refine .inr ⟨fun ended => real ((congrArg Prod.fst spelled).symm.trans ended), ?_⟩
      exact ⟨sound.advance, rest ▸ severed⟩

/-- The cut stays ahead of a cursor that goes past another token than a semicolon. -/
theorem severing_advance {other : Cursor} (related : Severing .within cursor other)
    (inside : cursor.kind ≠ .semicolon) : Severing .within cursor.advance other.advance := by
  obtain ⟨rfl, sound, severed⟩ := related
  rcases severed_advance sound severed with ⟨mark, -⟩ | ⟨-, sound, severed⟩
  · exact absurd mark inside
  · exact ⟨rfl, sound, severed⟩

/-- One cursor before a cut mirrors itself. -/
theorem severing_mirroring : Mirroring (Severing .within) where
  sound := by
    rintro cursor other ⟨rfl, sound, -⟩
    exact ⟨sound, sound⟩
  current := by
    rintro cursor other ⟨rfl, -⟩
    exact .inr rfl
  advance related real := severing_advance related (TokenKind.ne_of_isIdle rfl real).symm

/-- Only a semicolon can be the one of the cut. -/
theorem severing_crosses {kind : TokenKind} (inside : kind ≠ .semicolon) :
    Crosses (Severing .within) kind (Severing .within) where
  kind_iff := by
    rintro cursor other ⟨rfl, -⟩
    exact Iff.rfl
  spelled := by
    rintro cursor other ⟨rfl, -⟩ -
    rfl
  behind related here := severing_advance related (here ▸ inside)

/-- A cut is still ahead of a keyword that continues a statement. -/
theorem severing_continuing {other : Cursor} (related : Severing .left cursor other)
    (continues : cursor.kind.continues = true) : Severing .within cursor other := by
  obtain ⟨rfl, ahead | halted⟩ := related
  · exact ⟨rfl, ahead⟩
  · rw [halted.line] at continues
    cases continues

/-- The phases of statements and blocks, for a text with a cut. -/
theorem severing_phases : Phases Severing (· ≤ ·) where
  within := severing_mirroring
  decorated := severing_mirroring
  begins_of_fresh := id
  within_of_begins := id
  left_of_begins related := ⟨related.1, .inl related.2⟩
  kind_eq related := congrArg Cursor.kind related.1
  colon := severing_crosses (by decide)
  layout layout := severing_crosses (by rcases layout with rfl | rfl | rfl <;> decide)
  atSign := severing_crosses (by decide)
  line := severing_crosses (by decide)
  endSimple := by
    apply endSimple_mirrors
    · rintro cursor other ⟨rfl, sound, severed⟩ mark
      refine ⟨mark, rfl, ?_⟩
      rcases severed_advance sound severed with ⟨-, halted⟩ | ⟨-, sound, severed⟩
      · exact .inr halted
      · exact .inl ⟨sound, severed⟩
    · rintro cursor other ⟨rfl, ahead⟩ -
      exact ⟨rfl, rfl, .inl ahead⟩
  continuation := by
    intro kind continues
    constructor
    · rintro cursor other ⟨rfl, -⟩
      exact Iff.rfl
    · rintro cursor other ⟨rfl, -⟩ -
      rfl
    · rintro cursor other related rfl
      refine severing_advance (severing_continuing related continues) fun mark => ?_
      rw [mark] at continues
      cases continues
  continuing := severing_continuing
  runsOn_iff := by
    rintro cursor other ⟨rfl, -⟩
    exact Iff.rfl
  runsOn := by
    rintro cursor other ⟨rfl, ahead | halted⟩ runs
    · exact ⟨rfl, ahead⟩
    · exact absurd (.inl halted.line) runs.2
  ended := by
    rintro cursor other ⟨rfl, sound, severed⟩ ended
    rcases severed_advance sound severed with ⟨mark, -⟩ | ⟨real, -⟩
    · cases mark.symm.trans ended
    · exact real ended
  larger := id
  lower {fuel more} enough := ⟨more - 1, by omega, by omega⟩
  -- If the block goes on behind the cut, its next statement starts with the keyword, which is
  -- stuck.
  indented := by
    rintro fuel more - begins cursor other body next ⟨rfl, ahead | halted⟩ ran
    · exact begins cursor cursor body next ⟨rfl, ahead⟩ ran
    · rw [readIndented, kind_bind, halted.line] at ran
      exact absurd ran (readIndented_stuck halted.sound.advance halted.continues fuel body next)
  program := by
    rintro fuel more - begins cursor other body next ⟨rfl, ahead | halted⟩ ran
    · exact begins cursor cursor body next ⟨rfl, ahead⟩ ran
    · rw [readProgram, kind_bind, halted.line] at ran
      exact absurd ran (readProgram_stuck halted.sound.advance halted.continues fuel body next)

end Severing

end Grammar

/-- A semicolon before a newline that ends a simple statement is such an insertion. -/
theorem Inserted.of_after {semicolon newline : Token} {front back : List Token}
    (mark : semicolon.kind = .semicolon) (line : newline.kind = .newline)
    (closed : (lead (back.map Token.spelling) .eof).continues = false) :
    ∀ stage : Stage, stage.after front = .reading →
      Inserted stage ((front ++ newline :: back).map Token.spelling)
        ((front ++ semicolon :: newline :: back).map Token.spelling) := by
  induction front with
  | nil =>
      rintro stage rfl
      exact .here line mark closed
  | cons token front ih => exact fun stage finishes => .later (ih _ finishes)

/-- A semicolon and a newline before a continuing keyword are such a cut. -/
theorem Severed.of_unended {semicolon newline keyword : Token} {front back : List Token}
    (mark : semicolon.kind = .semicolon) (line : newline.kind = .newline)
    (continues : keyword.kind.continues = true) (unended : ∀ token ∈ front, token.kind ≠ .eof) :
    Severed ((front ++ semicolon :: newline :: keyword :: back).map Token.spelling) := by
  induction front with
  | nil => exact .here mark line continues
  | cons token front ih =>
      obtain ⟨real, unended⟩ := List.forall_mem_cons.mp unended
      exact .later real (ih unended)

/-- The first token of a list or else the last one has the kind that leads the text. -/
theorem kind_headD (tokens : List Token) (stop : Token) :
    (tokens.headD stop).kind = lead (tokens.map Token.spelling) stop.kind := by
  cases tokens <;> rfl

/-- A program and one with a semicolon more start side by side. -/
theorem Grammar.trailing_before {file file' : String} {front back body' : List Token}
    {semicolon newline stop stop' : Token} (mark : semicolon.kind = .semicolon)
    (line : newline.kind = .newline) (ends : stop.kind = .eof)
    (finishes : Stage.opening.after front = .reading)
    (closed : (back.headD stop).kind.continues = false)
    (same : body'.map Token.spelling =
      (front ++ semicolon :: newline :: back).map Token.spelling)
    (stops : stop'.spelling = stop.spelling) :
    Grammar.Trailing .begins (Cursor.before file false (front ++ newline :: back) stop)
      (Cursor.before file' false body' stop') := by
  have led : (lead (back.map Token.spelling) .eof).continues = false := by
    rw [← ends, ← kind_headD]
    exact closed
  have heads : ((front ++ newline :: back).headD stop).kind = (body'.headD stop').kind := by
    rw [kind_headD, kind_headD, same]
    cases front with
    | nil => cases finishes
    | cons token front => rfl
  have ends' : stop'.kind = .eof := (congrArg Prod.fst stops).trans ends
  refine ⟨⟨rfl, ends⟩, ⟨rfl, ends'⟩, stops.symm, heads, .inr ⟨.opening, ?_, ?_⟩⟩
  · exact Stage.noConfusion
  · change Inserted .opening _ (body'.map Token.spelling)
    rw [same]
    exact Inserted.of_after mark line led .opening finishes

/-- Programs that start side by side are read alike. -/
theorem Program.ofTokens_mirrors {R : Grammar.Phase → Cursor → Cursor → Prop}
    {Enough : Nat → Nat → Prop} (phases : Grammar.Phases R Enough) {file file' : String}
    {body body' : List Token} {stop stop' : Token} {program : Program} (ends : stop.kind = .eof)
    (ends' : stop'.kind = .eof)
    (begins : R .begins (Cursor.before file false body stop)
      (Cursor.before file' false body' stop'))
    (enough : Enough (Cursor.before file false body stop).budget
      (Cursor.before file' false body' stop').budget)
    (parsed : Program.ofTokens file (body ++ [stop]) = .ok program) :
    ∃ program', Program.ofTokens file' (body' ++ [stop']) = .ok program' ∧
      (∃ next next', R .ended next next') ∧
      Stmt.unspannedBody program'.body = Stmt.unspannedBody program.body := by
  rw [Program.ofTokens, Cursor.ofTokens_concat file false ends] at parsed
  rw [Program.ofTokens, Cursor.ofTokens_concat file' false ends']
  cases ran : Parse.program (Cursor.before file false body stop) with
  | error fault next =>
      rw [ran] at parsed
      cases parsed
  | ok found next =>
      rw [ran] at parsed
      cases parsed
      obtain ⟨program', next', ran', ended, alike⟩ :=
        Parse.program_mirrors phases begins enough ran
      exact ⟨program', by rw [ran'], ⟨next, next', ended⟩, alike.symm⟩

/-- Nothing is read from tokens in which a semicolon cuts a statement off from what would continue
it. -/
theorem Program.not_ofTokens_of_severed {file : String} {tokens : List Token} {stop : Token}
    (ends : stop.kind = .eof) (severed : Severed (tokens.map Token.spelling)) (program : Program) :
    Program.ofTokens file (tokens ++ [stop]) ≠ .ok program := by
  intro parsed
  have begins : Grammar.Severing .begins (Cursor.before file false tokens stop)
      (Cursor.before file false tokens stop) := ⟨rfl, ⟨rfl, ends⟩, severed⟩
  obtain ⟨_, _, ⟨_, _, impossible⟩, _⟩ :=
    Program.ofTokens_mirrors Grammar.severing_phases ends ends begins (Nat.le_refl _) parsed
  exact impossible

/-- **A semicolon at the end of a line changes nothing but places**, wherever the line stands,
unless a keyword comes next that continues a statement: then nothing is read.

The newline ends a simple statement: since the line, the header of a block or the semicolon before
it, some of a statement has been read, and it is not a decorator. -/
theorem Program.ofTokens_semicolon {file file' : String} {front back tokens' : List Token}
    {semicolon newline stop : Token} {program : Program} (mark : semicolon.kind = .semicolon)
    (line : newline.kind = .newline) (ends : stop.kind = .eof)
    (finishes : Stage.opening.after front = .reading)
    (parsed : Program.ofTokens file (front ++ newline :: back ++ [stop]) = .ok program)
    (spelled : tokens'.map Token.spelling =
      (front ++ semicolon :: newline :: back ++ [stop]).map Token.spelling) :
    ((back.headD stop).kind.continues = false →
      ∃ program', Program.ofTokens file' tokens' = .ok program' ∧
        Stmt.unspannedBody program'.body = Stmt.unspannedBody program.body) ∧
    ((back.headD stop).kind.continues = true → (∀ token ∈ front, token.kind ≠ .eof) →
      ∀ program', Program.ofTokens file' tokens' ≠ .ok program') := by
  rw [List.map_append] at spelled
  obtain ⟨body', last, rfl, same, same'⟩ := List.map_eq_append_iff.mp spelled
  obtain ⟨stop', rfl, stops⟩ : ∃ stop', last = [stop'] ∧ stop'.spelling = stop.spelling := by
    obtain ⟨stop', rest, rfl, stops, none⟩ := List.map_eq_cons_iff.mp same'
    exact ⟨stop', by rw [List.map_eq_nil_iff.mp none], stops⟩
  have ends' : stop'.kind = .eof := (congrArg Prod.fst stops).trans ends
  constructor
  · intro closed
    have beside : Grammar.Trailing .begins
        (Cursor.before file false (front ++ newline :: back) stop)
        (Cursor.before file' false body' stop') :=
      Grammar.trailing_before mark line ends finishes closed same stops
    have longer : (Cursor.before file false (front ++ newline :: back) stop).budget <
        (Cursor.before file' false body' stop').budget := by
      have lengths := congrArg List.length same
      simp only [List.length_map, List.length_append, List.length_cons] at lengths
      simp only [Cursor.budget, Cursor.before, List.length_append, List.length_cons]
      omega
    obtain ⟨program', parsed', -, alike⟩ :=
      Program.ofTokens_mirrors Grammar.trailing_phases ends ends' beside longer parsed
    exact ⟨program', parsed', alike⟩
  · intro continues unended
    cases back with
    | nil =>
        rw [List.headD_nil, ends] at continues
        cases continues
    | cons keyword back =>
        refine Program.not_ofTokens_of_severed ends' ?_
        rw [same]
        exact Severed.of_unended mark line continues unended

/-- The tokens of `if a: b`. -/
def conditionLine : List Token :=
  [⟨.ifKw, "if", ⟨0, 2⟩⟩, ⟨.identifier, "a", ⟨3, 4⟩⟩, ⟨.colon, ":", ⟨4, 5⟩⟩,
    ⟨.identifier, "b", ⟨6, 7⟩⟩]

/-- The tokens of `if a: b;` and, on the next line, `c`. -/
def closedLines : List Token :=
  conditionLine ++ [⟨.semicolon, ";", ⟨7, 8⟩⟩, ⟨.newline, "\n", ⟨8, 9⟩⟩,
    ⟨.identifier, "c", ⟨9, 10⟩⟩, ⟨.newline, "\n", ⟨10, 11⟩⟩, ⟨.eof, "", ⟨11, 11⟩⟩]

/-- The tokens of `if a: b;` and, on the next line, `else: c`. -/
def severedLines : List Token :=
  conditionLine ++ [⟨.semicolon, ";", ⟨7, 8⟩⟩, ⟨.newline, "\n", ⟨8, 9⟩⟩,
    ⟨.elseKw, "else", ⟨9, 13⟩⟩, ⟨.colon, ":", ⟨13, 14⟩⟩, ⟨.identifier, "c", ⟨15, 16⟩⟩,
    ⟨.newline, "\n", ⟨16, 17⟩⟩, ⟨.eof, "", ⟨17, 17⟩⟩]

/-- The statement `if a: b`, which other statements may follow in its other case. -/
def conditionStmt (orelse : List Stmt) (stop : Nat) : Stmt :=
  .conditional ⟨0, stop⟩ (.symbol ⟨3, 4⟩ "a") [.expression ⟨6, 7⟩ (.symbol ⟨6, 7⟩ "b")] orelse

/-- A semicolon behind `if a: b` changes nothing before the line `c`, and before `else: c` there
is no program. -/
theorem Program.ofTokens_semicolon_closedLines :
    (∃ program, Program.ofTokens "m.py" closedLines = .ok program ∧
      Stmt.unspannedBody program.body = Stmt.unspannedBody
        [conditionStmt [] 7, .expression ⟨8, 9⟩ (.symbol ⟨8, 9⟩ "c")]) ∧
    ∀ program, Program.ofTokens "m.py" severedLines ≠ .ok program := by
  have parsed : Program.ofTokens "m.py" (conditionLine ++ ⟨.newline, "\n", ⟨7, 8⟩⟩ ::
      [⟨.identifier, "c", ⟨8, 9⟩⟩, ⟨.newline, "\n", ⟨9, 10⟩⟩] ++ [⟨.eof, "", ⟨10, 10⟩⟩]) =
      .ok ⟨[conditionStmt [] 7, .expression ⟨8, 9⟩ (.symbol ⟨8, 9⟩ "c")], ⟨0, 10⟩⟩ := by
    with_unfolding_all rfl
  have parsed' : Program.ofTokens "m.py" (conditionLine ++ ⟨.newline, "\n", ⟨7, 8⟩⟩ ::
      [⟨.elseKw, "else", ⟨8, 12⟩⟩, ⟨.colon, ":", ⟨12, 13⟩⟩, ⟨.identifier, "c", ⟨14, 15⟩⟩,
        ⟨.newline, "\n", ⟨15, 16⟩⟩] ++ [⟨.eof, "", ⟨16, 16⟩⟩]) =
      .ok ⟨[conditionStmt [.expression ⟨14, 15⟩ (.symbol ⟨14, 15⟩ "c")] 15], ⟨0, 16⟩⟩ := by
    with_unfolding_all rfl
  have marked : (⟨.semicolon, ";", ⟨7, 8⟩⟩ : Token).kind = .semicolon := rfl
  have spelled : closedLines.map Token.spelling =
      List.map Token.spelling (conditionLine ++ ⟨.semicolon, ";", ⟨7, 8⟩⟩ ::
        ⟨.newline, "\n", ⟨7, 8⟩⟩ :: [⟨.identifier, "c", ⟨8, 9⟩⟩, ⟨.newline, "\n", ⟨9, 10⟩⟩] ++
        [⟨.eof, "", ⟨10, 10⟩⟩]) := rfl
  have spelled' : severedLines.map Token.spelling =
      List.map Token.spelling (conditionLine ++ ⟨.semicolon, ";", ⟨7, 8⟩⟩ ::
        ⟨.newline, "\n", ⟨7, 8⟩⟩ :: [⟨.elseKw, "else", ⟨8, 12⟩⟩, ⟨.colon, ":", ⟨12, 13⟩⟩,
          ⟨.identifier, "c", ⟨14, 15⟩⟩, ⟨.newline, "\n", ⟨15, 16⟩⟩] ++
        [⟨.eof, "", ⟨16, 16⟩⟩]) := rfl
  constructor
  · exact (Program.ofTokens_semicolon marked rfl rfl rfl parsed spelled).1 rfl
  · exact (Program.ofTokens_semicolon marked rfl rfl rfl parsed' spelled').2 rfl (by decide)

/-- With a semicolon in `if a: b`, the next line cannot start with `else`. -/
theorem Program.semicolon_before_else :
    Stage.opening.after conditionLine = .reading ∧
    Program.ofTokens "m.py" (conditionLine ++ [⟨.newline, "\n", ⟨7, 8⟩⟩,
      ⟨.elseKw, "else", ⟨8, 12⟩⟩, ⟨.colon, ":", ⟨12, 13⟩⟩, ⟨.identifier, "c", ⟨14, 15⟩⟩,
      ⟨.newline, "\n", ⟨15, 16⟩⟩, ⟨.eof, "", ⟨16, 16⟩⟩]) =
        .ok ⟨[conditionStmt [.expression ⟨14, 15⟩ (.symbol ⟨14, 15⟩ "c")] 15], ⟨0, 16⟩⟩ ∧
    Program.ofTokens "m.py" severedLines =
      .error ⟨.unexpectedTokenDetailed "else" "expected an expression", ⟨9, "m.py"⟩⟩ :=
  ⟨rfl, by with_unfolding_all rfl, by with_unfolding_all rfl⟩

end DocSketch
