import DocSketch.Proofs.Token.Locality
import Mathlib.Logic.Relation

/-!
# Reading as a run

A text is read in rounds.  A round measures the indentation of a line or takes a lexeme, and the
last one ends the text or meets a fault.

* `Reading`: a point of a run.
* `Reading.step`: one round.
* `Reading.step_cases`: what a round that is not the last one does.
* `Reading.Reaches`: the points that a run comes to.
* `Reading.Reaches.outcome_eq`: all of them have the same outcome.
* `Reading.exists_last`: every run has a last round, which gives the outcome.
-/

namespace DocSketch

open Lexeme Text

/-- A point in the reading of a text. -/
structure Reading where
  layout : Layout
  /-- The byte offset of what is left. -/
  offset : Nat
  /-- What is left of the text. -/
  rest : List Char
deriving DecidableEq, Repr

namespace Reading

variable {file : String} {reading next last : Reading}

/-- Nothing of the text has been read. -/
def start (text : List Char) : Reading := ⟨.initial, 0, text⟩

/-- Whether a line starts here, outside of brackets. -/
def AtLine (reading : Reading) : Prop :=
  reading.layout.lineStart = true ∧ reading.layout.nesting = 0

instance (reading : Reading) : Decidable reading.AtLine :=
  inferInstanceAs (Decidable (_ ∧ _))

/-- One round: where a line starts it is measured, and elsewhere a lexeme is taken. -/
def step (file : String) (reading : Reading) : Reading ⊕ Except Fault (List Token) :=
  match reading.rest with
  | [] => .inr (.ok (reading.layout.finish reading.offset))
  | c :: rest =>
    if reading.AtLine then
      let blanks := (c :: rest).takeWhile isBlank
      let after := (c :: rest).dropWhile isBlank
      match reading.layout.beginLine file blanks after reading.offset with
      | .error fault => .inr (.error fault)
      | .ok begun =>
        .inl ⟨{ begun with lineStart := false }, reading.offset + byteLength blanks, after⟩
    else
      match next? (c :: rest) with
      | none => .inr (.error ⟨.unrecognisedToken (String.singleton c), ⟨reading.offset, file⟩⟩)
      | some (cls, length) =>
        let chars := (c :: rest).take length
        .inl ⟨reading.layout.accept cls chars reading.offset, reading.offset + byteLength chars,
          (c :: rest).drop length⟩

/-- What reading on comes to. -/
def outcome (file : String) (reading : Reading) : Except Fault (List Token) :=
  reading.layout.scanFrom file reading.offset reading.rest

/-- The outcome of a reading is that of its step. -/
theorem outcome_of_step (file : String) (reading : Reading) :
    reading.outcome file = (reading.step file).elim (outcome file) id := by
  obtain ⟨layout, offset, rest⟩ := reading
  cases rest with
  | nil =>
      rw [outcome, Layout.scanFrom]
      rfl
  | cons c rest =>
      rw [outcome, Layout.scanFrom]
      simp only [step, AtLine]
      by_cases starts : layout.lineStart = true ∧ layout.nesting = 0
      · simp only [starts, and_self, ↓reduceIte]
        cases layout.beginLine file ((c :: rest).takeWhile isBlank)
          ((c :: rest).dropWhile isBlank) offset <;> rfl
      · simp only [starts, ↓reduceIte]
        split
        case h_1 unknown => simp only [unknown, Sum.elim_inr, id_eq]
        case h_2 cls length known => simp only [known, Sum.elim_inl, outcome]

/-- A step that goes on keeps the outcome. -/
theorem outcome_eq (goes : reading.step file = .inl next) :
    reading.outcome file = next.outcome file := by
  rw [outcome_of_step, goes, Sum.elim_inl]

/-- A step that stops is the outcome. -/
theorem outcome_of_stop {result : Except Fault (List Token)}
    (stops : reading.step file = .inr result) : reading.outcome file = result := by
  rw [outcome_of_step, stops, Sum.elim_inr, id_eq]

/-- A round that measures a line. -/
theorem step_atLine (more : reading.rest ≠ []) (starts : reading.AtLine) :
    reading.step file =
      match reading.layout.beginLine file (reading.rest.takeWhile isBlank)
        (reading.rest.dropWhile isBlank) reading.offset with
      | .error fault => .inr (.error fault)
      | .ok begun => .inl ⟨{ begun with lineStart := false },
          reading.offset + byteLength (reading.rest.takeWhile isBlank),
          reading.rest.dropWhile isBlank⟩ := by
  obtain ⟨layout, offset, rest⟩ := reading
  cases rest with
  | nil => exact absurd rfl more
  | cons c rest => simp only [step, starts, ↓reduceIte]

/-- A round that takes a lexeme. -/
theorem step_lexeme (within : ¬reading.AtLine) {cls : LexemeClass} {length : Nat}
    (found : next? reading.rest = some (cls, length)) :
    reading.step file =
      .inl ⟨reading.layout.accept cls (reading.rest.take length) reading.offset,
        reading.offset + byteLength (reading.rest.take length), reading.rest.drop length⟩ := by
  obtain ⟨layout, offset, rest⟩ := reading
  cases rest with
  | nil =>
      have none : next? [] = none := rfl
      rw [none] at found
      cases found
  | cons c rest =>
      simp only [step, within, ↓reduceIte]
      rw [found]

/-- **Rounds.**  A round that is not the last one measures a line or takes a lexeme. -/
theorem step_cases (goes : reading.step file = .inl next) :
    (∃ begun, reading.rest ≠ [] ∧ reading.AtLine ∧
      reading.layout.beginLine file (reading.rest.takeWhile isBlank)
        (reading.rest.dropWhile isBlank) reading.offset = .ok begun ∧
      next = ⟨{ begun with lineStart := false },
        reading.offset + byteLength (reading.rest.takeWhile isBlank),
        reading.rest.dropWhile isBlank⟩) ∨
    ∃ cls length, ¬reading.AtLine ∧ next? reading.rest = some (cls, length) ∧
      next = ⟨reading.layout.accept cls (reading.rest.take length) reading.offset,
        reading.offset + byteLength (reading.rest.take length), reading.rest.drop length⟩ := by
  obtain ⟨layout, offset, rest⟩ := reading
  cases rest with
  | nil => cases goes
  | cons c rest =>
      simp only [step] at goes
      split at goes
      case isTrue starts =>
        split at goes
        case h_1 => cases goes
        case h_2 begun measured =>
          cases goes
          exact .inl ⟨begun, List.cons_ne_nil c rest, starts, measured, rfl⟩
      case isFalse within =>
        split at goes
        case h_1 => cases goes
        case h_2 cls length found =>
          cases goes
          exact .inr ⟨cls, length, within, found, rfl⟩

/-- A last round ends the text, or meets a line that cannot be measured or a character that no
lexeme starts with. -/
theorem stop_cases {result : Except Fault (List Token)} (stops : reading.step file = .inr result) :
    (reading.rest = [] ∧ result = .ok (reading.layout.finish reading.offset)) ∨
    (∃ fault, reading.AtLine ∧
      reading.layout.beginLine file (reading.rest.takeWhile isBlank)
        (reading.rest.dropWhile isBlank) reading.offset = .error fault ∧
      result = .error fault) ∨
    ∃ token, result = .error ⟨.unrecognisedToken token, ⟨reading.offset, file⟩⟩ := by
  obtain ⟨layout, offset, rest⟩ := reading
  cases rest with
  | nil =>
      cases stops
      exact .inl ⟨rfl, rfl⟩
  | cons c rest =>
      simp only [step] at stops
      split at stops
      case isTrue starts =>
        split at stops
        case h_1 fault failed =>
          cases stops
          exact .inr (.inl ⟨fault, starts, failed, rfl⟩)
        case h_2 => cases stops
      case isFalse within =>
        split at stops
        case h_1 =>
          cases stops
          exact .inr (.inr ⟨_, rfl⟩)
        case h_2 => cases stops

/-- A round passes the characters in front of what it leaves. -/
theorem step_passes (goes : reading.step file = .inl next) :
    ∃ chars, reading.rest = chars ++ next.rest ∧
      next.offset = reading.offset + byteLength chars := by
  obtain ⟨begun, -, -, -, rfl⟩ | ⟨cls, length, -, -, rfl⟩ := step_cases goes
  · exact ⟨_, List.takeWhile_append_dropWhile.symm, rfl⟩
  · exact ⟨_, (List.take_append_drop length _).symm, rfl⟩

/-- What is left gets shorter, or it was measured where a line starts. -/
theorem step_shortens (goes : reading.step file = .inl next) :
    next.rest.length < reading.rest.length ∨
      next.rest.length = reading.rest.length ∧ reading.AtLine ∧ ¬next.AtLine := by
  obtain ⟨begun, -, starts, -, rfl⟩ | ⟨cls, length, -, found, rfl⟩ := step_cases goes
  · have short := (List.dropWhile_suffix isBlank : _ <:+ reading.rest).length_le
    rcases Nat.lt_or_eq_of_le short with shorter | same
    · exact .inl shorter
    · exact .inr ⟨same, starts, fun again => Bool.false_ne_true again.1⟩
  · have positive := pos_of_next? found
    have inside := next?_le found
    refine .inl ?_
    rw [List.length_drop]
    omega

/-! ## Runs -/

/-- The points that a run comes to from here on. -/
def Reaches (file : String) : Reading → Reading → Prop :=
  Relation.ReflTransGen fun reading next => reading.step file = .inl next

namespace Reaches

/-- What every round keeps, a run keeps. -/
theorem invariant {Holds : Reading → Prop} (reached : reading.Reaches file last)
    (keeps : ∀ {reading next : Reading}, Holds reading → reading.step file = .inl next → Holds next)
    (holds : Holds reading) : Holds last := by
  induction reached with
  | refl => exact holds
  | tail _ goes ih => exact keeps ih goes

theorem outcome_eq (reached : reading.Reaches file last) :
    reading.outcome file = last.outcome file := by
  induction reached with
  | refl => rfl
  | tail _ goes ih => rw [ih, Reading.outcome_eq goes]

/-- A reading passes over characters of the text. -/
theorem passes (reached : reading.Reaches file last) :
    ∃ chars, reading.rest = chars ++ last.rest ∧
      last.offset = reading.offset + byteLength chars := by
  induction reached with
  | refl => exact ⟨[], rfl, rfl⟩
  | tail _ goes ih =>
      obtain ⟨front, split, begins⟩ := ih
      obtain ⟨chars, passed, ends⟩ := step_passes goes
      refine ⟨front ++ chars, ?_, ?_⟩
      · rw [split, passed, List.append_assoc]
      · rw [ends, begins, byteLength_append, Nat.add_assoc]

end Reaches

/-- Every run has a last round, which gives the outcome. -/
theorem exists_last (file : String) (reading : Reading) :
    ∃ last, reading.Reaches file last ∧ last.step file = .inr (reading.outcome file) := by
  -- A round leaves less of the text, or as much and no line to measure.
  induction measure : 2 * reading.rest.length + (if reading.AtLine then 1 else 0)
      using Nat.strongRecOn generalizing reading with
  | ind size ih =>
      cases goes : reading.step file with
      | inr result =>
          rw [outcome_of_stop goes]
          exact ⟨reading, .refl, goes⟩
      | inl next =>
          have smaller : 2 * next.rest.length + (if next.AtLine then 1 else 0) < size := by
            rw [← measure]
            rcases step_shortens goes with shorter | ⟨same, starts, within⟩
            · split <;> omega
            · rw [if_pos starts, if_neg within]
              omega
          obtain ⟨last, reached, stops⟩ := ih _ smaller next rfl
          rw [outcome_eq goes]
          exact ⟨last, .head goes reached, stops⟩

end Reading

end DocSketch
