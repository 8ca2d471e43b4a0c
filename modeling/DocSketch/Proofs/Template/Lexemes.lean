import DocSketch.Proofs.Template.Escaping
import Mathlib.Data.List.Basic

/-!
# Lexemes of templates

A template is a sequence of lexemes: a backslash with the character that it hides, opaque
text, or a character of its own.  An opening angle bracket is a lexeme of its own if nothing
closes it, so no closing one comes later as a lexeme of its own.  A sequence of lexemes with
this property is read back from its characters.  The braces that count are the lexemes of
their own.

* `Template.Balanced`: text whose angle brackets pair up.
* `Template.lexemes`: the lexemes of a template.
* `Template.Placed`: where angle brackets and a last backslash stand.
* `Template.placed_lexemes`, `Template.lexemes_flatMap`: the lexemes of a template are placed,
  and placed lexemes are read back.
* `Template.cut_eq_foldr`: cutting a template puts its lexemes one before the other.
-/

namespace DocSketch

namespace Template

/-! ## Opaque text -/

/-- Text whose angle brackets pair up, where a backslash hides what follows it. -/
inductive Balanced : List Char → Prop
  | nil : Balanced []
  | escaped (c : Char) {text : List Char} (rest : Balanced text) : Balanced ('\\' :: c :: text)
  | char {c : Char} {text : List Char} (unescaped : c ≠ '\\') (opens : c ≠ '<') (closes : c ≠ '>')
      (rest : Balanced text) : Balanced (c :: text)
  | nested {inner text : List Char} (inside : Balanced inner) (rest : Balanced text) :
      Balanced ('<' :: (inner ++ '>' :: text))

/-- Number of characters up to the bracket that closes `depth` brackets and one more. -/
abbrev closingLength? (depth : Nat) (cs : List Char) : Option Nat :=
  runLength? ['<'] ['>'] depth cs

@[simp]
theorem closingLength?_nil (depth : Nat) : closingLength? depth [] = none := by
  rw [closingLength?, runLength?.eq_def]

/-- Nothing is escaped by a backslash at the end of the text. -/
@[simp]
theorem closingLength?_slash (depth : Nat) : closingLength? depth ['\\'] = none := by
  rw [closingLength?, runLength?.eq_def]
  simp

/-- An escaped character opens and closes nothing. -/
@[simp]
theorem closingLength?_escaped (depth : Nat) (c : Char) (rest : List Char) :
    closingLength? depth ('\\' :: c :: rest) = (closingLength? depth rest).map (2 + ·) := by
  rw [closingLength?, runLength?.eq_def]
  simp

/-- Another angle has to be closed first. -/
@[simp]
theorem closingLength?_opens (depth : Nat) (rest : List Char) :
    closingLength? depth ('<' :: rest) = (closingLength? (depth + 1) rest).map (1 + ·) := by
  rw [closingLength?, runLength?.eq_def]
  simp

/-- The angle that is open is closed. -/
@[simp]
theorem closingLength?_closes_zero (rest : List Char) :
    closingLength? 0 ('>' :: rest) = some 1 := by
  rw [closingLength?, runLength?.eq_def]
  simp

/-- An angle inside is closed. -/
@[simp]
theorem closingLength?_closes_succ (depth : Nat) (rest : List Char) :
    closingLength? (depth + 1) ('>' :: rest) = (closingLength? depth rest).map (1 + ·) := by
  rw [closingLength?, runLength?.eq_def]
  simp

/-- Any other character is inside. -/
theorem closingLength?_char {c : Char} (unescaped : c ≠ '\\') (opens : c ≠ '<') (closes : c ≠ '>')
    (depth : Nat) (rest : List Char) :
    closingLength? depth (c :: rest) = (closingLength? depth rest).map (1 + ·) := by
  rw [closingLength?, runLength?.eq_def]
  simp [unescaped, opens.symm, closes.symm]

/-- Balanced text is inside. -/
theorem closingLength?_balanced {text : List Char} (balanced : Balanced text) (depth : Nat)
    (rest : List Char) :
    closingLength? depth (text ++ rest) = (closingLength? depth rest).map (text.length + ·) := by
  induction balanced generalizing depth rest with
  | nil => simp
  | escaped c _ ih =>
      rw [List.cons_append, List.cons_append, closingLength?_escaped, ih, Option.map_map]
      congr 1
      funext length
      simp only [Function.comp_apply, List.length_cons]
      omega
  | char unescaped opens closes _ ih =>
      rw [List.cons_append, closingLength?_char unescaped opens closes, ih, Option.map_map]
      congr 1
      funext length
      simp only [Function.comp_apply, List.length_cons]
      omega
  | nested _ _ inside ih =>
      rw [List.cons_append, List.append_assoc, List.cons_append, closingLength?_opens, inside,
        closingLength?_closes_succ, ih, Option.map_map, Option.map_map, Option.map_map]
      congr 1
      funext length
      simp only [Function.comp_apply, List.length_cons, List.length_append]
      omega

/-- A bracket is closed by the first one after text whose brackets pair up. -/
theorem exists_balanced (depth : Nat) (cs : List Char)
    (closed : (closingLength? depth cs).isSome = true) :
    ∃ inner rest, Balanced inner ∧ cs = inner ++ '>' :: rest := by
  -- Behind an opening bracket there are two texts to find, the second one behind the first.
  induction size : cs.length using Nat.strongRecOn generalizing depth cs with
  | _ n ih =>
      cases cs with
      | nil => simp at closed
      | cons c rest =>
          by_cases closes : c = '>'
          · subst closes
            exact ⟨[], rest, .nil, rfl⟩
          by_cases opens : c = '<'
          · subst opens
            rw [closingLength?_opens, Option.isSome_map] at closed
            obtain ⟨first, after, inside, rfl⟩ :=
              ih rest.length (by rw [← size, List.length_cons]; omega) (depth + 1) rest closed rfl
            rw [closingLength?_balanced inside, Option.isSome_map, closingLength?_closes_succ,
              Option.isSome_map] at closed
            have shorter : after.length < n := by
              rw [← size]
              simp only [List.length_cons, List.length_append]
              omega
            obtain ⟨second, behind, outside, rfl⟩ := ih after.length shorter depth after closed rfl
            exact ⟨'<' :: (first ++ '>' :: second), behind, .nested inside outside, by simp⟩
          by_cases escapes : c = '\\'
          · subst escapes
            cases rest with
            | nil => simp at closed
            | cons hidden rest =>
                rw [closingLength?_escaped, Option.isSome_map] at closed
                have shorter : rest.length < n := by
                  rw [← size]
                  simp only [List.length_cons]
                  omega
                obtain ⟨inner, behind, inside, rfl⟩ := ih rest.length shorter depth rest closed rfl
                exact ⟨'\\' :: hidden :: inner, behind, .escaped hidden inside, rfl⟩
          · rw [closingLength?_char escapes opens closes, Option.isSome_map] at closed
            have shorter : rest.length < n := by
              rw [← size]
              simp only [List.length_cons]
              omega
            obtain ⟨inner, behind, inside, rfl⟩ := ih rest.length shorter depth rest closed rfl
            exact ⟨c :: inner, behind, .char escapes opens closes inside, rfl⟩

/-- An angle is opaque up to the one that closes it. -/
theorem opaqueLength_opens (rest : List Char) :
    opaqueLength .standard ('<' :: rest) =
      match closingLength? 0 rest with
      | some length => 1 + length
      | none => 0 := by
  have opener : TemplateOptions.standard.opaqueOpen.toList = ['<'] := by decide
  have isOpener : (['<'] : List Char) ≠ [] ∧ ['<'].isPrefixOf ('<' :: rest) := ⟨by decide, rfl⟩
  rw [opaqueLength, opener, if_pos isOpener]
  rfl

/-- Balanced text between angles is opaque with them. -/
theorem opaqueLength_balanced {inner : List Char} (balanced : Balanced inner) (rest : List Char) :
    opaqueLength .standard ('<' :: (inner ++ '>' :: rest)) = inner.length + 2 := by
  rw [opaqueLength_opens, closingLength?_balanced balanced, closingLength?_closes_zero,
    Option.map_some]
  simp only
  omega

/-- An angle that is not closed is not opaque. -/
theorem opaqueLength_eq_zero {rest : List Char} :
    opaqueLength .standard ('<' :: rest) = 0 ↔ closingLength? 0 rest = none := by
  rw [opaqueLength_opens]
  cases closingLength? 0 rest with
  | none => simp
  | some length => simp

/-! ## Lexemes -/

/-- A part of a template that is read as one. -/
inductive Lexeme where
  /-- A character behind a backslash. -/
  | escaped (c : Char)
  /-- Opaque text, without the angle brackets around it. -/
  | run (inner : List Char)
  | char (c : Char)
  /-- A backslash that ends the template. -/
  | slash
deriving DecidableEq, Repr

def Lexeme.chars : Lexeme → List Char
  | escaped c => ['\\', c]
  | run inner => '<' :: inner ++ ['>']
  | char c => [c]
  | slash => ['\\']

/-- The lexemes of a template. -/
def lexemes (cs : List Char) : List Lexeme :=
  match cs with
  | [] => []
  | c :: rest =>
    if c = '\\' then
      match rest with
      | [] => [.slash]
      | hidden :: rest => .escaped hidden :: lexemes rest
    else if opaqueLength .standard (c :: rest) = 0 then
      .char c :: lexemes rest
    else
      .run (rest.take (opaqueLength .standard (c :: rest) - 2)) ::
        lexemes (rest.drop (opaqueLength .standard (c :: rest) - 1))
termination_by cs.length
decreasing_by
  all_goals
    simp only [List.length_drop, List.length_cons]
    omega

@[simp]
theorem lexemes_nil : lexemes [] = [] := by rw [lexemes]

/-- A backslash at the end is a lexeme of its own. -/
@[simp]
theorem lexemes_slash : lexemes ['\\'] = [.slash] := by
  rw [lexemes.eq_def]
  rfl

/-- An escaped character is a lexeme with its backslash. -/
@[simp]
theorem lexemes_escaped (c : Char) (rest : List Char) :
    lexemes ('\\' :: c :: rest) = .escaped c :: lexemes rest := by
  rw [lexemes.eq_def]
  rfl

/-- Any other character outside of angles is a lexeme. -/
theorem lexemes_char {c : Char} {rest : List Char} (unescaped : c ≠ '\\')
    (transparent : opaqueLength .standard (c :: rest) = 0) :
    lexemes (c :: rest) = .char c :: lexemes rest := by
  rw [lexemes.eq_def]
  simp only [if_neg unescaped, if_pos transparent]

/-- Balanced text between angles is one lexeme. -/
theorem lexemes_run {inner : List Char} (balanced : Balanced inner) (rest : List Char) :
    lexemes ('<' :: (inner ++ '>' :: rest)) = .run inner :: lexemes rest := by
  have size := opaqueLength_balanced balanced rest
  have some : ¬ inner.length + 2 = 0 := by omega
  rw [lexemes.eq_def]
  simp only [Char.reduceEq, ↓reduceIte, size, some, Nat.add_sub_cancel, List.take_left]
  congr 2
  rw [Nat.add_succ_sub_one, ← List.drop_drop, List.drop_left, List.drop_one, List.tail_cons]

/-- What holds of a template if it holds of what comes after its first lexeme holds of all. -/
theorem lexeme_induction {P : List Char → Prop} (nil : P []) (slash : P ['\\'])
    (escaped : ∀ c rest, P rest → P ('\\' :: c :: rest))
    (run : ∀ inner rest, Balanced inner → P rest → P ('<' :: (inner ++ '>' :: rest)))
    (char : ∀ c rest, c ≠ '\\' → opaqueLength .standard (c :: rest) = 0 → P rest → P (c :: rest))
    (cs : List Char) : P cs := by
  induction size : cs.length using Nat.strongRecOn generalizing cs with
  | _ n ih =>
      cases cs with
      | nil => exact nil
      | cons c rest =>
          have shorter : rest.length < n := by
            rw [← size, List.length_cons]
            omega
          by_cases escapes : c = '\\'
          · subst escapes
            cases rest with
            | nil => exact slash
            | cons hidden rest =>
                rw [List.length_cons] at shorter
                exact escaped hidden rest (ih rest.length (by omega) rest rfl)
          by_cases transparent : opaqueLength .standard (c :: rest) = 0
          · exact char c rest escapes transparent (ih rest.length shorter rest rfl)
          · have opens : c = '<' := by
              by_contra other
              exact transparent (opaqueLength_of_ne other rest)
            subst opens
            rw [opaqueLength_eq_zero, ← ne_eq, Option.ne_none_iff_isSome] at transparent
            obtain ⟨inner, behind, inside, rfl⟩ := exists_balanced 0 rest transparent
            rw [List.length_append, List.length_cons] at shorter
            exact run inner behind inside (ih behind.length (by omega) behind rfl)

/-- The lexemes of a text write it. -/
theorem flatMap_chars_lexemes (cs : List Char) : (lexemes cs).flatMap Lexeme.chars = cs := by
  induction cs using lexeme_induction with
  | nil => simp
  | slash => simp [Lexeme.chars]
  | escaped c rest ih => simp [Lexeme.chars, ih]
  | run inner rest balanced ih => simp [lexemes_run balanced, Lexeme.chars, ih]
  | char c rest unescaped transparent ih =>
      simp [lexemes_char unescaped transparent, Lexeme.chars, ih]

/-- A bracket that nothing closes has no closing bracket of its own behind it. -/
theorem opaqueLength_eq_zero_iff {cs : List Char} :
    opaqueLength .standard ('<' :: cs) = 0 ↔ .char '>' ∉ lexemes cs := by
  rw [opaqueLength_eq_zero]
  constructor
  · intro unclosed
    induction cs using lexeme_induction with
    | nil => simp
    | slash => simp
    | escaped c rest ih =>
        rw [closingLength?_escaped, Option.map_eq_none_iff] at unclosed
        simpa using ih unclosed
    | run inner rest balanced ih =>
        rw [closingLength?_opens, closingLength?_balanced balanced,
          closingLength?_closes_succ] at unclosed
        simp only [Option.map_eq_none_iff] at unclosed
        simpa [lexemes_run balanced] using ih unclosed
    | char c rest unescaped transparent ih =>
        rw [lexemes_char unescaped transparent, List.mem_cons, not_or]
        by_cases closes : c = '>'
        · subst closes
          simp at unclosed
        by_cases opens : c = '<'
        · subst opens
          exact ⟨by simp, ih (opaqueLength_eq_zero.mp transparent)⟩
        · rw [closingLength?_char unescaped opens closes, Option.map_eq_none_iff] at unclosed
          exact ⟨by simpa using Ne.symm closes, ih unclosed⟩
  · generalize 0 = depth
    intro absent
    induction cs using lexeme_induction generalizing depth with
    | nil => simp
    | slash => simp
    | escaped c rest ih =>
        rw [lexemes_escaped, List.mem_cons, not_or] at absent
        rw [closingLength?_escaped, ih depth absent.2, Option.map_none]
    | run inner rest balanced ih =>
        rw [lexemes_run balanced, List.mem_cons, not_or] at absent
        rw [closingLength?_opens, closingLength?_balanced balanced,
          closingLength?_closes_succ, ih depth absent.2]
        rfl
    | char c rest unescaped transparent ih =>
        rw [lexemes_char unescaped transparent, List.mem_cons, not_or] at absent
        have closes : c ≠ '>' := fun same => absent.1 (same ▸ rfl)
        by_cases opens : c = '<'
        · subst opens
          rw [closingLength?_opens, ih (depth + 1) absent.2, Option.map_none]
        · rw [closingLength?_char unescaped opens closes, ih depth absent.2, Option.map_none]

/-! ## Where lexemes stand -/

/-- Lexemes as they come from a template. -/
def Lexeme.Valid : Lexeme → Prop
  | escaped _ | slash => True
  | run inner => Balanced inner
  | char c => c ≠ '\\'

/-- A backslash of its own comes last, and an opening angle bracket of its own has no closing
one behind it. -/
def Lexeme.Before (first second : Lexeme) : Prop :=
  first ≠ .slash ∧ (first = .char '<' → second ≠ .char '>')

/-- Lexemes that are read as they stand. -/
structure Placed (ls : List Lexeme) : Prop where
  valid : ∀ l ∈ ls, l.Valid
  order : ls.Pairwise Lexeme.Before

/-- The lexemes of a text are in their places. -/
theorem placed_lexemes (cs : List Char) : Placed (lexemes cs) := by
  induction cs using lexeme_induction with
  | nil => exact ⟨by simp, by simp⟩
  | slash => exact ⟨by simp [Lexeme.Valid], by simp⟩
  | escaped c rest ih =>
      rw [lexemes_escaped]
      exact ⟨List.forall_mem_cons.mpr ⟨trivial, ih.valid⟩,
        List.pairwise_cons.mpr ⟨fun _ _ => ⟨by simp, by simp⟩, ih.order⟩⟩
  | run inner rest balanced ih =>
      rw [lexemes_run balanced]
      exact ⟨List.forall_mem_cons.mpr ⟨balanced, ih.valid⟩,
        List.pairwise_cons.mpr ⟨fun _ _ => ⟨by simp, by simp⟩, ih.order⟩⟩
  | char c rest unescaped transparent ih =>
      rw [lexemes_char unescaped transparent]
      refine ⟨List.forall_mem_cons.mpr ⟨unescaped, ih.valid⟩,
        List.pairwise_cons.mpr ⟨?_, ih.order⟩⟩
      intro later member
      refine ⟨by simp, ?_⟩
      intro opens closes
      cases opens
      exact opaqueLength_eq_zero_iff.mp transparent (closes ▸ member)

/-- A lexeme is read off if what follows does not change it. -/
theorem lexemes_chars_append {l : Lexeme} (valid : l.Valid) {cs : List Char}
    (order : ∀ later ∈ lexemes cs, l.Before later) (last : l = .slash → cs = []) :
    lexemes (l.chars ++ cs) = l :: lexemes cs := by
  cases l with
  | escaped c => simp [Lexeme.chars]
  | run inner =>
      rw [Lexeme.chars, List.cons_append, List.cons_append, List.append_assoc,
        List.singleton_append, lexemes_run valid]
  | slash =>
      rw [last rfl]
      simp [Lexeme.chars]
  | char c =>
      apply lexemes_char valid
      by_cases opens : c = '<'
      · subst opens
        rw [List.append_eq, List.nil_append, opaqueLength_eq_zero_iff]
        intro member
        exact (order _ member).2 rfl rfl
      · exact opaqueLength_of_ne opens _

/-- Placed lexemes are read back from their characters. -/
theorem lexemes_flatMap {ls : List Lexeme} (placed : Placed ls) :
    lexemes (ls.flatMap Lexeme.chars) = ls := by
  obtain ⟨valid, order⟩ := placed
  induction ls with
  | nil => simp
  | cons l ls ih =>
      obtain ⟨first, rest⟩ := List.forall_mem_cons.mp valid
      obtain ⟨before, order⟩ := List.pairwise_cons.mp order
      have tail := ih rest order
      rw [List.flatMap_cons, lexemes_chars_append first, tail]
      · rwa [tail]
      · rintro rfl
        cases ls with
        | nil => rfl
        | cons next ls => exact absurd rfl (before next List.mem_cons_self).1

/-! ## Braces that count -/

/-- Puts a lexeme before pieces. -/
def Lexeme.place (l : Lexeme) (pieces : List Piece) : List Piece :=
  if l = .char '\x7b' then .opening :: pieces
  else if l = .char '\x7d' then .closing :: pieces
  else prependText l.chars pieces

/-- A text is cut by putting each of its lexemes in its place. -/
theorem cut_eq_foldr (cs : List Char) :
    cut .standard cs = (lexemes cs).foldr Lexeme.place [] := by
  induction cs using lexeme_induction with
  | nil => rw [cut, lexemes_nil, List.foldr_nil]
  | slash =>
      rw [cut, lexemes_slash]
      simp [cut, Lexeme.place, Lexeme.chars]
  | escaped c rest ih =>
      rw [cut, lexemes_escaped, List.foldr_cons, ← ih]
      simp [Lexeme.place, Lexeme.chars]
  | run inner rest balanced ih =>
      have size := opaqueLength_balanced balanced rest
      have whole : '<' :: (inner ++ '>' :: rest) = (Lexeme.run inner).chars ++ rest := by
        simp [Lexeme.chars]
      have length : (Lexeme.run inner).chars.length = inner.length + 2 := by
        simp [Lexeme.chars]
      rw [lexemes_run balanced, List.foldr_cons, ← ih, cut, if_neg (by decide), size,
        if_pos (by omega), whole, ← length, List.take_left, List.drop_left]
      simp [Lexeme.place]
  | char c rest unescaped transparent ih =>
      rw [cut, lexemes_char unescaped transparent, List.foldr_cons, ← ih, if_neg unescaped,
        if_neg (by simpa using transparent)]
      simp [Lexeme.place, Lexeme.chars]

/-- The lexemes of a piece. -/
def Piece.lexemes : Piece → List Lexeme
  | opening => [.char '\x7b']
  | closing => [.char '\x7d']
  | text chars => Template.lexemes chars

/-- Not a brace that counts. -/
def Lexeme.IsText (l : Lexeme) : Prop := l ≠ .char '\x7b' ∧ l ≠ .char '\x7d'

/-- A text has no brace that counts. -/
def Piece.Quiet : Piece → Prop
  | text chars => ∀ l ∈ Template.lexemes chars, l.IsText
  | opening | closing => True

/-- A valid lexeme is the only one of its text. -/
theorem lexemes_chars {l : Lexeme} (valid : l.Valid) : lexemes l.chars = [l] := by
  have alone := lexemes_chars_append valid (by simp) (fun _ => rfl : l = .slash → [] = [])
  simpa using alone

/-- Text before pieces that have the lexemes `ls` adds its lexeme to them. -/
theorem prependText_lexemes {l : Lexeme} {ls : List Lexeme} {pieces : List Piece}
    (valid : l.Valid) (before : ∀ later ∈ ls, l.Before later) (text : l.IsText)
    (tail : pieces.flatMap Piece.lexemes = ls) (quiet : ∀ piece ∈ pieces, piece.Quiet) :
    (prependText l.chars pieces).flatMap Piece.lexemes = l :: ls ∧
      ∀ piece ∈ prependText l.chars pieces, piece.Quiet := by
  have alone := lexemes_chars valid
  have own : (Piece.text l.chars).Quiet := by
    simpa [Piece.Quiet, alone] using text
  cases pieces with
  | nil => exact ⟨by simpa [prependText, Piece.lexemes, alone] using tail, by simpa [prependText]⟩
  | cons piece pieces =>
      cases piece with
      | opening | closing =>
          exact ⟨by simpa [prependText, Piece.lexemes, alone] using tail,
            List.forall_mem_cons.mpr ⟨own, quiet⟩⟩
      | text others =>
          obtain ⟨first, rest⟩ := List.forall_mem_cons.mp quiet
          rw [List.flatMap_cons, Piece.lexemes] at tail
          have joined : lexemes (l.chars ++ others) = l :: lexemes others := by
            apply lexemes_chars_append valid
            · intro later member
              exact before later (tail ▸ List.mem_append_left _ member)
            · rintro rfl
              have none : ls = [] :=
                List.eq_nil_iff_forall_not_mem.mpr fun later member => (before later member).1 rfl
              rw [← flatMap_chars_lexemes others, (List.append_eq_nil_iff.mp (tail.trans none)).1]
              rfl
          constructor
          · rw [prependText, List.flatMap_cons, Piece.lexemes, joined, List.cons_append, tail]
          · refine List.forall_mem_cons.mpr ⟨?_, rest⟩
            rw [Piece.Quiet, joined]
            exact List.forall_mem_cons.mpr ⟨text, first⟩

/-- The pieces of a template have its lexemes, and all braces that count are pieces. -/
theorem foldr_place_lexemes {ls : List Lexeme} (placed : Placed ls) :
    (ls.foldr Lexeme.place []).flatMap Piece.lexemes = ls ∧
      ∀ piece ∈ ls.foldr Lexeme.place [], piece.Quiet := by
  obtain ⟨valid, order⟩ := placed
  induction ls with
  | nil => exact ⟨rfl, by simp⟩
  | cons l ls ih =>
      obtain ⟨first, rest⟩ := List.forall_mem_cons.mp valid
      obtain ⟨before, order⟩ := List.pairwise_cons.mp order
      obtain ⟨tail, quiet⟩ := ih rest order
      rw [List.foldr_cons, Lexeme.place]
      split
      case isTrue opens =>
        rw [List.flatMap_cons, tail, opens]
        exact ⟨rfl, List.forall_mem_cons.mpr ⟨trivial, quiet⟩⟩
      split
      case isTrue closes =>
        rw [List.flatMap_cons, tail, closes]
        exact ⟨rfl, List.forall_mem_cons.mpr ⟨trivial, quiet⟩⟩
      case isFalse opens closes =>
        exact prependText_lexemes first before ⟨opens, closes⟩ tail quiet

end Template

end DocSketch
