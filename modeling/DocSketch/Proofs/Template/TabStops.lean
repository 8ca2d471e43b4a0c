import DocSketch.Proofs.Template.Fields

/-!
# Tab stops of snippets

How an editor reads a snippet: `$n` is a tab stop, with as many digits as there are,
`${n:content}` is one that shows its content, a backslash hides a dollar sign, a closing
brace or a backslash, and everything else stands for itself.

* `Snippet.marks`: the characters of a snippet with what they mean.
* `Snippet.read`: the nodes of a snippet.
* `Snippet.stops`: its tab stops, as they come.
* `Template.stops_snippetOf`: the tab stops of the snippet of a template.
-/

namespace DocSketch

namespace Snippet

/-- Meanings of characters in a snippet. -/
inductive Mark where
  | literal (c : Char)
  | stop (digits : List Char)
  /-- Start of a tab stop that shows what follows, up to a closing brace. -/
  | opening (digits : List Char)
  | closing
deriving DecidableEq, Repr, Inhabited

/-- What a dollar sign before `cs` means, and how many characters belong to it. -/
def dollar? (cs : List Char) : Option (Mark × Nat) :=
  let digits := cs.takeWhile Char.isDigit
  if digits.isEmpty then
    match cs with
    | [] => none
    | c :: inside =>
      let digits := inside.takeWhile Char.isDigit
      if c = '\x7b' ∧ !digits.isEmpty ∧ (inside.dropWhile Char.isDigit).head? = some ':' then
        some (.opening digits, digits.length + 2)
      else
        none
  else
    some (.stop digits, digits.length)

/-- The characters of a snippet with what they mean. -/
def marks (cs : List Char) : List Mark :=
  match cs with
  | [] => []
  | '\\' :: c :: rest =>
    if c = '\\' ∨ c = '$' ∨ c = '\x7d' then .literal c :: marks rest
    else .literal '\\' :: marks (c :: rest)
  | '\x7d' :: rest => .closing :: marks rest
  | '$' :: rest =>
    match dollar? rest with
    | some (mark, length) => mark :: marks (rest.drop length)
    | none => .literal '$' :: marks rest
  | c :: rest => .literal c :: marks rest
termination_by cs.length
decreasing_by
  all_goals
    simp only [List.length_drop, List.length_cons]
    omega

/-- What an editor shows and stops at. -/
inductive Node where
  | char (c : Char)
  | stop (number : Nat)
  | placeholder (number : Nat) (content : List Node)
deriving Repr, Inhabited

def numberOf (digits : List Char) : Nat := Nat.ofDigitChars 10 digits 0

/-- Tab stops that nothing closes are text after all. -/
def unwind (current : List Node) : List (List Char × List Node) → List Node
  | [] => current.reverse
  | (digits, before) :: others =>
    unwind (current ++ ((['$', '\x7b'] ++ digits ++ [':']).map Node.char).reverse ++ before) others

/-- Gathers marks into nodes.  `current` holds the nodes of the innermost open tab stop, the
latest first; `outer` holds, for each open one, its digits and the nodes before it. -/
def gather (current : List Node) (outer : List (List Char × List Node)) : List Mark → List Node
  | [] => unwind current outer
  | .literal c :: marks => gather (.char c :: current) outer marks
  | .stop digits :: marks => gather (.stop (numberOf digits) :: current) outer marks
  | .opening digits :: marks => gather [] ((digits, current) :: outer) marks
  | .closing :: marks =>
    match outer with
    | [] => gather (.char '\x7d' :: current) [] marks
    | (digits, before) :: others =>
      gather (.placeholder (numberOf digits) current.reverse :: before) others marks

/-- The nodes of a snippet. -/
def read (snippet : String) : List Node := gather [] [] (marks snippet.toList)

/-- A tab stop with the nodes it shows. -/
structure Stop where
  number : Nat
  preview : Option (List Node)
deriving Repr, Inhabited

/-- The tab stop that a node is. -/
def Node.stop? : Node → Option Stop
  | .char _ => none
  | .stop number => some ⟨number, none⟩
  | .placeholder number content => some ⟨number, some content⟩

/-- The tab stops that are not inside of others, from left to right. -/
def stops (nodes : List Node) : List Stop := nodes.filterMap Node.stop?

/-- The tab stop of a field that shows a text; for an empty text it shows nothing. -/
def Stop.showing (number : Nat) (text : List Char) : Stop :=
  ⟨number, if text.isEmpty then none else some (text.map Node.char)⟩

/-- Tab stops that show the given texts and have the numbers from `number` on. -/
def Stop.numbered : Nat → List (List Char) → List Stop
  | _, [] => []
  | number, text :: texts => .showing number text :: numbered (number + 1) texts

/-- Escaped text is marked as literal. -/
theorem marks_literal (text rest : List Char) :
    marks (text.flatMap Template.snippetChar ++ rest) = text.map Mark.literal ++ marks rest := by
  induction text with
  | nil => rfl
  | cons c cs ih =>
      rw [List.flatMap_cons, List.append_assoc, List.map_cons, List.cons_append, ← ih]
      by_cases hidden : c = '\\' ∨ c = '$' ∨ c = '\x7d'
      · rw [Template.snippetChar, if_pos hidden, List.cons_append, List.singleton_append, marks,
          if_pos hidden]
      · rw [Template.snippetChar, if_neg hidden, List.singleton_append, marks]
        all_goals simp_all

/-- A dollar sign and digits are marked as a stop. -/
theorem marks_stop {digits rest : List Char} (some : digits ≠ [])
    (each : ∀ c ∈ digits, c.isDigit = true) (next : rest.takeWhile Char.isDigit = []) :
    marks ('$' :: (digits ++ rest)) = .stop digits :: marks rest := by
  have taken : (digits ++ rest).takeWhile Char.isDigit = digits := by
    rw [List.takeWhile_append_of_pos each, next, List.append_nil]
  have found : dollar? (digits ++ rest) = Option.some (.stop digits, digits.length) := by
    simp only [dollar?, taken, List.isEmpty_iff, some, ↓reduceIte]
  rw [marks]
  simp only [found, List.drop_left]

/-- A dollar sign, a brace, digits and a colon open a stop. -/
theorem marks_opening {digits : List Char} (rest : List Char) (some : digits ≠ [])
    (each : ∀ c ∈ digits, c.isDigit = true) :
    marks ('$' :: '\x7b' :: (digits ++ ':' :: rest)) = .opening digits :: marks rest := by
  have taken : (digits ++ ':' :: rest).takeWhile Char.isDigit = digits := by
    rw [List.takeWhile_append_of_pos each]
    exact List.append_nil digits
  have dropped : (digits ++ ':' :: rest).dropWhile Char.isDigit = ':' :: rest := by
    rw [List.dropWhile_append_of_pos each]
    rfl
  have found : dollar? ('\x7b' :: (digits ++ ':' :: rest)) =
      Option.some (.opening digits, digits.length + 2) := by
    simp [dollar?, taken, dropped, some]
  have behind : ('\x7b' :: (digits ++ ':' :: rest)).drop (digits.length + 2) = rest := by
    rw [List.drop_succ_cons, ← List.drop_drop, List.drop_left]
    rfl
  rw [marks]
  simp only [found, behind]

/-- Literal marks are gathered to characters. -/
theorem gather_literal (text : List Char) (current : List Node)
    (outer : List (List Char × List Node)) (rest : List Mark) :
    gather current outer (text.map Mark.literal ++ rest) =
      gather ((text.map Node.char).reverse ++ current) outer rest := by
  induction text generalizing current with
  | nil => rfl
  | cons c cs ih =>
      rw [List.map_cons, List.cons_append, gather, ih, List.map_cons, List.reverse_cons,
        List.append_assoc]
      rfl

end Snippet

namespace Template

open Snippet

/-- Whether a part is text that does not start with a digit. -/
def Part.isDelimiter : Part → Bool
  | text caption => caption.plain.head?.any fun c => !c.isDigit
  | field _ => false

/-- After every field comes text that cannot belong to its number. -/
def Separated : List Part → Prop
  | [] => True
  | .text _ :: parts => Separated parts
  | .field _ :: parts => parts.head?.any Part.isDelimiter = true ∧ Separated parts

theorem Separated.append {first second : List Part} (earlier : Separated first)
    (later : Separated second) : Separated (first ++ second) := by
  induction first with
  | nil => exact later
  | cons part parts ih =>
      cases part with
      | text caption => exact ih earlier
      | field preview =>
          obtain ⟨delimited, rest⟩ := earlier
          refine ⟨?_, ih rest⟩
          cases parts with
          | nil => exact nomatch delimited
          | cons next others => exact delimited

/-- The texts that the fields of a template show. -/
def previews : List Part → List (List Char)
  | [] => []
  | .text _ :: parts => previews parts
  | .field preview :: parts => preview.plain :: previews parts

/-- The node of a field that shows a text. -/
def stopNode (n : Nat) (text : List Char) : Node :=
  if text.isEmpty then .stop n else .placeholder n (text.map Node.char)

/-- The nodes of parts whose first field has the number `n`. -/
def nodesOf : Nat → List Part → List Node
  | _, [] => []
  | n, .text caption :: parts => caption.plain.map Node.char ++ nodesOf n parts
  | n, .field preview :: parts => stopNode n preview.plain :: nodesOf (n + 1) parts

/-- No digit stands behind a stop that is delimited. -/
theorem takeWhile_snippetOf {parts : List Part} (n : Nat)
    (delimited : parts.head?.any Part.isDelimiter = true) :
    (snippetOf n parts).takeWhile Char.isDigit = [] := by
  match parts, delimited with
  | .text ⟨_, c :: plain, _⟩ :: parts, delimited =>
      have other : c.isDigit = false := by
        simpa only [List.head?_cons, Option.any_some, Part.isDelimiter, Bool.not_eq_true'] using
          delimited
      rw [snippetOf, List.flatMap_cons, snippetChar]
      split
      · rfl
      · simp only [List.cons_append, List.takeWhile_cons, other, Bool.false_eq_true, ↓reduceIte]

/-- The digits of a number are read as the number. -/
theorem numberOf_toString (n : Nat) : numberOf (toString n).toList = n := by
  rw [numberOf, Nat.toString_eq_ofList_toDigits, String.toList_ofList]
  exact Nat.ofDigitChars_ten_toDigits

/-- The marks of a snippet are gathered to its parts. -/
theorem gather_snippetOf : ∀ (parts : List Part) (n : Nat) (current : List Node),
    Separated parts →
    gather current [] (Snippet.marks (snippetOf n parts)) = current.reverse ++ nodesOf n parts
  | [], n, current, _ => by
      rw [snippetOf, Snippet.marks]
      exact (List.append_nil _).symm
  | .text caption :: parts, n, current, separated => by
      rw [snippetOf, marks_literal, gather_literal, gather_snippetOf parts n _ separated, nodesOf,
        List.reverse_append, List.reverse_reverse, List.append_assoc]
  | .field preview :: parts, n, current, ⟨delimited, separated⟩ => by
      have digits := fun c (member : c ∈ (toString n).toList) => Text.isDigit_of_mem_toString member
      have some := toString_toList_ne_nil n
      by_cases blank : preview.plain.isEmpty
      · have next := takeWhile_snippetOf (n + 1) delimited
        simp only [snippetOf, writeStop, blank, ↓reduceIte, List.cons_append]
        rw [marks_stop some digits next, gather, numberOf_toString,
          gather_snippetOf parts (n + 1) _ separated, nodesOf, stopNode, if_pos blank,
          List.reverse_cons, List.append_assoc, List.singleton_append]
      · simp only [snippetOf, writeStop, blank, Bool.false_eq_true, ↓reduceIte, List.cons_append,
          List.nil_append, List.append_assoc]
        rw [marks_opening _ some digits, gather, marks_literal, gather_literal, Snippet.marks,
          gather, numberOf_toString, gather_snippetOf parts (n + 1) _ separated, nodesOf, stopNode,
          if_neg blank, List.append_nil, List.reverse_reverse, List.reverse_cons,
          List.append_assoc, List.singleton_append]

/-- An editor reads the snippet of a template as its texts and fields. -/
theorem read_snippetOf {parts : List Part} (n : Nat) (separated : Separated parts) :
    read (String.ofList (snippetOf n parts)) = nodesOf n parts := by
  rw [Snippet.read, String.toList_ofList, gather_snippetOf parts n [] separated, List.reverse_nil,
    List.nil_append]

/-- The stops of parts are numbered in their order. -/
theorem stops_nodesOf : ∀ (parts : List Part) (n : Nat),
    stops (nodesOf n parts) = Stop.numbered n (previews parts)
  | [], n => rfl
  | .text caption :: parts, n => by
      have none : (caption.plain.map Node.char).filterMap Node.stop? = [] := by
        rw [List.filterMap_map]
        exact List.filterMap_eq_nil_iff.mpr fun _ _ => rfl
      rw [nodesOf, stops, List.filterMap_append, none, List.nil_append, ← stops,
        stops_nodesOf parts n]
      rfl
  | .field preview :: parts, n => by
      have own : (stopNode n preview.plain).stop? = some (.showing n preview.plain) := by
        unfold stopNode Stop.showing
        split <;> rfl
      rw [nodesOf, stops, List.filterMap_cons_some own, ← stops, stops_nodesOf parts (n + 1)]
      rfl

/-- The tab stops of the snippet of a template are its fields. -/
theorem stops_snippetOf {parts : List Part} (separated : Separated parts) :
    stops (read (String.ofList (snippetOf 1 parts))) = Stop.numbered 1 (previews parts) := by
  rw [read_snippetOf 1 separated, stops_nodesOf]

end Template

end DocSketch
