/-!
# Byte spans

Positions in a text are byte offsets of its UTF-8 form, while the text itself is
read as a list of characters.  This module relates the two.

Offsets are natural numbers.  A program that keeps them in 32 bits has the same offsets for
every text of less than `2 ^ 32` bytes; all statements about positions are meant for such texts.

* `Span`: a half-open range of byte offsets.
* `Text.byteLength`: the number of bytes a list of characters takes.
* `Text.slice?`: the characters a span covers, if both of its ends lie between
  characters.
-/

namespace DocSketch

/-- A half-open range of byte offsets, which fit 32 bits in texts of less than `2 ^ 32` bytes. -/
structure Span where
  start : Nat
  stop : Nat
deriving DecidableEq, Repr, Inhabited

namespace Text

/-- Number of bytes of the UTF-8 form of `cs`. -/
def byteLength : List Char → Nat
  | [] => 0
  | c :: cs => c.utf8Size + byteLength cs

@[simp]
theorem byteLength_nil : byteLength [] = 0 := rfl

@[simp]
theorem byteLength_cons (c : Char) (cs : List Char) :
    byteLength (c :: cs) = c.utf8Size + byteLength cs := rfl

@[simp]
theorem byteLength_append (xs ys : List Char) :
    byteLength (xs ++ ys) = byteLength xs + byteLength ys := by
  induction xs with
  | nil => simp
  | cons x xs ih => simp [ih, Nat.add_assoc]

/-- What follows the first `n` bytes, or `none` if these end inside a character or
beyond the end of the text. -/
def dropBytes? : Nat → List Char → Option (List Char)
  | 0, cs => some cs
  | _ + 1, [] => none
  | n + 1, c :: cs =>
    if c.utf8Size ≤ n + 1 then dropBytes? (n + 1 - c.utf8Size) cs else none

/-- The first `n` bytes, or `none` if these end inside a character or beyond the end
of the text. -/
def takeBytes? : Nat → List Char → Option (List Char)
  | 0, _ => some []
  | _ + 1, [] => none
  | n + 1, c :: cs =>
    if c.utf8Size ≤ n + 1 then (takeBytes? (n + 1 - c.utf8Size) cs).map (c :: ·) else none

/-- The characters that `span` covers, or `none` if one of its ends is not between
two characters of the text. -/
def slice? (span : Span) (cs : List Char) : Option (List Char) :=
  if span.start ≤ span.stop then
    (dropBytes? span.start cs).bind (takeBytes? (span.stop - span.start))
  else
    none

/-- Dropping exactly the bytes of a leading part leaves what follows it. -/
theorem dropBytes?_byteLength (xs ys : List Char) :
    dropBytes? (byteLength xs) (xs ++ ys) = some ys := by
  induction xs with
  | nil => simp [dropBytes?]
  | cons x xs ih =>
    obtain ⟨k, hk⟩ : ∃ k, byteLength (x :: xs) = k + 1 :=
      ⟨x.utf8Size - 1 + byteLength xs, by have := x.utf8Size_pos; simp; omega⟩
    have hx : x.utf8Size ≤ k + 1 := by rw [← hk]; simp
    have hrest : k + 1 - x.utf8Size = byteLength xs := by rw [← hk]; simp
    rw [hk, List.cons_append, dropBytes?, if_pos hx, hrest, ih]

/-- Taking exactly the bytes of a leading part gives that part. -/
theorem takeBytes?_byteLength (xs ys : List Char) :
    takeBytes? (byteLength xs) (xs ++ ys) = some xs := by
  induction xs with
  | nil => simp [takeBytes?]
  | cons x xs ih =>
    obtain ⟨k, hk⟩ : ∃ k, byteLength (x :: xs) = k + 1 :=
      ⟨x.utf8Size - 1 + byteLength xs, by have := x.utf8Size_pos; simp; omega⟩
    have hx : x.utf8Size ≤ k + 1 := by rw [← hk]; simp
    have hrest : k + 1 - x.utf8Size = byteLength xs := by rw [← hk]; simp
    rw [hk, List.cons_append, takeBytes?, if_pos hx, hrest, ih, Option.map_some]

/-- The span of a middle part selects that part. -/
theorem slice?_append (xs ys zs : List Char) :
    slice? ⟨byteLength xs, byteLength xs + byteLength ys⟩ (xs ++ ys ++ zs) = some ys := by
  simp [slice?, dropBytes?_byteLength, takeBytes?_byteLength]

end Text

end DocSketch
