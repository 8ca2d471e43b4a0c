import DocSketch.Template.Opaque

/-!
# Structure of templates

Braces divide a template into nested groups.  A brace counts unless it is hidden, by a
backslash before it or by the marks of opaque text around it.  The scan that numbers the groups
is told from the tree that the braces nest a template into.

* `Template.cut`: a template cut at the braces that count.
* `Template.Segment`: a piece of plain text, or a group of segments.
* `Template.parse`: the segments of a template, or the brace that has no partner.
* `Template.writeAll`: segments as they stand in a template.
-/

namespace DocSketch

namespace Template

/-- A piece of a template: a brace that counts, or text between such braces. -/
inductive Piece where
  | opening
  | closing
  | text (chars : List Char)
deriving DecidableEq, Repr, Inhabited

def Piece.chars : Piece → List Char
  | opening => ['\x7b']
  | closing => ['\x7d']
  | text chars => chars

/-- Puts text before pieces; text before text becomes one piece. -/
def prependText (chars : List Char) : List Piece → List Piece
  | .text others :: pieces => .text (chars ++ others) :: pieces
  | pieces => .text chars :: pieces

/-- Cuts a template at the braces that count. -/
def cut (options : TemplateOptions) (cs : List Char) : List Piece :=
  match cs with
  | [] => []
  | c :: rest =>
    if c = '\\' then
      prependText (c :: rest.take 1) (cut options (rest.drop 1))
    else if opaqueLength options (c :: rest) ≠ 0 then
      prependText ((c :: rest).take (opaqueLength options (c :: rest)))
        (cut options ((c :: rest).drop (opaqueLength options (c :: rest))))
    else if c = '\x7b' then
      .opening :: cut options rest
    else if c = '\x7d' then
      .closing :: cut options rest
    else
      prependText [c] (cut options rest)
termination_by cs.length
decreasing_by
  all_goals
    simp only [List.length_drop, List.length_cons]
    omega

/-- Plain text, or a group in braces. -/
inductive Segment where
  | text (chars : List Char)
  | group (segments : List Segment)
deriving Repr, Inhabited

/-- Nests pieces into segments.  `current` holds the segments of the innermost open
group, the latest first; `outer` holds, for each open group, the offset of its brace and
the segments before it. -/
def nest (offset : Nat) (current : List Segment) (outer : List (Nat × List Segment)) :
    List Piece → Except Fault (List Segment)
  | [] =>
    match outer.getLast? with
    | none => .ok current.reverse
    | some (opened, _) => .error (malformed "unclosed `\x7b`" opened)
  | .opening :: pieces => nest (offset + 1) [] ((offset, current) :: outer) pieces
  | .closing :: pieces =>
    match outer with
    | [] => .error (malformed "unmatched `\x7d`" offset)
    | (_, before) :: others =>
      nest (offset + 1) (.group current.reverse :: before) others pieces
  | .text chars :: pieces =>
    nest (offset + Text.byteLength chars) (.text chars :: current) outer pieces

/-- The segments of a template. -/
def parse (options : TemplateOptions) (text : String) : Except Fault (List Segment) :=
  nest 0 [] [] (cut options text.toList)

mutual

def Segment.write : Segment → List Char
  | .text chars => chars
  | .group segments => ['\x7b'] ++ writeAll segments ++ ['\x7d']

def writeAll : List Segment → List Char
  | [] => []
  | segment :: segments => segment.write ++ writeAll segments

end

/-- Text at the start of a group, empty if it starts with another group. -/
def leadingText : List Segment → List Char
  | .text chars :: _ => chars
  | _ => []

/-- Whether a group is a field: its content ends with text that ends with the marker. -/
def isField (options : TemplateOptions) (segments : List Segment) : Bool :=
  match segments.getLast? with
  | some (.text chars) => options.fieldMarker.toList.isSuffixOf chars
  | _ => false

end Template

end DocSketch
