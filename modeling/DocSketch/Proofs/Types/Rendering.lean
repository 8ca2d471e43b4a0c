import DocSketch.Proofs.Template.Escaping
import DocSketch.Types.Descriptor
import Mathlib.Data.List.Forall2

/-!
# Written types in templates

A type that is written for a template shows the type as it is written plainly: all texts
in it are escaped, and what is not escaped are the marks around types that are not built
in, which make the text between them opaque.

* `Template.Displays`: a text of a template shows a plain text.
* `Descriptor.renderWith_displays`, `Alternatives.renderWith_displays`: this for types.
* `renderWith_standsFor`: a type that is written for a template stands for the type there.
-/

namespace DocSketch

namespace Template

/-- In a template, `written` stands for `plain`. -/
def Displays (written plain : String) : Prop := Shows written.toList plain.toList

theorem Displays.empty : Displays "" "" := Shows.nil

theorem Displays.append {first second front back : String} (head : Displays first front)
    (rest : Displays second back) : Displays (first ++ second) (front ++ back) := by
  unfold Displays
  rw [String.toList_append, String.toList_append]
  exact Shows.append head rest

/-- An escaped text displays the text. -/
theorem escape_displays (text : String) : Displays (escape .standard text) text := by
  unfold Displays escape
  rw [String.toList_ofList]
  exact (escapeChars_spells text.toList).shows

/-- Texts with separators between them are displayed one after the other. -/
theorem Displays.intercalate {separator between : String} (join : Displays separator between)
    {written plain : List String} (each : List.Forall₂ Displays written plain) :
    Displays (separator.intercalate written) (between.intercalate plain) := by
  induction each with
  | nil => exact Shows.nil
  | cons own others ih =>
      cases others with
      | nil =>
          rw [String.intercalate_singleton, String.intercalate_singleton]
          exact own
      | cons next later =>
          rw [String.intercalate_cons_cons, String.intercalate_cons_cons]
          exact (own.append join).append ih

end Template

open Template

variable {format : TypeFormat}

/-- The marks make what stands between them opaque. -/
theorem TypeFormat.Angled.mark_displays (angled : format.Angled) (label : String) :
    Displays (format.mark (escape .standard label)) (format.mark label) := by
  have inside := escapeChars_spells label.toList
  have marked := Shows.marked inside .nil
  unfold Displays TypeFormat.mark
  rw [angled.opens, angled.closes]
  simpa [escape] using marked

/-- The name of a mapping displays itself. -/
theorem dict_displays : Displays "dict" "dict" :=
  Shows.of_free (by decide)

mutual

/-- A type written for a template shows the type. -/
theorem Descriptor.renderWith_displays (angled : format.Angled) : ∀ type : Descriptor,
    Displays (type.renderWith format (escape .standard)) (type.render format)
  | .leaf name => escape_displays name
  | .container name [] => escape_displays name
  | .container name (child :: children) => by
      have inside := (escape_displays format.alternativesJoin).intercalate
        (renderAll_displays angled (child :: children))
      unfold Descriptor.render
      rw [Descriptor.renderWith, Descriptor.renderWith]
      exact (((escape_displays name).append (escape_displays format.wrapOpen)).append inside).append
        (escape_displays format.wrapClose)
  | .mapping keys values => by
      have join := escape_displays format.alternativesJoin
      have inner := join.intercalate (renderAll_displays angled keys)
      have outer := join.intercalate (renderAll_displays angled values)
      unfold Descriptor.render
      rw [Descriptor.renderWith, Descriptor.renderWith]
      split
      · exact dict_displays
      · exact ((((dict_displays.append (escape_displays format.wrapOpen)).append inner).append
          (escape_displays format.mappingJoin)).append outer).append
          (escape_displays format.wrapClose)
  | .unresolved text => escape_displays text
  | .foreign text => by
      unfold Descriptor.render
      rw [Descriptor.renderWith, Descriptor.renderWith]
      split
      case h_1 label _ => exact angled.mark_displays label
      case h_2 => exact escape_displays text

/-- Each rendered alternative displays what is rendered without escapes. -/
theorem renderAll_displays (angled : format.Angled) : ∀ types : List Descriptor,
    List.Forall₂ Displays (renderAll format (escape .standard) types) (renderAll format id types)
  | [] => .nil
  | type :: types =>
      .cons (type.renderWith_displays angled) (renderAll_displays angled types)

end

/-- Alternatives written for a template show the alternatives. -/
theorem Alternatives.renderWith_displays (angled : format.Angled) (types : Alternatives) :
    Displays (types.renderWith format (escape .standard)) (types.render format) :=
  (escape_displays format.alternativesJoin).intercalate (renderAll_displays angled types)

/-- **Written types.** A type that is written for a template, its texts escaped, has no group
there and stands for the type as it is written plainly, and so do alternatives. -/
theorem renderWith_standsFor (angled : format.Angled) :
    (∀ type : Descriptor,
        StandsFor (.ofFormat format) (type.renderWith format (escape (.ofFormat format)))
          (type.render format)) ∧
      ∀ types : Alternatives,
        StandsFor (.ofFormat format) (types.renderWith format (escape (.ofFormat format)))
          (types.render format) := by
  rw [angled.options]
  constructor
  · intro type
    exact (type.renderWith_displays angled).standsFor
  · intro types
    exact (types.renderWith_displays angled).standsFor

/-- A format with braces around the alternatives, which are escaped. -/
theorem renderWith_standsFor_braced :
    let format : TypeFormat :=
      { wrapOpen := "\x7b", wrapClose := "\x7d", alternativesJoin := "\\", mappingJoin := "$" }
    let types : Alternatives :=
      [.mapping [.foreign "<a\x7b>b>", .leaf "<"] [.container "list" [.foreign "c>"]]]
    format.Angled ∧
      types.render format = "dict\x7b<a\x7b>b>\\<$list\x7bc>\x7d\x7d" ∧
      types.renderWith format (escape (.ofFormat format)) =
        "dict\\\x7b<a\\\x7b\\>b>\\\\\\<$list\\\x7bc\\>\\\x7d\\\x7d" ∧
      StandsFor (.ofFormat format) (types.renderWith format (escape (.ofFormat format)))
        (types.render format) := by
  intro format types
  have angled : format.Angled := ⟨rfl, rfl⟩
  exact ⟨angled, by decide +kernel, by cbv, (renderWith_standsFor angled).2 types⟩

end DocSketch
