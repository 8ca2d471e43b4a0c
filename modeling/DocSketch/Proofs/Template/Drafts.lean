import DocSketch.Docstring
import DocSketch.Proofs.Template.TabStops
import DocSketch.Proofs.Types.Rendering

/-!
# Drafts

A draft is the text of a template that is put together from free text and from fields,
each with text behind it that cannot belong to its number.  Drafts can be joined in the
ways in which docstrings are, and each can be turned into a snippet.

* `Template.Free`, `Template.Delimits`: texts that stand for themselves.
* `Template.Drafts`: a text with fields that show given texts.
* `Template.Drafts.stops`: the snippet of a draft has a tab stop for each field.
-/

namespace DocSketch

namespace Template

/-- Nothing in a text has a meaning in templates. -/
def Free (text : String) : Prop := Unreserved text.toList

instance (text : String) : Decidable (Free text) :=
  inferInstanceAs (Decidable (Unreserved text.toList))

/-- Free text that does not start with a digit. -/
def Delimits (text : String) : Prop :=
  Free text ∧ text.toList.head?.any (fun c => !c.isDigit) = true

instance (text : String) : Decidable (Delimits text) :=
  inferInstanceAs (Decidable (_ ∧ _))

theorem Free.append {first second : String} (head : Free first) (rest : Free second) :
    Free (first ++ second) := by
  unfold Free Unreserved
  rw [String.toList_append]
  exact List.forall_mem_append.mpr ⟨head, rest⟩

/-- The text of a template with the given parts. -/
def draft (parts : List Part) : String := String.ofList (writeBlocks (parts.map Part.block))

theorem draft_append (first second : List Part) :
    draft (first ++ second) = draft first ++ draft second := by
  rw [draft, List.map_append, writeBlocks, List.flatMap_append, String.ofList_append]
  rfl

theorem previews_append : ∀ first second : List Part,
    previews (first ++ second) = previews first ++ previews second
  | [], _ => rfl
  | .text _ :: parts, second => previews_append parts second
  | .field preview :: parts, second => by
      rw [List.cons_append, previews, previews_append parts second]
      rfl

/-- A field is the block of its preview. -/
theorem toList_field (preview : Caption) {written : String}
    (same : preview.written = written.toList) :
    (Docstring.field written).toList = (Part.field preview).block.write := by
  have content := fieldContent_written preview
  unfold Docstring.field
  split
  case isTrue empty =>
    have nothing : written = "" := String.isEmpty_iff.mp empty
    rw [same, nothing] at content
    rw [Part.block, Block.write, content]
    rfl
  case isFalse some =>
    have nonempty : ¬ written.toList.isEmpty = true := by
      simpa using some
    rw [same, if_neg nonempty] at content
    rw [Part.block, Block.write, content, String.toList_append, String.toList_append]
    simp

/-- A text of a template whose fields show the given texts. -/
def Drafts (text : String) (shown : List String) : Prop :=
  ∃ parts, text = draft parts ∧ Separated parts ∧ previews parts = shown.map String.toList

namespace Drafts

theorem append {first second : String} {front back : List String} (head : Drafts first front)
    (rest : Drafts second back) : Drafts (first ++ second) (front ++ back) := by
  obtain ⟨parts, rfl, separated, fields⟩ := head
  obtain ⟨others, rfl, apart, more⟩ := rest
  refine ⟨parts ++ others, (draft_append parts others).symm, separated.append apart, ?_⟩
  rw [previews_append, fields, more, List.map_append]

/-- A free text is a draft without fields. -/
theorem free {text : String} (free : Free text) : Drafts text [] := by
  refine ⟨[.text (.ofFree text.toList free)], ?_, trivial, rfl⟩
  simp only [draft, List.map_cons, List.map_nil, Part.block, writeBlocks, List.flatMap_cons,
    List.flatMap_nil, Block.write, Caption.ofFree, List.append_nil, String.ofList_toList]

/-- A field and what delimits it are a draft of one preview. -/
theorem field {written plain tail : String} (shown : Displays written plain)
    (delimits : Delimits tail) : Drafts (Docstring.field written ++ tail) [plain] := by
  refine ⟨[.field ⟨written.toList, plain.toList, shown⟩, .text (.ofFree tail.toList delimits.1)],
    ?_, ⟨delimits.2, trivial⟩, rfl⟩
  rw [← String.toList_inj, String.toList_append, toList_field ⟨_, plain.toList, shown⟩ rfl]
  simp only [draft, List.map_cons, List.map_nil, Part.block, writeBlocks, List.flatMap_cons,
    List.flatMap_nil, String.toList_ofList, Block.write, Caption.ofFree, List.append_nil]

/-- Drafts that are joined are a draft. -/
theorem join {texts : List String} {shown : List (List String)}
    (each : List.Forall₂ Drafts texts shown) : Drafts (String.join texts) shown.flatten := by
  induction each with
  | nil => exact .free nofun
  | cons own others ih =>
      rw [String.join_cons, List.flatten_cons]
      exact own.append ih

/-- Drafts with free text between them are a draft. -/
theorem intercalate (separator : String) (between : Free separator) {texts : List String}
    {shown : List (List String)} (each : List.Forall₂ Drafts texts shown) :
    Drafts (separator.intercalate texts) shown.flatten := by
  induction each with
  | nil => exact .free nofun
  | cons own others ih =>
      cases others with
      | nil =>
          rw [String.intercalate_singleton, List.flatten_cons, List.flatten_nil, List.append_nil]
          exact own
      | cons next later =>
          rw [String.intercalate_cons_cons, List.flatten_cons]
          have before := own.append (.free between)
          rw [List.append_nil] at before
          exact before.append ih

/-- A draft can be numbered and converted, and the snippet has a tab stop for each of its
fields. -/
theorem stops {text : String} {shown : List String} (drafts : Drafts text shown) :
    ∃ numbered snippet, number .standard text = .ok numbered ∧
      convert .standard numbered = .ok snippet ∧
      Snippet.stops (Snippet.read snippet) =
        Snippet.Stop.numbered 1 (shown.map String.toList) := by
  obtain ⟨parts, rfl, separated, fields⟩ := drafts
  refine ⟨_, _, number_parts parts, convert_parts parts 1, ?_⟩
  rw [stops_snippetOf separated, fields]

end Drafts

end Template

end DocSketch
