import DocSketch.Proofs.Grammar.Names
import DocSketch.Proofs.Resolution.Faults
import DocSketch.Proofs.Template.Drafts
import DocSketch.Proofs.Token.Steps
import DocSketch.Proofs.Token.Words

/-!
# Docstrings are rendered

The templates of the functions of an accepted text are drafts: names are free text, and
types and annotations are shown by fields.  So every function is rendered, and the tab
stops of its snippet show what is known about it.

* `Outline`: what a docstring shows, in plain text.
* `Source.template_drafts`: a template has a field for each text of the outline.
* `Source.renderAll_succeeds`: no function of an accepted text fails to be rendered.
* `Source.rendered_stops`: the tab stops of a snippet.
-/

namespace DocSketch

open Docstring Template

/-- What a docstring shows: the types of parameters, of what is returned and yielded, and
of what is raised. -/
structure Outline where
  parameters : List String
  returns : Option String
  yields : Option String
  raises : List String
deriving DecidableEq, Repr, Inhabited

namespace Outline

/-- All types, in the order of the sections. -/
def entries (outline : Outline) : List String :=
  outline.parameters ++ outline.returns.toList ++ outline.yields.toList ++ outline.raises

/-- An entry has a field for its type and a blank one for its description. -/
def entryFields (entries : List String) : List String := entries.flatMap fun type => [type, ""]

/-- The fields of a docstring: a blank one for the summary, and those of the entries. -/
def fields (outline : Outline) : List String := "" :: entryFields outline.entries

/-- There is one field for the summary and two for each type. -/
theorem length_fields (outline : Outline) :
    outline.fields.length = 1 + 2 * outline.parameters.length +
      2 * outline.returns.toList.length + 2 * outline.yields.toList.length +
      2 * outline.raises.length := by
  have pairs : (entryFields outline.entries).length = outline.entries.length * 2 := by
    simp only [entryFields, List.length_flatMap, List.length_cons, List.length_nil,
      List.map_const', List.sum_replicate_nat]
  rw [fields, List.length_cons, pairs, entries, List.length_append, List.length_append,
    List.length_append]
  omega

end Outline

namespace Source

/-- What is known about the type of a parameter, in plain text. -/
def parameterText (source : Source) (context : ResolutionContext) (outer : ScopeId)
    (parameter : Parameter Expr) : Except Fault String :=
  match parameter.annotation, parameter.default with
  | some annotation, _ => .ok (source.textOf annotation.span)
  | none, some default => do
    let type ← source.typeOrText context outer default
    return type.render context.format
  | none, none => .ok ""

/-- The types of exits in plain text, if they have a section. -/
def exitsText (source : Source) (context : ResolutionContext) (scope : ScopeId)
    (omitNone : Bool) (exits : List Expr) : Except Fault (Option String) :=
  if exits.isEmpty then .ok none
  else do
    let types ← source.sectionTypes context scope [] exits
    let text := Alternatives.render context.format types
    return if omitNone ∧ text = "None" then none else some text

/-- What the docstring of the function `scope` shows. -/
def outline (source : Source) (context : ResolutionContext) (scope : ScopeId) :
    Except Fault Outline := do
  let found := source.scopes.get scope
  let parameters ←
    (documented found.parameters).mapM (source.parameterText context (found.parent.getD 0))
  let returns ← source.exitsText context scope true found.returns
  let yields ← source.exitsText context scope false found.yields
  let raised ← source.raisedTypes context scope [] found.raises
  return ⟨parameters, returns, yields, raised.map (Descriptor.render context.format)⟩

end Source

/-- A result is always recovered where only recoverable faults can occur. -/
theorem Docstring.recover_ok {α : Type} (fallback : α) {outcome : Except Fault α}
    (recoverable : ∀ fault, outcome = .error fault → fault.isRecoverable = true) :
    ∃ value, recover fallback outcome = .ok value := by
  cases outcome with
  | ok value => exact ⟨value, rfl⟩
  | error fault => exact ⟨fallback, by simp only [recover, recoverable fault rfl, ↓reduceIte]⟩

/-- Computations that succeed on each element succeed on all, and results that correspond
element by element correspond. -/
theorem mapM_ok {α β γ : Type} {related : β → γ → Prop} {first : α → Except Fault β}
    {second : α → Except Fault γ} {elements : List α}
    (each : ∀ element ∈ elements, ∃ value other, first element = .ok value ∧
      second element = .ok other ∧ related value other) :
    ∃ values others, elements.mapM first = .ok values ∧ elements.mapM second = .ok others ∧
      others.length = elements.length ∧ List.Forall₂ related values others := by
  induction elements with
  | nil => exact ⟨[], [], rfl, rfl, rfl, .nil⟩
  | cons element elements ih =>
      obtain ⟨value, other, found, matched, own⟩ := each element List.mem_cons_self
      obtain ⟨values, others, rest, more, size, all⟩ :=
        ih fun later member => each later (List.mem_cons_of_mem element member)
      refine ⟨value :: values, other :: others, ?_, ?_, congrArg (· + 1) size, .cons own all⟩
      · rw [List.mapM_cons, found, rest]
        rfl
      · rw [List.mapM_cons, matched, more]
        rfl

namespace Source

variable (source : Source) (context : ResolutionContext) (scope : ScopeId)

theorem resolver_stays_anywhere : (source.resolver context).Stays fun _ => True :=
  ⟨fun _ _ => trivial, fun _ => trivial, fun _ => trivial⟩

/-- A type is always found, if need be the text of the expression. -/
theorem typeOrText_ok (e : Expr) : ∃ type, source.typeOrText context scope e = .ok type := by
  refine recover_ok _ fun fault failed => ?_
  have faults := Resolver.alternatives_faults (resolver_stays_anywhere source context) Trail.start
    scope e trivial
  cases resolved : source.alternatives context scope e with
  | ok types =>
      simp only [typeOf, resolved, bind, Except.bind, pure, Except.pure, reduceCtorEq] at failed
  | error raised =>
      simp only [typeOf, resolved, bind, Except.bind, Except.error.injEq] at failed
      exact failed ▸ (Resolver.run_faults faults resolved).isRecoverable

/-- The types of exits are always found. -/
theorem sectionTypes_ok (exits : List Expr) (found : Alternatives) :
    ∃ types, source.sectionTypes context scope found exits = .ok types := by
  induction exits generalizing found with
  | nil => exact ⟨found, rfl⟩
  | cons exit others ih =>
      have stays := resolver_stays_anywhere source context
      have own : ∃ types, recover [.unresolved (source.textOf exit.span)]
          (source.exitTypes context scope [exit]) = .ok types :=
        recover_ok _ fun fault failed => (Resolver.run_faults (Resolver.alternativesOfAll_faults
          stays _ scope [exit] [] fun _ _ => trivial) failed).isRecoverable
      obtain ⟨types, resolved⟩ := own
      obtain ⟨all, rest⟩ := ih (Alternatives.extend found types)
      refine ⟨all, ?_⟩
      rw [sectionTypes, resolved]
      exact rest

/-- The types of what is raised are always found. -/
theorem raisedTypes_ok (raises : List Expr) (found : Alternatives) :
    ∃ types, source.raisedTypes context scope found raises = .ok types := by
  induction raises generalizing found with
  | nil => exact ⟨found, rfl⟩
  | cons raised others ih =>
      obtain ⟨type, resolved⟩ := typeOrText_ok source context scope raised
      obtain ⟨all, rest⟩ := ih (Alternatives.add found type)
      refine ⟨all, ?_⟩
      rw [raisedTypes, resolved]
      exact rest

variable {source context scope}

/-- With angle marks, texts are escaped for the standard options. -/
theorem literal_eq (angled : context.format.Angled) : literal context = escape .standard := by
  funext text
  rw [literal, angled.options]

/-- The type of a parameter is written so that its template shows the plain text. -/
theorem parameterType_displays (source : Source) (angled : context.format.Angled) (outer : ScopeId)
    (parameter : Parameter Expr) :
    ∃ written plain, source.parameterType context outer parameter = .ok written ∧
      source.parameterText context outer parameter = .ok plain ∧ Displays written plain := by
  unfold parameterType parameterText
  rw [literal_eq angled]
  cases parameter.annotation with
  | some annotation => exact ⟨_, _, rfl, rfl, escape_displays _⟩
  | none =>
      cases parameter.default with
      | some default =>
          obtain ⟨type, resolved⟩ := typeOrText_ok source context outer default
          simp only [resolved]
          exact ⟨_, _, rfl, rfl, type.renderWith_displays angled⟩
      | none => exact ⟨_, _, rfl, rfl, Shows.nil⟩

end Source

/-- An item has a field for its type and a blank one for its description. -/
theorem Docstring.item_drafts {written plain : String} (before after : String)
    (leading : Free before) (shown : Displays written plain)
    (trailing : Delimits (after ++ ": ")) :
    Drafts (item (before ++ field written ++ after)) [plain, ""] := by
  have start : Drafts (indentation ++ before) [] :=
    .free (Free.append (by decide) leading)
  have blank : Drafts (field "" ++ ".\n") [""] := .field .empty (by decide)
  have whole := (start.append (.field shown trailing)).append blank
  have same : item (before ++ field written ++ after) =
      indentation ++ before ++ (field written ++ (after ++ ": ")) ++ (blankField ++ ".\n") := by
    simp only [item, String.append_assoc]
  rw [same]
  exact whole

/-- An item that is nothing but a type has a field for it and a blank one. -/
theorem Docstring.item_field_drafts {written plain : String} (shown : Displays written plain) :
    Drafts (item (field written)) [plain, ""] := by
  have bare : "" ++ field written ++ "" = field written := by
    rw [String.empty_append, String.append_empty]
  have whole := item_drafts "" "" nofun shown (by decide)
  rwa [bare] at whole

/-- A titled section has the fields of its items, one after the other. -/
theorem Docstring.titled_drafts {title : String} (free : Free title) {items : List String}
    {shown : List (List String)} (each : List.Forall₂ Drafts items shown) :
    Drafts (titled title items) shown.flatten := by
  have start : Drafts (title ++ ":\n") [] := .free (free.append (by decide))
  exact start.append (.join each)

/-- Sections whose entries show the given types. -/
def Docstring.Sections (texts : List String) (entries : List String) : Prop :=
  ∃ shown, List.Forall₂ Drafts texts shown ∧ shown.flatten = Outline.entryFields entries

namespace Docstring.Sections

theorem nil : Sections [] [] := ⟨[], .nil, rfl⟩

theorem append {first second front back : List String} (head : Sections first front)
    (rest : Sections second back) : Sections (first ++ second) (front ++ back) := by
  obtain ⟨shown, each, fields⟩ := head
  obtain ⟨others, every, more⟩ := rest
  refine ⟨shown ++ others, List.rel_append each every, ?_⟩
  rw [List.flatten_append, fields, more, Outline.entryFields, Outline.entryFields,
    Outline.entryFields, List.flatMap_append]

/-- A section is left out if it has no items. -/
theorem titled (title : String) (free : Free title) {items entries : List String}
    (each : List.Forall₂ (fun text type => Drafts text [type, ""]) items entries) :
    Sections (if items.isEmpty then [] else [Docstring.titled title items]) entries := by
  have shown : List.Forall₂ Drafts items (entries.map fun type => [type, ""]) :=
    List.forall₂_map_right_iff.mpr each
  cases each with
  | nil => exact .nil
  | cons own others =>
      refine ⟨[_], .cons (titled_drafts free shown) .nil, ?_⟩
      rw [List.flatten_cons, List.flatten_nil, List.append_nil, Outline.entryFields,
        List.flatMap_def]

end Docstring.Sections

namespace Source

variable {source : Source} {context : ResolutionContext} {scope : ScopeId}

/-- The item of a parameter shows what is known about its type. -/
theorem parameterItem_drafts (source : Source) (angled : context.format.Angled) (outer : ScopeId)
    {parameter : Parameter Expr} (free : Free (starredName parameter)) :
    ∃ text type, source.parameterItem context outer parameter = .ok text ∧
      source.parameterText context outer parameter = .ok type ∧ Drafts text [type, ""] := by
  obtain ⟨written, plain, found, known, shown⟩ :=
    source.parameterType_displays angled outer parameter
  have leading : Free (starredName parameter ++ " (") := free.append (by decide)
  refine ⟨_, plain, ?_, known, item_drafts _ ")" leading shown (by decide)⟩
  rw [parameterItem, found]
  rfl

/-- The receiver is left out and no parameter is added. -/
theorem mem_of_mem_documented {parameter : Parameter Expr} {parameters : List (Parameter Expr)}
    (member : parameter ∈ documented parameters) : parameter ∈ parameters := by
  cases parameters with
  | nil => exact member
  | cons first others =>
      rw [documented] at member
      split at member
      · exact List.mem_cons_of_mem first member
      · exact member

/-- The section of parameters has an entry for each one that is documented. -/
theorem argsSection_sections (source : Source) (angled : context.format.Angled) (outer : ScopeId)
    {parameters : List (Parameter Expr)}
    (free : ∀ parameter ∈ parameters, Free (starredName parameter)) :
    ∃ texts types, source.argsSection context outer parameters = .ok texts ∧
      (documented parameters).mapM (source.parameterText context outer) = .ok types ∧
      types.length = (documented parameters).length ∧ Sections texts types := by
  obtain ⟨items, types, found, known, size, each⟩ := mapM_ok fun parameter member =>
    source.parameterItem_drafts angled outer (free parameter (mem_of_mem_documented member))
  refine ⟨_, types, ?_, known, size, .titled "Args" (by decide) each⟩
  rw [argsSection, found]
  rfl

/-- A section of exits has one entry, or is left out together with it. -/
theorem exitsSection_sections (source : Source) (scope : ScopeId) (angled : context.format.Angled)
    (title : String) (free : Free title) (omitNone : Bool) (exits : List Expr) :
    ∃ texts type, source.exitsSection context scope title omitNone exits = .ok texts ∧
      source.exitsText context scope omitNone exits = .ok type ∧
      type.toList.length = (if texts.isEmpty then 0 else 1) ∧ Sections texts type.toList := by
  unfold exitsSection exitsText
  split
  · exact ⟨[], none, rfl, rfl, rfl, .nil⟩
  · obtain ⟨types, resolved⟩ := sectionTypes_ok source context scope exits []
    simp only [resolved, bind, Except.bind, pure, Except.pure]
    split
    · exact ⟨[], none, rfl, rfl, rfl, .nil⟩
    · have shown := item_field_drafts (types.renderWith_displays angled)
      rw [literal_eq angled]
      exact ⟨_, some _, rfl, rfl, rfl, .titled title free (.cons shown .nil)⟩

/-- The section of exceptions has an entry for each type that is raised. -/
theorem raisesSection_sections (source : Source) (scope : ScopeId)
    (angled : context.format.Angled) (raises : List Expr) :
    ∃ texts raised, source.raisesSection context scope raises = .ok texts ∧
      source.raisedTypes context scope [] raises = .ok raised ∧
      Sections texts (raised.map (Descriptor.render context.format)) := by
  obtain ⟨raised, resolved⟩ := raisedTypes_ok source context scope raises []
  have each : List.Forall₂ (fun text type => Drafts text [type, ""])
      (raised.map fun type => item (field (type.renderWith context.format (literal context))))
      (raised.map (Descriptor.render context.format)) := by
    rw [List.forall₂_map_left_iff, List.forall₂_map_right_iff, literal_eq angled]
    exact List.forall₂_same.mpr fun type _ => item_field_drafts (type.renderWith_displays angled)
  refine ⟨_, raised, ?_, resolved, .titled "Raises" (by decide) each⟩
  rw [raisesSection, resolved]
  rfl

/-- The template of a function has the fields of its outline. -/
theorem template_drafts (angled : context.format.Angled) {signature : Signature}
    (declared : (source.scopes.get scope).signature = some signature)
    (free : ∀ parameter ∈ signature.parameters, Free (starredName parameter)) :
    ∃ text outline returns yields raised,
      source.template context scope = .ok text ∧ source.outline context scope = .ok outline ∧
      source.exitsSection context scope "Returns" true (source.scopes.get scope).returns =
        .ok returns ∧
      source.exitsSection context scope "Yields" false (source.scopes.get scope).yields =
        .ok yields ∧
      source.raisedTypes context scope [] (source.scopes.get scope).raises = .ok raised ∧
      Drafts text outline.fields ∧
      outline.fields.length = 1 + 2 * (documented (source.scopes.get scope).parameters).length +
        2 * (if returns.isEmpty then 0 else 1) + 2 * (if yields.isEmpty then 0 else 1) +
        2 * raised.length := by
  have parameters : (source.scopes.get scope).parameters = signature.parameters := by
    rw [Scope.parameters, declared]
    rfl
  obtain ⟨args, types, argsFound, typesFound, argsSize, argsShown⟩ :=
    source.argsSection_sections angled ((source.scopes.get scope).parent.getD 0) free
  obtain ⟨returns, returned, returnsFound, returnedFound, returnsSize, returnsShown⟩ :=
    source.exitsSection_sections scope angled "Returns" (by decide) true
      (source.scopes.get scope).returns
  obtain ⟨yields, yielded, yieldsFound, yieldedFound, yieldsSize, yieldsShown⟩ :=
    source.exitsSection_sections scope angled "Yields" (by decide) false
      (source.scopes.get scope).yields
  obtain ⟨raises, raised, raisesFound, raisedFound, raisesShown⟩ :=
    source.raisesSection_sections scope angled (source.scopes.get scope).raises
  obtain ⟨shown, each, fields⟩ :=
    ((argsShown.append returnsShown).append yieldsShown).append raisesShown
  have summary : Drafts (blankField ++ ".\n") [""] := Drafts.field .empty (by decide)
  have whole := Drafts.intercalate "\n" (by decide) (.cons summary each)
  refine ⟨"\n".intercalate ((blankField ++ ".\n") :: (args ++ returns ++ yields ++ raises)),
    ⟨types, returned, yielded, raised.map (Descriptor.render context.format)⟩, returns, yields,
    raised, ?_, ?_, returnsFound, yieldsFound, raisedFound, ?_, ?_⟩
  · simp only [template, declared, argsFound, returnsFound, yieldsFound, raisesFound, bind,
      Except.bind, pure, Except.pure]
  · simp only [outline, parameters, typesFound, returnedFound, yieldedFound, raisedFound, bind,
      Except.bind, pure, Except.pure]
  · rw [List.flatten_cons, fields] at whole
    exact whole
  · rw [parameters, Outline.length_fields, argsSize, returnsSize, yieldsSize, List.length_map]

/-- The name of a parameter and its stars have no meaning in a template. -/
theorem starredName_free {parameter : Parameter Expr}
    (word : ∀ c ∈ parameter.name.toList, Lexeme.isWordPart c = true) :
    Free (starredName parameter) := by
  have free : Free parameter.name := fun c member => isReserved_of_isWordPart (word c member)
  unfold starredName
  split
  · exact Free.append (by decide) free
  · exact Free.append (by decide) free
  · exact free
  · exact free

/-- A function of an accepted text has a signature, and the names in it are free text. -/
theorem signature_of_read {text file : String} (accepted : Source.read text file = .ok source)
    (function : (source.scopes.get scope).kind = .function) :
    ∃ signature, (source.scopes.get scope).signature = some signature ∧
      ∀ parameter ∈ signature.parameters, Free (starredName parameter) := by
  obtain ⟨tokens, program, scanned, parsed, rfl⟩ := eq_ofProgram_of_read accepted
  have drawn := scope_drawnFrom text file program scope
  obtain ⟨signature, declared⟩ := Option.isSome_iff_exists.mp (drawn.declared function)
  refine ⟨signature, declared, fun parameter member => starredName_free ?_⟩
  exact Program.word_of_declares (fun word => ∀ c ∈ word.toList, Lexeme.isWordPart c = true)
    (Token.scan_worded scanned) parsed (drawn.signatures signature declared) parameter member

/-- A template that is a draft is turned into a snippet with its fields. -/
theorem rendered_of_drafts (angled : context.format.Angled) {template : String}
    {shown : List String} (found : source.template context scope = .ok template)
    (drafts : Drafts template shown) :
    ∃ rendered, source.rendered context scope = .ok rendered ∧
      rendered.function = source.scopes.qualifiedName scope ∧
      Snippet.stops (Snippet.read rendered.snippet) =
        Snippet.Stop.numbered 1 (shown.map String.toList) := by
  obtain ⟨numbered, snippet, counted, converted, stops⟩ := drafts.stops
  refine ⟨⟨source.scopes.qualifiedName scope, template, numbered, snippet⟩, ?_, rfl, stops⟩
  simp only [rendered, angled.options, found, counted, converted, bind, Except.bind, pure,
    Except.pure]

/-- A method that yields, raises and returns.  The annotation of its parameter has characters
with a meaning in templates and in snippets. -/
def bracedText : String :=
  "class A:\n def f(self, x:\"\x7b$1\"):\n  yield 1\n  raise KeyError()\n  return \"s\"\n"

/-- The call `KeyError()` in it. -/
def raisedCall : Expr := .call ⟨50, 60⟩ (.symbol ⟨50, 58⟩ "KeyError") [] []

def bracedMethod : Source :=
  .ofProgram bracedText "m.py"
    ⟨[.classDef ⟨0, 73⟩ "A" [] []
        [.function ⟨10, 73⟩ "f"
          ⟨[⟨"self", none, none, .positional, ⟨16, 20⟩⟩,
            ⟨"x", some (.string ⟨24, 29⟩ .str "\x7b$1"), none, .positional, ⟨22, 29⟩⟩], none⟩
          [.expression ⟨34, 41⟩ (.yield ⟨34, 41⟩ (some (.number ⟨40, 41⟩ .int "1")) false),
            .raise ⟨44, 60⟩ (some raisedCall) none,
            .ret ⟨63, 73⟩ (some (.string ⟨70, 73⟩ .str "s"))] [] false] []], ⟨0, 74⟩⟩

theorem read_bracedMethod : Source.read bracedText "m.py" = .ok bracedMethod := by
  have scanned : Layout.scanWithin 80 .initial "m.py" 0 bracedText.toList =
      some (.ok [⟨.classKw, "class", ⟨0, 5⟩⟩, ⟨.identifier, "A", ⟨6, 7⟩⟩, ⟨.colon, ":", ⟨7, 8⟩⟩,
        ⟨.newline, "\n", ⟨8, 9⟩⟩, ⟨.indent, "", ⟨10, 10⟩⟩, ⟨.defKw, "def", ⟨10, 13⟩⟩,
        ⟨.identifier, "f", ⟨14, 15⟩⟩, ⟨.openParen, "(", ⟨15, 16⟩⟩,
        ⟨.identifier, "self", ⟨16, 20⟩⟩, ⟨.comma, ",", ⟨20, 21⟩⟩, ⟨.identifier, "x", ⟨22, 23⟩⟩,
        ⟨.colon, ":", ⟨23, 24⟩⟩, ⟨.string, "\"\x7b$1\"", ⟨24, 29⟩⟩, ⟨.closeParen, ")", ⟨29, 30⟩⟩,
        ⟨.colon, ":", ⟨30, 31⟩⟩, ⟨.newline, "\n", ⟨31, 32⟩⟩, ⟨.indent, "", ⟨34, 34⟩⟩,
        ⟨.yieldKw, "yield", ⟨34, 39⟩⟩, ⟨.number, "1", ⟨40, 41⟩⟩, ⟨.newline, "\n", ⟨41, 42⟩⟩,
        ⟨.raiseKw, "raise", ⟨44, 49⟩⟩, ⟨.identifier, "KeyError", ⟨50, 58⟩⟩,
        ⟨.openParen, "(", ⟨58, 59⟩⟩, ⟨.closeParen, ")", ⟨59, 60⟩⟩,
        ⟨.newline, "\n", ⟨60, 61⟩⟩, ⟨.returnKw, "return", ⟨63, 69⟩⟩,
        ⟨.string, "\"s\"", ⟨70, 73⟩⟩, ⟨.newline, "\n", ⟨73, 74⟩⟩, ⟨.dedent, "", ⟨74, 74⟩⟩,
        ⟨.dedent, "", ⟨74, 74⟩⟩, ⟨.eof, "", ⟨74, 74⟩⟩]) := by
    with_unfolding_all rfl
  exact read_of_steps 80 scanned (by with_unfolding_all rfl)

/-- **Every function is rendered.** For every accepted text and every context that writes
foreign types in angle brackets, the request for all functions gives one result for each
function scope, in the order of their numbers and under their qualified names. -/
theorem renderAll_succeeds {text file : String} {source : Source}
    (accepted : Source.read text file = .ok source) (context : ResolutionContext)
    (angled : context.format.Angled) :
    ∃ results, source.renderAll context none = .ok results ∧
      results.map Rendered.function =
        ((List.range source.scopes.size).filter fun scope =>
          (source.scopes.get scope).kind = .function).map source.scopes.qualifiedName := by
  have functions : source.scopes.functions = (List.range source.scopes.size).filter fun scope =>
      (source.scopes.get scope).kind = .function := by
    obtain ⟨tokens, program, -, -, rfl⟩ := eq_ofProgram_of_read accepted
    exact functions_ofProgram text file program
  have each : ∀ scope ∈ source.scopes.functions, ∃ rendered name,
      source.rendered context scope = .ok rendered ∧
        (pure (source.scopes.qualifiedName scope) : Except Fault String) = .ok name ∧
        rendered.function = name := by
    intro scope member
    rw [functions, List.mem_filter, decide_eq_true_eq] at member
    obtain ⟨signature, declared, free⟩ := signature_of_read accepted member.2
    obtain ⟨template, outline, _, _, _, found, -, -, -, -, drafts, -⟩ :=
      template_drafts angled declared free
    obtain ⟨rendered, done, named, -⟩ := rendered_of_drafts angled found drafts
    exact ⟨rendered, _, done, rfl, named⟩
  obtain ⟨results, names, done, named, -, same⟩ := mapM_ok each
  have all : names = source.scopes.functions.map source.scopes.qualifiedName := by
    rw [List.mapM_pure] at named
    exact (Except.ok.inj named).symm
  refine ⟨results, ?_, ?_⟩
  · rw [renderAll, requested]
    exact done
  · rw [← functions, ← all, ← List.forall₂_eq_eq_eq, List.forall₂_map_left_iff]
    exact same

/-- The method of a class is rendered under its qualified name. -/
theorem renderAll_succeeds_bracedMethod :
    ∃ results, Source.read bracedText "m.py" = .ok bracedMethod ∧
      bracedMethod.renderAll {} none = .ok results ∧
      results.map Rendered.function = ["A.f"] := by
  obtain ⟨results, done, names⟩ := renderAll_succeeds read_bracedMethod {} ⟨rfl, rfl⟩
  refine ⟨results, read_bracedMethod, done, names.trans ?_⟩
  with_unfolding_all rfl

end Source

end DocSketch
