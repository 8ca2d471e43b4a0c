import DocSketch.Proofs.Grammar.Displays

/-!
# Calls, subscripts and lambdas are read back

* `Grammar.readArguments_spells`: the arguments of a call.
* `Grammar.readSliceItem_spells`: an item of a subscript.
* `Grammar.parametersRead`: the parameters of a lambda.
-/

namespace DocSketch

namespace Grammar

open Parse

variable {Next : TokenKind → Prop} {fuel : Nat} {level : Power} {kind : TokenKind}
  {text later : List Spelling} {e : Expr}

/-- Keywords as they are read: a name or two stars before the value. -/
def keywordText : Keyword Expr → List Spelling
  | ⟨none, value⟩ => fixed .power :: grouped value.spelling
  | ⟨some name, value⟩ => (.identifier, name) :: fixed .assignment :: grouped value.spelling

/-- Keyword arguments are written one by one. -/
theorem keywordTexts_eq_map (keywords : List (Keyword Expr)) :
    Expr.keywordTexts keywords = keywords.map keywordText := by
  induction keywords with
  | nil => rfl
  | cons keyword keywords ih =>
      obtain ⟨_ | name, value⟩ := keyword <;> rw [Expr.keywordTexts, ih] <;> rfl

/-- The given arguments have been read. -/
def AreArguments (arguments : List Expr) (keywords : List (Keyword Expr))
    (read : List Expr × List (Keyword Expr)) : Prop :=
  Expr.unspannedAll read.1 = Expr.unspannedAll arguments ∧
    Expr.unspannedKeywords read.2 = Expr.unspannedKeywords keywords

/-- Further arguments of a call and what closes it. -/
def furtherText (arguments : List Expr) (keywords : List (Keyword Expr)) : List Spelling :=
  continued (Expr.elementTexts arguments ++ Expr.keywordTexts keywords) ++ [fixed .closeParen]

/-- What follows an argument is a comma or the closing bracket. -/
theorem lead_furtherText (arguments : List Expr) (keywords : List (Keyword Expr))
    (next : TokenKind) : Divides (lead (furtherText arguments keywords) next) := by
  rw [furtherText, lead_append]
  exact lead_continued Divides _ divides_comma (divides_closing rfl)

/-- A positional argument and those that are read after it. -/
theorem readArguments_positional (known : Recovered e) {arguments : List Expr}
    {keywords : List (Keyword Expr)}
    (more : Spells (readMoreArguments fuel) (furtherText arguments keywords) Next
      (AreArguments arguments keywords))
    (enough : 8 * (e.elementText e.spelling).length + 9 ≤ fuel) :
    Spells (readArguments (fuel + 1)) (e.elementText e.spelling ++ furtherText arguments keywords)
      Next (AreArguments (e :: arguments) keywords) := by
  have argument : Spells (readArgument fuel) (e.elementText e.spelling) Divides
      (·.unspanned = e.unspanned) := by
    obtain ⟨fuel, rfl⟩ : ∃ less, fuel = less + 1 := ⟨fuel - 1, by omega⟩
    rw [readArgument]
    refine .last ((readExpr_element known (by omega)).mono (fun _ divides => divides.free)
      fun _ same => same) fun read same => ?_
    exact ifNotClause (fun _ divides => divides.noClause) (.pure same)
  obtain ⟨first, others, text, starts⟩ := elementText_starts e
  rw [readArguments]
  refine .get fun cursor ahead => ?_
  have kind : cursor.kind = first.1 := by
    rw [← peek_zero]
    exact ahead 0 first (by rw [text]; rfl)
  have plain : cursor.kind ≠ .closeParen ∧ cursor.kind ≠ .power ∧ cursor.kind ≠ .identifier := by
    rw [kind]
    obtain paren | star := starts <;> simp [*]
  rw [if_neg plain.1, if_neg plain.2.1, if_neg fun named => plain.2.2 named.1]
  refine .bind argument (fun read same => ?_) fun next _ => lead_furtherText _ _ next
  refine .last more fun reads sames => .pure ⟨?_, sames.2⟩
  simp only [Expr.unspannedAll, same, sames.1]

/-- A keyword argument and those that are read after it. -/
theorem readArguments_keyword {keyword : Keyword Expr} (known : Recovered keyword.value)
    {keywords : List (Keyword Expr)}
    (more : Spells (readMoreArguments fuel) (furtherText [] keywords) Next
      (AreArguments [] keywords))
    (enough : 8 * (keywordText keyword).length ≤ fuel) :
    Spells (readArguments (fuel + 1)) (keywordText keyword ++ furtherText [] keywords) Next
      (AreArguments [] (keyword :: keywords)) := by
  rw [readArguments]
  refine .get fun cursor ahead => ?_
  obtain ⟨_ | name, value⟩ := keyword
  · have kind : cursor.kind = .power := (peek_zero cursor).symm.trans (ahead 0 _ rfl)
    rw [if_neg (by simp [kind]), if_pos kind]
    simp only [keywordText, List.length_cons] at enough
    refine .step .advance fun _ _ => ?_
    refine .bind (readExpr_final known (by omega)) (fun read same => ?_)
      fun next _ => (lead_furtherText _ _ next).free
    refine .last more fun reads sames => .pure ⟨sames.1, ?_⟩
    simp only [Expr.unspannedKeywords, same, sames.2]
  · have kind : cursor.kind = .identifier := (peek_zero cursor).symm.trans (ahead 0 _ rfl)
    have second : cursor.peek 1 = .assignment := ahead 1 _ rfl
    rw [if_neg (by simp [kind]), if_neg (by simp [kind]), if_pos ⟨kind, second⟩]
    simp only [keywordText, List.length_cons] at enough
    refine .step .advance fun token spelled => .step .advance fun _ _ => ?_
    refine .bind (readExpr_final known (by omega)) (fun read same => ?_)
      fun next _ => (lead_furtherText _ _ next).free
    refine .last more fun reads sames => .pure ⟨sames.1, ?_⟩
    have value : token.value = name := congrArg Prod.snd spelled
    simp only [Expr.unspannedKeywords, same, sames.2, value]

/-- Further keyword arguments are read as they are written. -/
theorem readMoreArguments_keywords {keywords : List (Keyword Expr)}
    (known : ∀ keyword ∈ keywords, Recovered keyword.value)
    (enough : 8 * (furtherText [] keywords).length ≤ fuel) :
    Spells (readMoreArguments fuel) (furtherText [] keywords) Next (AreArguments [] keywords) := by
  induction keywords generalizing fuel with
  | nil =>
      obtain ⟨fuel, rfl⟩ : ∃ less, fuel = less + 1 :=
        ⟨fuel - 1, by simp [furtherText] at enough; omega⟩
      rw [readMoreArguments]
      refine .ifUneaten
        (fun _ _ => by simp [furtherText, Expr.elementTexts, Expr.keywordTexts, continued]) ?_
      exact .step (.expect rfl) fun _ _ => .pure ⟨rfl, rfl⟩
  | cons keyword keywords ih =>
      obtain ⟨first, known⟩ := List.forall_mem_cons.mp known
      have text : furtherText [] (keyword :: keywords) =
          fixed .comma :: (keywordText keyword ++ furtherText [] keywords) := by
        simp [furtherText, continued, keywordTexts_eq_map, Expr.elementTexts]
      rw [text] at enough ⊢
      rw [List.length_cons, List.length_append] at enough
      obtain ⟨fuel, rfl⟩ : ∃ less, fuel = less + 2 := ⟨fuel - 2, by omega⟩
      rw [readMoreArguments]
      exact .ifEaten rfl (readArguments_keyword first (ih known (by omega)) (by omega))

/-- Further arguments are read as they are written, positional ones before keywords. -/
theorem readMoreArguments_spells {arguments : List Expr} {keywords : List (Keyword Expr)}
    (known : ∀ e ∈ arguments, Recovered e)
    (named : ∀ keyword ∈ keywords, Recovered keyword.value)
    (enough : 8 * (furtherText arguments keywords).length + 8 ≤ fuel) :
    Spells (readMoreArguments fuel) (furtherText arguments keywords) Next
      (AreArguments arguments keywords) := by
  induction arguments generalizing fuel with
  | nil => exact readMoreArguments_keywords named (by omega)
  | cons e arguments ih =>
      obtain ⟨first, known⟩ := List.forall_mem_cons.mp known
      have text : furtherText (e :: arguments) keywords =
          fixed .comma :: (e.elementText e.spelling ++ furtherText arguments keywords) := by
        simp [furtherText, continued, Expr.elementTexts]
      rw [text] at enough ⊢
      rw [List.length_cons, List.length_append] at enough
      obtain ⟨fuel, rfl⟩ : ∃ less, fuel = less + 2 := ⟨fuel - 2, by omega⟩
      rw [readMoreArguments]
      exact .ifEaten rfl (readArguments_positional first (ih known (by omega)) (by omega))

/-- The arguments of a call are read as they are written. -/
theorem readArguments_spells {arguments : List Expr} {keywords : List (Keyword Expr)}
    (known : ∀ e ∈ arguments, Recovered e)
    (named : ∀ keyword ∈ keywords, Recovered keyword.value)
    (enough : 8 * (listed (Expr.elementTexts arguments ++ Expr.keywordTexts keywords) ++
      [fixed .closeParen]).length + 7 ≤ fuel) :
    Spells (readArguments fuel)
      (listed (Expr.elementTexts arguments ++ Expr.keywordTexts keywords) ++ [fixed .closeParen])
      Next (AreArguments arguments keywords) := by
  obtain ⟨fuel, rfl⟩ : ∃ less, fuel = less + 1 := ⟨fuel - 1, by omega⟩
  obtain _ | ⟨e, arguments⟩ := arguments
  · obtain _ | ⟨keyword, keywords⟩ := keywords
    · rw [readArguments]
      refine .get fun cursor ahead => ?_
      have kind : cursor.kind = .closeParen := (peek_zero cursor).symm.trans (ahead 0 _ rfl)
      rw [if_pos kind]
      exact .step .advance fun _ _ => .pure ⟨rfl, rfl⟩
    · obtain ⟨first, named⟩ := List.forall_mem_cons.mp named
      have text : listed (Expr.elementTexts [] ++ Expr.keywordTexts (keyword :: keywords)) ++
          [fixed .closeParen] = keywordText keyword ++ furtherText [] keywords := by
        simp [furtherText, listed, keywordTexts_eq_map, Expr.elementTexts]
      rw [text] at enough ⊢
      rw [List.length_append] at enough
      have positive : 0 < (furtherText [] keywords).length := by simp [furtherText]
      exact readArguments_keyword first (readMoreArguments_keywords named (by omega)) (by omega)
  · obtain ⟨first, known⟩ := List.forall_mem_cons.mp known
    have text : listed (Expr.elementTexts (e :: arguments) ++ Expr.keywordTexts keywords) ++
        [fixed .closeParen] = e.elementText e.spelling ++ furtherText arguments keywords := by
      simp [furtherText, listed, Expr.elementTexts]
    rw [text] at enough ⊢
    rw [List.length_append] at enough
    obtain ⟨_, _, long, -⟩ := elementText_starts e
    have positive : 0 < (furtherText arguments keywords).length := by simp [furtherText]
    have nonempty : 0 < (e.elementText e.spelling).length := by simp [long]
    exact readArguments_positional first (readMoreArguments_spells known named (by omega))
      (by omega)

/-- A call is recovered if its callee and its arguments are. -/
theorem recovered_call {span : Span} {callee : Expr} {arguments : List Expr}
    {keywords : List (Keyword Expr)} (called : Recovered callee)
    (known : ∀ e ∈ arguments, Recovered e)
    (named : ∀ keyword ∈ keywords, Recovered keyword.value) :
    Recovered (.call span callee arguments keywords) := by
  refine recovered_of_joining called rfl rfl fun fuel read enough same => ?_
  rw [readJoining]
  refine .step .advance fun _ _ => ?_
  refine .last (readArguments_spells known named enough) fun reads sames => .spanned fun _ => ?_
  simp only [Expr.unspanned, same, sames.1, sames.2]

/-- What may stand behind an item of a subscript. -/
abbrev EndsItem (kind : TokenKind) : Prop := kind = .comma ∨ kind = .closeBracket

/-- A part of a slice, which may be missing, is read as it is written. -/
theorem readSlicePart_spells {part : Option Expr} (known : ∀ e ∈ part, Recovered e)
    (enough : 8 * (Expr.optionalText part).length < fuel) :
    Spells (readSlicePart fuel) (Expr.optionalText part) (endsSlicePart · = true)
      (Expr.unspannedOption · = Expr.unspannedOption part) := by
  obtain ⟨fuel, rfl⟩ : ∃ less, fuel = less + 1 := ⟨fuel - 1, by omega⟩
  rw [readSlicePart]
  cases part with
  | none => exact .ifKind (fun _ ends => ends) (.pure rfl)
  | some e =>
      refine .ifNotKind (fun _ _ => by simp [Expr.optionalText, grouped, endsSlicePart]) ?_
      rw [Expr.optionalText] at enough
      refine .last ((readExpr_final (known e rfl) (by omega)).mono (fun kind ends => ?_)
        fun _ same => same) fun read same => .pure ?_
      · cases kind <;> simp [endsSlicePart] at ends <;> rfl
      · rw [Expr.unspannedOption, Expr.unspannedOption, same]

/-- A slice is read from its first colon on. -/
theorem readSlice_spells {lower lower' upper step : Option Expr} {span : Span} {start : Nat}
    (same : Expr.unspannedOption lower' = Expr.unspannedOption lower)
    (uppers : ∀ e ∈ upper, Recovered e) (steps : ∀ e ∈ step, Recovered e)
    (enough : 8 * (Expr.optionalText upper ++ Expr.markedText .colon step).length + 8 ≤ fuel) :
    Spells (readSlice fuel start lower')
      (fixed .colon :: (Expr.optionalText upper ++ Expr.markedText .colon step)) EndsItem
      (·.unspanned = (Expr.slice span lower upper step).unspanned) := by
  rw [List.length_append] at enough
  obtain ⟨fuel, rfl⟩ : ∃ less, fuel = less + 1 := ⟨fuel - 1, by omega⟩
  rw [readSlice]
  refine .step .advance fun _ _ => ?_
  refine .bind (readSlicePart_spells uppers (by omega)) (fun read sameUpper => ?_)
    fun kind ends => ?_
  · dsimp only
    cases step with
    | none =>
        refine .ifUneaten (fun kind ends => ?_) ?_
        · obtain rfl | rfl := ends <;> simp [Expr.markedText]
        · rw [pure_bind]
          refine .spanned fun _ => ?_
          simp only [Expr.unspanned, same, sameUpper]
    | some e =>
        rw [Expr.markedText, List.length_cons] at enough
        refine .ifEaten rfl ?_
        refine .last ((readSlicePart_spells steps (by rw [Expr.optionalText]; omega)).mono
          (fun kind ends => ?_) fun _ same => same) fun step sameStep => .spanned fun _ => ?_
        · obtain rfl | rfl := ends <;> rfl
        · simp only [Expr.unspanned, same, sameUpper, sameStep]
  · cases step with
    | none => obtain rfl | rfl := ends <;> rfl
    | some e => rfl

/-- An item of a subscript is read as it is written, slice or not. -/
theorem readSliceItem_spells {item : Expr} (known : ∀ part ∈ item.itemParts, Recovered part)
    (enough : 8 * (item.itemText item.spelling).length + 8 ≤ fuel) :
    Spells (readSliceItem fuel) (item.itemText item.spelling) EndsItem
      (·.unspanned = item.unspanned) := by
  obtain ⟨fuel, rfl⟩ : ∃ less, fuel = less + 1 := ⟨fuel - 1, by omega⟩
  rw [readSliceItem]
  refine .located fun start => ?_
  by_cases sliced : item.isSlice = true
  · obtain ⟨span, lower, upper, step, rfl⟩ : ∃ span lower upper step,
        item = .slice span lower upper step := by
      cases item <;> simp_all [Expr.isSlice]
    have lowers : ∀ e ∈ lower, Recovered e := fun e inside => known e (by simp_all [Expr.itemParts])
    have uppers : ∀ e ∈ upper, Recovered e := fun e inside => known e (by simp_all [Expr.itemParts])
    have steps : ∀ e ∈ step, Recovered e := fun e inside => known e (by simp_all [Expr.itemParts])
    rw [Expr.itemText, if_pos sliced, Expr.spelling] at enough ⊢
    rw [List.length_append, List.length_cons] at enough
    cases lower with
    | none => exact .ifKind (fun _ _ => rfl) (readSlice_spells rfl uppers steps (by omega))
    | some e =>
        refine .ifNotKind (fun _ _ => by simp [Expr.optionalText, grouped]) ?_
        rw [Expr.optionalText] at enough
        refine .bind (readExpr_grouped (lowers e rfl) (by omega)) (fun read same => ?_)
          fun _ _ => .of_none rfl
        refine .ifKind (fun _ _ => rfl) (readSlice_spells ?_ uppers steps (by omega))
        rw [Expr.unspannedOption, Expr.unspannedOption, same]
  · have whole : Recovered item :=
      known item (by cases item <;> simp_all [Expr.itemParts, Expr.isSlice])
    rw [Expr.itemText, if_neg sliced] at enough ⊢
    refine .ifNotKind (fun _ _ => by simp [grouped]) ?_
    refine .last ((readExpr_final whole (by omega)).mono (fun kind ends => ?_) fun _ same => same)
      fun read same => .ifNotKind (fun kind ends => ?_) (.pure same)
    · obtain rfl | rfl := ends <;> rfl
    · obtain rfl | rfl := ends <;> simp

/-- The items of a subscript are written one by one. -/
theorem itemTexts_eq_map (items : List Expr) :
    Expr.itemTexts items = items.map fun item => item.itemText item.spelling := by
  induction items with
  | nil => rfl
  | cons item items ih => rw [Expr.itemTexts, ih, List.map_cons]

/-- No item of a subscript starts with the closing bracket. -/
theorem lead_itemText_ne (item : Expr) (later : List Spelling) (next : TokenKind) :
    lead (item.itemText item.spelling ++ later) next ≠ .closeBracket := by
  rw [Expr.itemText]
  by_cases sliced : item.isSlice = true
  · obtain ⟨span, lower, upper, step, rfl⟩ : ∃ span lower upper step,
        item = .slice span lower upper step := by
      cases item <;> simp_all [Expr.isSlice]
    cases lower <;> simp [Expr.isSlice, Expr.spelling, Expr.optionalText, grouped]
  · simp [sliced, grouped]

/-- An index is a tuple of items, or it is its only item. -/
theorem index_cases (index : Expr) :
    (∃ span item items, index = .sequence span .tuple (item :: items)) ∨
      index.items = [index] ∧ ∀ span object, (Expr.subscript span object index).spelling =
        grouped object.spelling ++ fixed .openBracket ::
          (index.itemText index.spelling ++ [fixed .closeBracket]) := by
  by_cases tuple : ∃ span item items, index = .sequence span .tuple (item :: items)
  · exact .inl tuple
  · refine .inr ⟨?_, fun span object => ?_⟩
    · unfold Expr.items
      split
      · exact absurd ⟨_, _, _, rfl⟩ tuple
      · rfl
    · rw [Expr.spelling]
      exact fun span item items same => tuple ⟨span, item, items, same⟩

/-- A subscript is recovered if its object and the parts of its items are. -/
theorem recovered_subscript {span : Span} {object index : Expr} (known : Recovered object)
    (parts : ∀ item ∈ index.items, ∀ part ∈ item.itemParts, Recovered part) :
    Recovered (.subscript span object index) := by
  obtain ⟨_, item, items, rfl⟩ | ⟨single, spelled⟩ := index_cases index
  · obtain ⟨first, parts⟩ := List.forall_mem_cons.mp parts
    obtain ⟨trailing, trails, text, comma⟩ :=
      tupled_cons (item.itemText item.spelling) (Expr.itemTexts items) .closeBracket
    refine recovered_of_joining known (by rw [Expr.spelling]) rfl fun fuel read enough same => ?_
    rw [Expr.itemTexts, text] at enough ⊢
    simp only [List.length_append, List.length_singleton] at enough
    have others : Spells (readSliceItems fuel) (continued (Expr.itemTexts items) ++ trailing)
        (· = .closeBracket) (Expr.unspannedAll · = Expr.unspannedAll items) := by
      simp only [itemTexts_eq_map, unspannedAll_eq_map] at enough ⊢
      exact spells_continued readSliceItem readSliceItems (fun fuel => by rw [readSliceItems])
        (by simp) trails
        (fun item member fuel enough => readSliceItem_spells (parts item member) enough)
        (fun item _ => lead_itemText_ne item) (by omega)
    rw [readJoining]
    refine .step .advance fun _ _ => .located fun start => ?_
    refine .bind (readSliceItem_spells first (by omega)) (fun read' sameFirst => ?_)
      fun next _ => .inl (comma next)
    dsimp only
    refine .ifKind (fun next _ => comma next) (.bind others (fun reads sames => ?_) fun _ _ => rfl)
    refine .placed fun span => ?_
    rw [pure_bind]
    refine .step (.expect rfl) fun _ _ => .spanned fun _ => ?_
    simp only [Expr.unspanned, Expr.unspannedAll, same, sameFirst, sames]
  · refine recovered_of_joining known (spelled span object) rfl fun fuel read enough same => ?_
    rw [List.length_append, List.length_singleton] at enough
    rw [single] at parts
    rw [readJoining]
    refine .step .advance fun _ _ => .located fun start => ?_
    refine .bind (readSliceItem_spells (parts index (List.mem_singleton.mpr rfl)) (by omega))
      (fun read' sameIndex => ?_) fun _ _ => .inr rfl
    dsimp only
    refine .ifNotKind (fun _ _ => by simp) ?_
    rw [pure_bind]
    refine .step (.expect rfl) fun _ _ => .spanned fun _ => ?_
    simp only [Expr.unspanned, same, sameIndex]

/-- A default is read as it is written, or found to be missing. -/
theorem readOptional_spells {default : Option Expr} (known : ∀ e ∈ default, Recovered e)
    (enough : 8 * (Expr.markedText .assignment default).length < fuel) :
    Spells (readOptional fuel .assignment) (Expr.markedText .assignment default)
      (fun kind => kind.joining? = none ∧ kind ≠ .assignment)
      (Expr.unspannedOption · = Expr.unspannedOption default) := by
  obtain ⟨fuel, rfl⟩ : ∃ less, fuel = less + 1 := ⟨fuel - 1, by omega⟩
  rw [readOptional]
  cases default with
  | none => exact .ifUneaten (fun _ after => after.2) (.pure rfl)
  | some e =>
      rw [Expr.markedText, List.length_cons] at enough
      refine .ifEaten rfl (.last ((readExpr_final (known e rfl) (by omega)).mono
        (fun _ after => after.1) fun _ same => same) fun read same => .pure ?_)
      rw [Expr.unspannedOption, Expr.unspannedOption, same]

/-- The text of further parameters is what is left of a list behind a comma. -/
theorem continued_eq_listed {texts : List (List Spelling)} (nonempty : texts ≠ []) :
    continued texts = fixed .comma :: listed texts := by
  cases texts with
  | nil => exact absurd rfl nonempty
  | cons text texts => rfl

/-- A parameter is never written as nothing. -/
theorem parameterTexts_ne_nil (usual : ParameterKind) (parameter : Parameter Expr)
    (parameters : List (Parameter Expr)) :
    Expr.parameterTexts usual (parameter :: parameters) ≠ [] := by
  rw [Expr.parameterTexts]
  exact List.append_ne_nil_of_right_ne_nil _ (List.cons_ne_nil _ _)

/-- The given parameters have been read. -/
def AreParameters (parameters read : List (Parameter Expr)) : Prop :=
  Expr.unspannedParameters read = Expr.unspannedParameters parameters

/-- Parameters are read back from their text. -/
def ParametersRead (usual : ParameterKind) (parameters : List (Parameter Expr)) : Prop :=
  ∀ fuel, 8 * (listed (Expr.parameterTexts usual parameters)).length + 8 ≤ fuel →
    Spells (readParameters fuel .colon usual) (listed (Expr.parameterTexts usual parameters))
      (· = .colon) (AreParameters parameters)

/-- A parameter is read as it is written, with those behind it. -/
theorem readParameter_spells {name : String} {default : Option Expr} {own usual : ParameterKind}
    {start : Nat} {span : Span} (known : ∀ e ∈ default, Recovered e)
    {parameters : List (Parameter Expr)}
    (others : ParametersRead usual parameters)
    (enough : 8 * (Expr.markedText .assignment default ++
      continued (Expr.parameterTexts usual parameters)).length + 7 ≤ fuel) :
    Spells (readParameter fuel .colon start own usual)
      ((.identifier, name) :: (Expr.markedText .assignment default ++
        continued (Expr.parameterTexts usual parameters)))
      (· = .colon) (AreParameters (⟨name, none, default, own, span⟩ :: parameters)) := by
  rw [List.length_append] at enough
  obtain ⟨fuel, rfl⟩ : ∃ less, fuel = less + 1 := ⟨fuel - 1, by omega⟩
  rw [readParameter]
  refine .step (.expectOr rfl _) fun token spelled => ?_
  have value : token.value = name := congrArg Prod.snd spelled
  simp only [ne_eq, not_true_eq_false, if_false, pure_bind]
  refine .bind (readOptional_spells known (by omega)) (fun read same => ?_) fun kind colon =>
    lead_continued (fun kind => kind.joining? = none ∧ kind ≠ .assignment) _ (by simp; rfl)
      (by rw [colon]; simp; rfl)
  refine .placed fun span' => ?_
  cases parameters with
  | nil =>
      refine .ifUneaten (fun kind colon => ?_) (.pure ?_)
      · simp [Expr.parameterTexts, continued, colon]
      · simp only [AreParameters, Expr.unspannedParameters, same, value]
  | cons parameter parameters =>
      have text := continued_eq_listed (parameterTexts_ne_nil usual parameter parameters)
      rw [text, List.length_cons] at enough
      rw [text]
      refine .ifEaten rfl (.last (others fuel (by omega)) fun reads sames => .pure ?_)
      rw [AreParameters] at sames ⊢
      simp only [Expr.unspannedParameters, same, value] at sames ⊢
      rw [sames]

/-- The text of a parameter from its name on, and of those after it. -/
def namedText (name : String) (default : Option Expr) (usual : ParameterKind)
    (parameters : List (Parameter Expr)) : List Spelling :=
  (.identifier, name) :: (Expr.markedText .assignment default ++
    continued (Expr.parameterTexts usual parameters))

section Parameters

variable {name : String} {default : Option Expr} {usual : ParameterKind} {span : Span}
  {parameters : List (Parameter Expr)}

/-- A parameter without a star is of the usual kind. -/
theorem readParameters_plain (known : ∀ e ∈ default, Recovered e)
    (others : ParametersRead usual parameters)
    (enough : 8 * (namedText name default usual parameters).length ≤ fuel) :
    Spells (readParameters fuel .colon usual) (namedText name default usual parameters)
      (· = .colon) (AreParameters (⟨name, none, default, usual, span⟩ :: parameters)) := by
  rw [namedText, List.length_cons] at enough
  obtain ⟨fuel, rfl⟩ : ∃ less, fuel = less + 1 := ⟨fuel - 1, by omega⟩
  rw [readParameters]
  refine .ifNotKind (fun _ _ => by simp [namedText]) (.located fun start => ?_)
  refine .ifUneaten (fun _ _ => by simp [namedText]) (.ifUneaten (fun _ _ => by simp [namedText])
    (.ifUneaten (fun _ _ => by simp [namedText]) ?_))
  exact readParameter_spells known others (by omega)

/-- Behind a star and its name all parameters are keyword-only. -/
theorem readParameters_star (known : ∀ e ∈ default, Recovered e)
    (others : ParametersRead .keywordOnly parameters)
    (enough : 8 * (namedText name default .keywordOnly parameters).length ≤ fuel) :
    Spells (readParameters fuel .colon usual)
      (fixed .star :: namedText name default .keywordOnly parameters) (· = .colon)
      (AreParameters (⟨name, none, default, .varPositional, span⟩ :: parameters)) := by
  rw [namedText, List.length_cons] at enough
  obtain ⟨fuel, rfl⟩ : ∃ less, fuel = less + 1 := ⟨fuel - 1, by omega⟩
  rw [readParameters]
  refine .ifNotKind (fun _ _ => by simp) (.located fun start => ?_)
  refine .ifUneaten (fun _ _ => by simp) (.ifEaten rfl (.ifKind (fun _ _ => rfl) ?_))
  exact readParameter_spells known others (by omega)

/-- Behind a lone star they are, too. -/
theorem readParameters_loneStar (known : ∀ e ∈ default, Recovered e)
    (others : ParametersRead .keywordOnly parameters)
    (enough : 8 * (namedText name default .keywordOnly parameters).length + 1 ≤ fuel) :
    Spells (readParameters fuel .colon usual)
      (fixed .star :: fixed .comma :: namedText name default .keywordOnly parameters) (· = .colon)
      (AreParameters (⟨name, none, default, .keywordOnly, span⟩ :: parameters)) := by
  obtain ⟨fuel, rfl⟩ : ∃ less, fuel = less + 1 := ⟨fuel - 1, by omega⟩
  rw [readParameters]
  refine .ifNotKind (fun _ _ => by simp) (.located fun start => ?_)
  refine .ifUneaten (fun _ _ => by simp) (.ifEaten rfl (.ifNotKind (fun _ _ => by simp) ?_))
  exact .ifEaten rfl (readParameters_plain known others (by omega))

/-- Two stars do not change the kind of those after them. -/
theorem readParameters_power (known : ∀ e ∈ default, Recovered e)
    (others : ParametersRead usual parameters)
    (enough : 8 * (namedText name default usual parameters).length ≤ fuel) :
    Spells (readParameters fuel .colon usual)
      (fixed .power :: namedText name default usual parameters) (· = .colon)
      (AreParameters (⟨name, none, default, .varKeyword, span⟩ :: parameters)) := by
  rw [namedText, List.length_cons] at enough
  obtain ⟨fuel, rfl⟩ : ∃ less, fuel = less + 1 := ⟨fuel - 1, by omega⟩
  rw [readParameters]
  refine .ifNotKind (fun _ _ => by simp) (.located fun start => ?_)
  refine .ifUneaten (fun _ _ => by simp) (.ifUneaten (fun _ _ => by simp) (.ifEaten rfl ?_))
  exact readParameter_spells known others (by omega)

/-- The parameters of a lambda are read as they are written. -/
theorem parametersRead
    (ordered : parameters.Pairwise fun early late =>
      late.kind = .positional → early.kind = .positional ∨ early.kind = .varKeyword)
    (fits : ∀ parameter ∈ parameters, parameter.kind = .positional → usual = .positional)
    (unannotated : ∀ parameter ∈ parameters, parameter.annotation = none)
    (defaults : ∀ parameter ∈ parameters, ∀ e ∈ parameter.default, Recovered e) :
    ParametersRead usual parameters := by
  induction parameters generalizing usual with
  | nil =>
      intro fuel enough
      obtain ⟨fuel, rfl⟩ : ∃ less, fuel = less + 1 := ⟨fuel - 1, by omega⟩
      rw [readParameters]
      exact .ifKind (fun _ colon => colon) (.pure rfl)
  | cons parameter parameters ih =>
      intro fuel enough
      obtain ⟨ownFits, otherFits⟩ := List.forall_mem_cons.mp fits
      obtain ⟨ownPlain, otherPlain⟩ := List.forall_mem_cons.mp unannotated
      obtain ⟨ownDefault, otherDefaults⟩ := List.forall_mem_cons.mp defaults
      obtain ⟨before, otherOrdered⟩ := List.pairwise_cons.mp ordered
      -- A positional parameter behind this one keeps the usual kind positional.
      have nextFits : ∀ next ∈ parameters, next.kind = .positional →
          usual.usualAfter parameter.kind = .positional := by
        intro next member positional
        obtain same | same := before next member positional
        all_goals
          rw [same]
          exact otherFits next member positional
      have others := ih otherOrdered nextFits otherPlain otherDefaults
      obtain ⟨name, annotation, default, own, span⟩ := parameter
      obtain rfl : annotation = none := ownPlain
      change ∀ e ∈ default, Recovered e at ownDefault
      cases own with
      | positional =>
          obtain rfl : usual = .positional := ownFits rfl
          change 8 * (namedText name default .positional parameters).length + 8 ≤ fuel at enough
          exact readParameters_plain ownDefault others (by omega)
      | varPositional =>
          change
            8 * (fixed .star :: namedText name default .keywordOnly parameters).length + 8 ≤ fuel
            at enough
          rw [List.length_cons] at enough
          exact readParameters_star ownDefault others (by omega)
      | varKeyword =>
          change 8 * (fixed .power :: namedText name default usual parameters).length + 8 ≤ fuel
            at enough
          rw [List.length_cons] at enough
          exact readParameters_power ownDefault others (by omega)
      | keywordOnly =>
          -- The first keyword-only parameter needs a star before it, unless one has announced it.
          by_cases announced : usual = .keywordOnly
          · subst announced
            change 8 * (namedText name default .keywordOnly parameters).length + 8 ≤ fuel at enough
            exact readParameters_plain ownDefault others (by omega)
          · rw [Expr.parameterTexts, if_pos ⟨rfl, announced⟩] at enough ⊢
            change 8 * (fixed .star :: fixed .comma ::
              namedText name default .keywordOnly parameters).length + 8 ≤ fuel at enough
            rw [List.length_cons, List.length_cons] at enough
            exact readParameters_loneStar ownDefault others (by omega)

end Parameters

/-- A lambda is recovered if its defaults and its body are. -/
theorem recovered_lambda {span : Span} {parameters : List (Parameter Expr)} {body : Expr}
    (ordered : parameters.Pairwise fun early late =>
      late.kind = .positional → early.kind = .positional ∨ early.kind = .varKeyword)
    (unannotated : ∀ parameter ∈ parameters, parameter.annotation = none)
    (defaults : ∀ parameter ∈ parameters, ∀ e ∈ parameter.default, Recovered e)
    (known : Recovered body) : Recovered (.lambda span parameters body) := by
  refine recovered_of_opening rfl rfl fun fuel enough => ?_
  rw [List.length_append, List.length_cons] at enough
  rw [readOpening]
  refine .mono ?_ (fun _ ends => ends.1) fun _ same => same
  refine .step .advance fun _ _ => ?_
  refine .bind (parametersRead ordered (fun _ _ _ => rfl) unannotated defaults _ (by omega))
    (fun reads sames => ?_) fun _ _ => rfl
  refine .step (.expect rfl) fun _ _ => ?_
  refine .last (readExpr_final known (by omega)) fun read same => .pure ?_
  rw [AreParameters] at sames
  simp only [Expr.unspanned, same, sames]

end Grammar

end DocSketch
