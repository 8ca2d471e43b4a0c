import DocSketch.Proofs.Grammar.Recovery

/-!
# Displays and comprehensions are read back

* `Grammar.spells_continued`: one statement on all lists with commas that a bracket closes.
* `Grammar.readElements_closes`: the further elements of a display.
* `Grammar.readClauses_spells`: the clauses of a comprehension.
-/

namespace DocSketch

namespace Grammar

open Parse

variable {Next : TokenKind → Prop} {fuel : Nat} {level : Power} {kind : TokenKind}
  {text later : List Spelling} {e : Expr}

/-- What holds of a comma and of what stands behind a list holds of what comes first. -/
theorem lead_continued (Holds : TokenKind → Prop) (texts : List (List Spelling))
    (atComma : Holds .comma) (after : Holds kind) : Holds (lead (continued texts) kind) := by
  cases texts with
  | nil => exact after
  | cons text texts => exact atComma

/-- The further parts of a list: a reader that goes past a comma and a part as long as there
is one gives the parts back.  A last comma makes no difference. -/
theorem spells_continued {α γ : Type} (item : Nat → Parse α) (others : Nat → Parse (List α))
    {closing : TokenKind} {shown : α → List Spelling} {view : α → γ} {trailing : List Spelling}
    (unfolds : ∀ fuel, others (fuel + 1) = do
      if ← eat .comma then
        if (← Parse.kind) = closing then
          return []
        else
          let part ← item fuel
          let parts ← others fuel
          return part :: parts
      else
        return [])
    (closes : closing ≠ .comma) (trails : trailing = [] ∨ trailing = [fixed .comma])
    {parts : List α}
    (each : ∀ part ∈ parts, ∀ fuel, 8 * (shown part).length + 8 ≤ fuel →
      Spells (item fuel) (shown part) (fun kind => kind = .comma ∨ kind = closing)
        (view · = view part))
    (opens : ∀ part ∈ parts, ∀ later next, lead (shown part ++ later) next ≠ closing)
    (enough : 8 * (continued (parts.map shown)).length < fuel) :
    Spells (others fuel) (continued (parts.map shown) ++ trailing) (· = closing)
      (·.map view = parts.map view) := by
  induction parts generalizing fuel with
  | nil =>
      obtain ⟨fuel, rfl⟩ : ∃ less, fuel = less + 1 := ⟨fuel - 1, by omega⟩
      rw [unfolds]
      -- Behind the last part comes the closing bracket, or one more comma before it.
      obtain rfl | rfl := trails
      · exact .ifUneaten (fun _ same => same ▸ closes) (.pure rfl)
      · exact .ifEaten rfl (.ifKind (fun _ same => same) (.pure rfl))
  | cons part parts ih =>
      have text : continued ((part :: parts).map shown) ++ trailing =
          fixed .comma :: (shown part ++ (continued (parts.map shown) ++ trailing)) := by
        simp [continued]
      have length : (continued ((part :: parts).map shown)).length =
          (shown part).length + (continued (parts.map shown)).length + 1 := by
        simp [continued]
      obtain ⟨fuel, rfl⟩ : ∃ less, fuel = less + 1 := ⟨fuel - 1, by omega⟩
      rw [text, unfolds]
      refine .ifEaten rfl (.ifNotKind (fun next _ => opens part List.mem_cons_self _ next) ?_)
      refine .bind (each part List.mem_cons_self fuel (by omega)) (fun read same => ?_)
        fun next same => ?_
      · refine .last (ih (fun part member => each part (List.mem_cons_of_mem _ member))
          (fun part member => opens part (List.mem_cons_of_mem _ member)) (by omega))
          fun reads sames => .pure ?_
        rw [List.map_cons, List.map_cons, same, sames]
      · rw [lead_append]
        refine lead_continued (fun kind => kind = .comma ∨ kind = closing) _ (.inl rfl) ?_
        obtain rfl | rfl := trails
        · exact .inr same
        · exact .inl rfl

/-- An element starts with a parenthesis or a star. -/
theorem elementText_starts (e : Expr) : ∃ first later,
    e.elementText e.spelling = first :: later ∧ (first.1 = .openParen ∨ first.1 = .star) := by
  rw [Expr.elementText]
  cases unpacked : e.isUnpacked with
  | false => exact ⟨_, _, rfl, .inl rfl⟩
  | true =>
      obtain ⟨span, value, rfl⟩ : ∃ span value, e = .starred span value false := by
        cases e <;> simp_all [Expr.isUnpacked]
      exact ⟨_, _, rfl, .inr rfl⟩

/-- An element starts with a token of another kind than this one. -/
theorem lead_elementText_ne (other : kind ≠ .openParen ∧ kind ≠ .star) (later : List Spelling)
    (next : TokenKind) : lead (e.elementText e.spelling ++ later) next ≠ kind := by
  obtain ⟨first, others, text, starts⟩ := elementText_starts e
  rw [text]
  rintro rfl
  exact starts.elim other.1 other.2

/-- An element of a display is read as it is written. -/
theorem readExpr_element (known : Recovered e)
    (enough : 8 * (e.elementText e.spelling).length + 8 ≤ fuel) :
    Spells (readExpr fuel .default) (e.elementText e.spelling) (·.joining? = none)
      (·.unspanned = e.unspanned) := by
  rw [Expr.elementText] at enough ⊢
  cases unpacked : e.isUnpacked with
  | false =>
      rw [unpacked, if_neg Bool.false_ne_true] at enough
      exact readExpr_final known (by omega)
  | true =>
      rw [unpacked, if_pos rfl] at enough
      refine (known.reads fuel enough).mono (fun _ free => ⟨free, ?_⟩) fun _ same => same
      cases e <;> simp_all [Expr.isUnpacked]

/-- Elements are written one by one. -/
theorem elementTexts_eq_map (elements : List Expr) :
    Expr.elementTexts elements = elements.map fun e => e.elementText e.spelling := by
  induction elements with
  | nil => rfl
  | cons e elements ih => rw [Expr.elementTexts, ih, List.map_cons]

/-- Places are taken off one element after the other. -/
theorem unspannedAll_eq_map (elements : List Expr) :
    Expr.unspannedAll elements = elements.map Expr.unspanned := by
  induction elements with
  | nil => rfl
  | cons e elements ih => rw [Expr.unspannedAll, ih, List.map_cons]

/-- The kinds of the tokens that close a display. -/
theorem isClosing_cases {closing : TokenKind} (closes : closing.isClosing = true) :
    closing = .closeParen ∨ closing = .closeBracket ∨ closing = .closeCurly := by
  cases closing <;> simp [TokenKind.isClosing] at closes ⊢

/-- Further elements are read as they are written, with or without a comma at the end. -/
theorem readElements_spells (closing : TokenKind) (closes : closing.isClosing = true)
    {trailing : List Spelling} (trails : trailing = [] ∨ trailing = [fixed .comma])
    {elements : List Expr} (known : ∀ e ∈ elements, Recovered e)
    (enough : 8 * (continued (Expr.elementTexts elements)).length < fuel) :
    Spells (readElements fuel closing) (continued (Expr.elementTexts elements) ++ trailing)
      (· = closing) (Expr.unspannedAll · = Expr.unspannedAll elements) := by
  simp only [elementTexts_eq_map, unspannedAll_eq_map] at enough ⊢
  refine spells_continued (readExpr · .default) (readElements · closing)
    (fun fuel => by rw [readElements]) ?_ trails (fun e member fuel enough => ?_)
    (fun e _ later next => lead_elementText_ne ?_ later next) enough
  · obtain rfl | rfl | rfl := isClosing_cases closes <;> simp
  · refine (readExpr_element (known e member) enough).mono (fun kind parts => ?_) fun _ same => same
    obtain rfl | rfl := parts
    · rfl
    · obtain rfl | rfl | rfl := isClosing_cases closes <;> rfl
  · obtain rfl | rfl | rfl := isClosing_cases closes <;> simp

/-- What may stand behind an element of a display: a comma or what closes the display. -/
structure Divides (kind : TokenKind) : Prop where
  free : kind.joining? = none
  noClause : kind ≠ .forKw ∧ kind ≠ .asyncKw
  noColon : kind ≠ .colon

/-- A comma separates elements. -/
theorem divides_comma : Divides .comma := ⟨rfl, by simp, by simp⟩

/-- A closing bracket ends elements. -/
theorem divides_closing (closes : kind.isClosing = true) : Divides kind := by
  obtain rfl | rfl | rfl := isClosing_cases closes
  all_goals exact ⟨rfl, by simp, by simp⟩

/-- What follows an element is a comma or the closing bracket. -/
theorem lead_rest {closing : TokenKind} (closes : closing.isClosing = true)
    {trailing : List Spelling} (trails : trailing = [] ∨ trailing = [fixed .comma])
    (texts : List (List Spelling)) (next : TokenKind) :
    Divides (lead (continued texts ++ trailing ++ [fixed closing]) next) := by
  rw [lead_append, lead_append]
  refine lead_continued Divides texts divides_comma ?_
  obtain rfl | rfl := trails
  · exact divides_closing closes
  · exact divides_comma

/-- The further elements of a display and what closes it. -/
theorem readElements_closes {closing : TokenKind} (closes : closing.isClosing = true)
    {trailing : List Spelling} (trails : trailing = [] ∨ trailing = [fixed .comma])
    {read : Expr} (same : read.unspanned = e.unspanned) {others : List Expr}
    (known : ∀ e ∈ others, Recovered e)
    (enough : 8 * (continued (Expr.elementTexts others)).length < fuel) {kind : SequenceKind}
    {span : Span} {start : Nat} :
    Spells
      (do
        let others ← readElements fuel closing
        let _ ← expect closing
        return Expr.sequence (← spanFrom start) kind (read :: others))
      (continued (Expr.elementTexts others) ++ trailing ++ [fixed closing]) Next
      (·.unspanned = (Expr.sequence span kind (e :: others)).unspanned) := by
  refine .bind (readElements_spells closing closes trails known enough) (fun reads sames => ?_)
    fun _ _ => rfl
  refine .step (.expect rfl) fun _ _ => .spanned fun _ => ?_
  simp only [Expr.unspanned, Expr.unspannedAll, same, sames]

/-- A list is recovered if its elements are. -/
theorem recovered_list {span : Span} {elements : List Expr} (known : ∀ e ∈ elements, Recovered e) :
    Recovered (.sequence span .list elements) := by
  refine recovered_of_opening rfl rfl fun fuel enough => ?_
  rw [readOpening, readListDisplay]
  refine .step .advance fun _ _ => ?_
  dsimp only
  cases elements with
  | nil => exact .ifEaten rfl (.spanned fun _ => rfl)
  | cons e others =>
      obtain ⟨first, known⟩ := List.forall_mem_cons.mp known
      have text : listed (Expr.elementTexts (e :: others)) ++ [fixed .closeBracket] =
          e.elementText e.spelling ++
            (continued (Expr.elementTexts others) ++ [] ++ [fixed .closeBracket]) := by
        simp [Expr.elementTexts, listed]
      rw [text] at enough ⊢
      simp only [List.length_append, List.length_singleton] at enough
      refine .ifUneaten (fun next _ => lead_elementText_ne (by simp) _ next) ?_
      refine .bind (readExpr_element first (by omega)) (fun read same => ?_)
        fun next _ => (lead_rest rfl (.inl rfl) _ next).free
      exact ifNotClause (fun next _ => (lead_rest rfl (.inl rfl) _ next).noClause)
        (readElements_closes rfl (.inl rfl) same known (by omega))

/-- A set with elements is recovered if these are. -/
theorem recovered_set {span : Span} {elements : List Expr} (nonempty : elements ≠ [])
    (known : ∀ e ∈ elements, Recovered e) : Recovered (.sequence span .set elements) := by
  refine recovered_of_opening rfl rfl fun fuel enough => ?_
  rw [readOpening, readCurly]
  refine .step .advance fun _ _ => ?_
  dsimp only
  cases elements with
  | nil => exact absurd rfl nonempty
  | cons e others =>
      obtain ⟨first, known⟩ := List.forall_mem_cons.mp known
      have text : listed (Expr.elementTexts (e :: others)) ++ [fixed .closeCurly] =
          e.elementText e.spelling ++
            (continued (Expr.elementTexts others) ++ [] ++ [fixed .closeCurly]) := by
        simp [Expr.elementTexts, listed]
      rw [text] at enough ⊢
      simp only [List.length_append, List.length_singleton] at enough
      refine .ifUneaten (fun next _ => lead_elementText_ne (by simp) _ next) ?_
      refine .ifNotKind (fun next _ => lead_elementText_ne (by simp) _ next) ?_
      refine .bind (readExpr_element first (by omega)) (fun read same => ?_)
        fun next _ => (lead_rest rfl (.inl rfl) _ next).free
      refine .ifUneaten (fun next _ => (lead_rest rfl (.inl rfl) _ next).noColon) ?_
      exact ifNotClause (fun next _ => (lead_rest rfl (.inl rfl) _ next).noClause)
        (readElements_closes rfl (.inl rfl) same known (by omega))

/-- A single element of a tuple has a comma behind it, and several have one between them. -/
theorem tupled_cons (text : List Spelling) (texts : List (List Spelling)) (closing : TokenKind) :
    ∃ trailing, (trailing = [] ∨ trailing = [fixed .comma]) ∧
      tupled (text :: texts) ++ [fixed closing] =
        text ++ (continued texts ++ trailing ++ [fixed closing]) ∧
      ∀ next, lead (continued texts ++ trailing ++ [fixed closing]) next = .comma := by
  cases texts with
  | nil => exact ⟨[fixed .comma], .inr rfl, by simp [tupled, listed, continued], fun _ => rfl⟩
  | cons second texts => exact ⟨[], .inl rfl, by simp [tupled, listed], fun _ => rfl⟩

/-- A tuple is recovered if its elements are. -/
theorem recovered_tuple {span : Span} {elements : List Expr}
    (known : ∀ e ∈ elements, Recovered e) : Recovered (.sequence span .tuple elements) := by
  refine recovered_of_opening rfl rfl fun fuel enough => ?_
  rw [readOpening, readGroup]
  refine .step .advance fun _ _ => ?_
  dsimp only
  cases elements with
  | nil => exact .ifEaten rfl (.spanned fun _ => rfl)
  | cons e others =>
      obtain ⟨first, known⟩ := List.forall_mem_cons.mp known
      obtain ⟨trailing, trails, text, comma⟩ :=
        tupled_cons (e.elementText e.spelling) (Expr.elementTexts others) .closeParen
      rw [Expr.elementTexts, text] at enough ⊢
      simp only [List.length_append, List.length_singleton] at enough
      refine .ifUneaten (fun next _ => lead_elementText_ne (by simp) _ next) ?_
      refine .bind (readExpr_element first (by omega)) (fun read same => ?_)
        fun next _ => (lead_rest rfl trails _ next).free
      refine ifNotClause (fun next _ => (lead_rest rfl trails _ next).noClause) ?_
      exact .ifKind (fun next _ => comma next)
        (readElements_closes rfl trails same known (by omega))

/-- The text of one entry of a mapping. -/
def entryText : Entry Expr → List Spelling
  | ⟨none, value⟩ => fixed .power :: grouped value.spelling
  | ⟨some key, value⟩ => grouped key.spelling ++ fixed .colon :: grouped value.spelling

def unspannedEntry (entry : Entry Expr) : Entry Expr :=
  ⟨Expr.unspannedOption entry.key, entry.value.unspanned⟩

/-- Entries are written one by one. -/
theorem entryTexts_eq_map (entries : List (Entry Expr)) :
    Expr.entryTexts entries = entries.map entryText := by
  induction entries with
  | nil => rfl
  | cons entry entries ih =>
      obtain ⟨_ | key, value⟩ := entry <;> rw [Expr.entryTexts, ih] <;> rfl

/-- Places are taken off one entry after the other. -/
theorem unspannedEntries_eq_map (entries : List (Entry Expr)) :
    Expr.unspannedEntries entries = entries.map unspannedEntry := by
  induction entries with
  | nil => rfl
  | cons entry entries ih =>
      obtain ⟨key, value⟩ := entry
      rw [Expr.unspannedEntries, ih]
      rfl

/-- No entry starts with the closing bracket. -/
theorem lead_entryText (entry : Entry Expr) (later : List Spelling) (next : TokenKind) :
    lead (entryText entry ++ later) next ≠ .closeCurly := by
  obtain ⟨_ | key, value⟩ := entry <;> simp [entryText, grouped]

/-- An entry of a mapping is read as it is written, unpacked or with a key. -/
theorem readEntry_spells {entry : Entry Expr} (keys : ∀ key ∈ entry.key, Recovered key)
    (values : Recovered entry.value) (enough : 8 * (entryText entry).length + 8 ≤ fuel) :
    Spells (readEntry fuel) (entryText entry) (·.joining? = none)
      (unspannedEntry · = unspannedEntry entry) := by
  obtain ⟨fuel, rfl⟩ : ∃ less, fuel = less + 1 := ⟨fuel - 1, by omega⟩
  rw [readEntry]
  obtain ⟨_ | key, value⟩ := entry
  · simp only [entryText, List.length_cons] at enough
    refine .ifEaten rfl (.last (readExpr_final values (by omega)) fun read same => .pure ?_)
    simp only [unspannedEntry, same]
  · simp only [entryText, List.length_append, List.length_cons] at enough
    refine .ifUneaten (fun _ _ => by simp [entryText, grouped]) ?_
    refine .bind (readExpr_grouped (keys key rfl) (by omega)) (fun read same => ?_)
      fun _ _ => .of_none rfl
    refine .step (.expect rfl) fun _ _ => ?_
    refine .last (readExpr_final values (by omega)) fun read' same' => .pure ?_
    simp only [unspannedEntry, Expr.unspannedOption, same, same']

/-- The further entries of a mapping and what closes it. -/
theorem readDict_spells {first read : Entry Expr}
    (same : unspannedEntry read = unspannedEntry first)
    {entries : List (Entry Expr)} (keys : ∀ entry ∈ entries, ∀ key ∈ entry.key, Recovered key)
    (values : ∀ entry ∈ entries, Recovered entry.value)
    (enough : 8 * (continued (Expr.entryTexts entries)).length + 8 ≤ fuel)
    {start : Nat} {span : Span} :
    Spells (readDict fuel start read)
      (continued (Expr.entryTexts entries) ++ [fixed .closeCurly]) Next
      (·.unspanned = (Expr.dict span (first :: entries)).unspanned) := by
  obtain ⟨fuel, rfl⟩ : ∃ less, fuel = less + 1 := ⟨fuel - 1, by omega⟩
  rw [entryTexts_eq_map] at enough ⊢
  have others : Spells (readEntries fuel) (continued (entries.map entryText) ++ [])
      (· = .closeCurly) (·.map unspannedEntry = entries.map unspannedEntry) := by
    refine spells_continued readEntry readEntries (fun fuel => by rw [readEntries]) (by simp)
      (.inl rfl) (fun entry member fuel enough => ?_) (fun entry _ => lead_entryText entry)
      (by omega)
    refine (readEntry_spells (keys entry member) (values entry member) enough).mono
      (fun kind parts => ?_) fun _ same => same
    obtain rfl | rfl := parts <;> rfl
  rw [List.append_nil] at others
  rw [readDict]
  refine .bind others (fun reads sames => ?_) fun _ _ => rfl
  refine .step (.expect rfl) fun _ _ => .spanned fun _ => ?_
  simp only [Expr.unspanned, unspannedEntries_eq_map, List.map_cons, same, sames]

/-- A mapping is recovered if its keys and values are. -/
theorem recovered_dict {span : Span} {entries : List (Entry Expr)}
    (keys : ∀ entry ∈ entries, ∀ key ∈ entry.key, Recovered key)
    (values : ∀ entry ∈ entries, Recovered entry.value) : Recovered (.dict span entries) := by
  refine recovered_of_opening rfl rfl fun fuel enough => ?_
  rw [readOpening, readCurly]
  refine .step .advance fun _ _ => ?_
  dsimp only
  cases entries with
  | nil => exact .ifEaten rfl (.spanned fun _ => rfl)
  | cons entry entries =>
      obtain ⟨ownKey, otherKeys⟩ := List.forall_mem_cons.mp keys
      obtain ⟨ownValue, otherValues⟩ := List.forall_mem_cons.mp values
      have text : listed (Expr.entryTexts (entry :: entries)) ++ [fixed .closeCurly] =
          entryText entry ++ (continued (Expr.entryTexts entries) ++ [fixed .closeCurly]) := by
        simp only [entryTexts_eq_map, List.map_cons, listed, List.append_assoc]
      rw [text] at enough ⊢
      simp only [List.length_append, List.length_singleton] at enough
      have rest (next : TokenKind) :
          Divides (lead (continued (Expr.entryTexts entries) ++ [fixed .closeCurly]) next) := by
        rw [lead_append]
        exact lead_continued Divides _ divides_comma (divides_closing rfl)
      refine .ifUneaten (fun next _ => lead_entryText entry _ next) ?_
      obtain ⟨_ | key, value⟩ := entry
      · refine .ifKind (fun _ _ => rfl) ?_
        refine .bind (readEntry_spells ownKey ownValue (by omega)) (fun read same => ?_)
          fun next _ => (rest next).free
        exact readDict_spells same otherKeys otherValues (by omega)
      · simp only [entryText, List.append_assoc, List.cons_append, List.length_append,
          List.length_cons] at enough ⊢
        refine .ifNotKind (fun _ _ => by simp [grouped]) ?_
        refine .bind (readExpr_grouped (ownKey key rfl) (by omega)) (fun read same => ?_)
          fun _ _ => .of_none rfl
        refine .ifEaten rfl ?_
        refine .bind (readExpr_final ownValue (by omega)) (fun read' same' => ?_)
          fun next _ => (rest next).free
        refine ifNotClause (fun next _ => (rest next).noClause) ?_
        refine readDict_spells ?_ otherKeys otherValues (by omega)
        simp only [unspannedEntry, Expr.unspannedOption, same, same']

/-- What may stand behind a condition: another one, a clause, or what closes all. -/
inductive AfterCondition : TokenKind → Prop
  | condition : AfterCondition .ifKw
  | clause : AfterCondition .forKw
  | async : AfterCondition .asyncKw
  | closing {kind : TokenKind} (closes : kind.isClosing = true) : AfterCondition kind

/-- Behind a condition, no expression goes on. -/
theorem AfterCondition.stops (after : AfterCondition kind) : Stops .ternary kind := by
  cases after with
  | condition =>
      intro own form joins
      cases joins
      exact Nat.le_refl _
  | clause => exact .of_none rfl
  | async => exact .of_none rfl
  | closing closes => exact .of_none (divides_closing closes).free

/-- Conditions are followed by what may follow one of them. -/
theorem lead_conditionText (conditions : List Expr) (after : AfterCondition kind) :
    AfterCondition (lead (Expr.conditionText conditions) kind) := by
  cases conditions with
  | nil => exact after
  | cons e others => exact .condition

/-- The conditions of a clause are read as they are written. -/
theorem readConditions_spells {conditions : List Expr} (known : ∀ e ∈ conditions, Recovered e)
    (enough : 8 * (Expr.conditionText conditions).length < fuel) :
    Spells (readConditions fuel) (Expr.conditionText conditions)
      (fun kind => AfterCondition kind ∧ kind ≠ .ifKw)
      (Expr.unspannedAll · = Expr.unspannedAll conditions) := by
  induction conditions generalizing fuel with
  | nil =>
      obtain ⟨fuel, rfl⟩ : ∃ less, fuel = less + 1 := ⟨fuel - 1, by omega⟩
      rw [readConditions]
      exact .ifUneaten (fun kind after => after.2) (.pure rfl)
  | cons e others ih =>
      obtain ⟨first, known⟩ := List.forall_mem_cons.mp known
      rw [Expr.conditionText, List.length_cons, List.length_append] at enough
      obtain ⟨fuel, rfl⟩ : ∃ less, fuel = less + 1 := ⟨fuel - 1, by omega⟩
      rw [readConditions]
      refine .ifEaten rfl (.bind (readExpr_grouped first (by omega)) (fun read same => ?_)
        fun kind after => ?_)
      · refine .last (ih known (by omega)) fun reads sames => .pure ?_
        simp only [Expr.unspannedAll, same, sames]
      · exact (lead_conditionText others after.1).stops

/-- A target in parentheses is read as one expression. -/
theorem readTuple_grouped (known : Recovered e) (enough : 8 * (grouped e.spelling).length < fuel) :
    Spells (readTuple fuel level) (grouped e.spelling)
      (fun kind => Stops level kind ∧ kind ≠ .comma) (·.unspanned = e.unspanned) := by
  obtain ⟨fuel, rfl⟩ : ∃ less, fuel = less + 1 := ⟨fuel - 1, by omega⟩
  have operand : Spells (readExpr fuel level) (grouped e.spelling)
      (fun kind => Stops level kind ∧ kind ≠ .comma) (·.unspanned = e.unspanned) :=
    (readExpr_grouped known (by omega)).mono (fun _ after => after.1) fun _ same => same
  rw [readTuple]
  exact .last operand fun read same => .ifNotKind (fun _ after => after.2) (.pure same)

/-- Behind a condition comes another clause or what closes all. -/
theorem lead_clauseText (clauses : List (Clause Expr))
    (after : AfterCondition kind ∧ kind ≠ .ifKw) :
    AfterCondition (lead (Expr.clauseText clauses) kind) ∧
      lead (Expr.clauseText clauses) kind ≠ .ifKw := by
  obtain _ | ⟨⟨target, iter, conditions, _ | _⟩, others⟩ := clauses
  · exact after
  · exact ⟨.clause, by simp [Expr.clauseText]⟩
  · exact ⟨.async, by simp [Expr.clauseText]⟩

/-- The mark of an asynchronous clause is read as it is written. -/
theorem eat_async (isAsync : Bool) :
    Spells (eat .asyncKw) (if isAsync then [fixed .asyncKw] else []) (· ≠ .asyncKw)
      (· = isAsync) := by
  cases isAsync with
  | false => exact .uneaten
  | true => exact .eat rfl

/-- A target does not go on over the word `in`. -/
theorem stops_inKw : Stops .relational .inKw := by
  intro own form joins
  cases joins
  exact Nat.le_refl _

/-- The clauses of a comprehension are read as they are written. -/
theorem readClauses_spells {clauses : List (Clause Expr)}
    (targets : ∀ clause ∈ clauses, Recovered clause.target)
    (iters : ∀ clause ∈ clauses, Recovered clause.iter)
    (conditions : ∀ clause ∈ clauses, ∀ e ∈ clause.conditions, Recovered e)
    (enough : 8 * (Expr.clauseText clauses).length < fuel) :
    Spells (readClauses fuel) (Expr.clauseText clauses) (·.isClosing = true)
      (Expr.unspannedClauses · = Expr.unspannedClauses clauses) := by
  induction clauses generalizing fuel with
  | nil =>
      obtain ⟨fuel, rfl⟩ : ∃ less, fuel = less + 1 := ⟨fuel - 1, by omega⟩
      rw [readClauses]
      exact ifNotClause (fun _ closes => (divides_closing closes).noClause) (.pure rfl)
  | cons clause others ih =>
      obtain ⟨ownTarget, otherTargets⟩ := List.forall_mem_cons.mp targets
      obtain ⟨ownIter, otherIters⟩ := List.forall_mem_cons.mp iters
      obtain ⟨ownTests, otherTests⟩ := List.forall_mem_cons.mp conditions
      obtain ⟨fuel, rfl⟩ : ∃ less, fuel = less + 1 := ⟨fuel - 1, by omega⟩
      have after (kind : TokenKind) (closes : kind.isClosing = true) :
          AfterCondition (lead (Expr.clauseText others) kind) ∧
            lead (Expr.clauseText others) kind ≠ .ifKw := by
        refine lead_clauseText others ⟨.closing closes, ?_⟩
        rintro rfl
        cases closes
      rw [readClauses, ← List.append_nil (Expr.clauseText _)]
      refine ifClause (List.cons_ne_nil clause others) ?_
      rw [List.append_nil]
      rw [Expr.clauseText] at enough ⊢
      simp only [List.length_append, List.length_cons] at enough
      refine .bind (eat_async _) (fun isAsync sameAsync => ?_) fun _ _ => by simp
      refine .step (.expect rfl) fun _ _ => ?_
      refine .bind (readTuple_grouped ownTarget (by omega)) (fun target sameTarget => ?_)
        fun _ _ => ⟨stops_inKw, by simp⟩
      refine .step (.expect rfl) fun _ _ => ?_
      refine .bind (readExpr_grouped ownIter (by omega)) (fun iter sameIter => ?_)
        fun kind closes => ?stops
      case stops =>
        rw [lead_append]
        exact (lead_conditionText _ (after kind closes).1).stops
      refine .bind (readConditions_spells ownTests (by omega)) (fun tests sameTests => ?_) after
      refine .last (ih otherTargets otherIters otherTests (by omega)) fun reads sames => .pure ?_
      simp only [Expr.unspannedClauses, sameAsync, sameTarget, sameIter, sameTests, sames]

/-- The clauses of a comprehension and what closes it. -/
theorem readClauses_closes {closing : TokenKind} (closes : closing.isClosing = true)
    {kind : ComprehensionKind} {element read : Expr} {value readValue : Option Expr}
    (same : read.unspanned = element.unspanned)
    (sameValue : Expr.unspannedOption readValue = Expr.unspannedOption value)
    {clauses : List (Clause Expr)} (targets : ∀ clause ∈ clauses, Recovered clause.target)
    (iters : ∀ clause ∈ clauses, Recovered clause.iter)
    (conditions : ∀ clause ∈ clauses, ∀ e ∈ clause.conditions, Recovered e)
    (enough : 8 * (Expr.clauseText clauses).length < fuel) {span : Span} {start : Nat} :
    Spells
      (do
        let clauses ← readClauses fuel
        let _ ← expect closing
        return Expr.comprehension (← spanFrom start) kind read readValue clauses)
      (Expr.clauseText clauses ++ [fixed closing]) Next
      (·.unspanned = (Expr.comprehension span kind element value clauses).unspanned) := by
  refine .bind (readClauses_spells targets iters conditions enough) (fun reads sames => ?_)
    fun _ _ => closes
  refine .step (.expect rfl) fun _ _ => .spanned fun _ => ?_
  simp only [Expr.unspanned, same, sameValue, sames]

/-- An element ends before the clauses, which do not start like a value of a mapping. -/
theorem lead_clauses {clauses : List (Clause Expr)} (nonempty : clauses ≠ [])
    (later : List Spelling) (next : TokenKind) :
    Stops .default (lead (Expr.clauseText clauses ++ later) next) ∧
      lead (Expr.clauseText clauses ++ later) next ≠ .colon := by
  obtain _ | ⟨⟨target, iter, conditions, _ | _⟩, others⟩ := clauses
  · exact absurd rfl nonempty
  · exact ⟨.of_none rfl, by simp [Expr.clauseText]⟩
  · exact ⟨.of_none rfl, by simp [Expr.clauseText]⟩

/-- A comprehension is recovered if what it holds is. -/
theorem recovered_comprehension {span : Span} {kind : ComprehensionKind} {element : Expr}
    {value : Option Expr} {clauses : List (Clause Expr)} (paired : value.isSome ↔ kind = .dict)
    (nonempty : clauses ≠ []) (known : Recovered element) (values : ∀ e ∈ value, Recovered e)
    (targets : ∀ clause ∈ clauses, Recovered clause.target)
    (iters : ∀ clause ∈ clauses, Recovered clause.iter)
    (conditions : ∀ clause ∈ clauses, ∀ e ∈ clause.conditions, Recovered e) :
    Recovered (.comprehension span kind element value clauses) := by
  have starts := lead_clauses nonempty
  cases kind with
  | list =>
      obtain rfl : value = none := by simpa using paired
      refine recovered_of_opening rfl rfl fun fuel enough => ?_
      rw [Expr.markedText, List.nil_append] at enough ⊢
      simp only [List.length_append, List.length_singleton] at enough
      rw [readOpening, readListDisplay]
      refine .step .advance fun _ _ => ?_
      dsimp only
      refine .ifUneaten (fun _ _ => by simp [grouped]) ?_
      refine .bind (readExpr_grouped known (by omega)) (fun read same => ?_)
        fun next _ => (starts _ next).1
      exact ifClause nonempty (readClauses_closes rfl same rfl targets iters conditions (by omega))
  | generator =>
      obtain rfl : value = none := by simpa using paired
      refine recovered_of_opening rfl rfl fun fuel enough => ?_
      rw [Expr.markedText, List.nil_append] at enough ⊢
      simp only [List.length_append, List.length_singleton] at enough
      rw [readOpening, readGroup]
      refine .step .advance fun _ _ => ?_
      dsimp only
      refine .ifUneaten (fun _ _ => by simp [grouped]) ?_
      refine .bind (readExpr_grouped known (by omega)) (fun read same => ?_)
        fun next _ => (starts _ next).1
      exact ifClause nonempty (readClauses_closes rfl same rfl targets iters conditions (by omega))
  | set =>
      obtain rfl : value = none := by simpa using paired
      refine recovered_of_opening rfl rfl fun fuel enough => ?_
      rw [Expr.markedText, List.nil_append] at enough ⊢
      simp only [List.length_append, List.length_singleton] at enough
      rw [readOpening, readCurly]
      refine .step .advance fun _ _ => ?_
      dsimp only
      refine .ifUneaten (fun _ _ => by simp [grouped])
        (.ifNotKind (fun _ _ => by simp [grouped]) ?_)
      refine .bind (readExpr_grouped known (by omega)) (fun read same => ?_)
        fun next _ => (starts _ next).1
      exact .ifUneaten (fun next _ => (starts _ next).2)
        (ifClause nonempty (readClauses_closes rfl same rfl targets iters conditions (by omega)))
  | dict =>
      -- Only a mapping has a value, which stands behind the colon.
      obtain ⟨value, rfl⟩ : ∃ paired, value = some paired :=
        Option.isSome_iff_exists.mp (paired.mpr rfl)
      refine recovered_of_opening rfl rfl fun fuel enough => ?_
      rw [Expr.markedText, List.cons_append] at enough ⊢
      simp only [List.length_append, List.length_cons] at enough
      rw [readOpening, readCurly]
      refine .step .advance fun _ _ => ?_
      dsimp only
      refine .ifUneaten (fun _ _ => by simp [grouped])
        (.ifNotKind (fun _ _ => by simp [grouped]) ?_)
      refine .bind (readExpr_grouped known (by omega)) (fun read same => ?_) fun _ _ => .of_none rfl
      refine .ifEaten rfl ?_
      refine .bind (readExpr_grouped (values value rfl) (by omega)) (fun other sameValue => ?_)
        fun next _ => (starts _ next).1
      refine ifClause nonempty (readClauses_closes rfl same ?_ targets iters conditions (by omega))
      rw [Expr.unspannedOption, Expr.unspannedOption, sameValue]

end Grammar

end DocSketch
