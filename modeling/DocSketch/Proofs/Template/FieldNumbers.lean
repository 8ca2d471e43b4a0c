import Mathlib
import DocSketch.Proofs.Template.Groups

/-!
# Numbers of fields

Numbering hands out numbers in the order in which fields close: a field with a name that has
been seen gets the number of that name, and any other field gets the next number.  The numbered
template is the tree of the groups, written with these numbers.

* `Template.Group.name`, `Template.Group.preview`: how a field is divided.
* `Template.Rendered`: the tree of groups, written with given numbers.
* `Template.Numbered`: what the names and numbers of closed fields have in common.
* `Template.NumbersFields`: numbers of the fields of a template.
* `Template.number_rendered`: numbering writes the tree with such numbers.
-/

namespace DocSketch

namespace Template

/-! ## Names and previews -/

/-- A text without the marker at its end. -/
def unmarked (options : TemplateOptions) (chars : List Char) : List Char :=
  chars.take (chars.length - options.fieldMarker.toList.length)

/-- The name of a field: what is written in it before the first colon, which has to stand
before all inner groups. -/
def Group.name (options : TemplateOptions) (group : Group) : List Char :=
  if ':' ∈ group.leading then (unmarked options group.raw).take (group.leading.idxOf ':') else []

/-- What a field shows of its content: all that follows its name, without the marker. -/
def Group.preview (options : TemplateOptions) (group : Group) (content : List Char) : List Char :=
  if ':' ∈ group.leading then (unmarked options content).drop (group.leading.idxOf ':' + 1)
  else unmarked options content

/-- A group with the given number and content in a numbered template. -/
def Group.numbered (options : TemplateOptions) (group : Group) (number : Nat)
    (content : List Char) : List Char :=
  let digits := (toString number).toList
  let preview := group.preview options content
  if group.isField then
    if preview = [] then ['\x7b'] ++ digits ++ ['\x7d']
    else ['\x7b'] ++ digits ++ [':'] ++ preview ++ ['\x7d']
  else if content ≠ [] ∧ ∀ c ∈ content, c.isDigit then content
  else ['\\', '\x7b'] ++ content ++ ['\\', '\x7d']

/-- The tree of groups, written with a number for each field. -/
def Rendered (options : TemplateOptions) (arena : List Group) (assigned : Nat → Nat) :
    List Item → List Char → Prop :=
  Assembled arena id fun index group content => group.numbered options (assigned index) content

/-- The name of a field ends before its first colon. -/
theorem idxOf_colon (cs : List Char) : cs.idxOf ':' = (cs.takeWhile (· != ':')).length := by
  induction cs with
  | nil => rfl
  | cons c cs ih =>
      by_cases colon : c = ':'
      · simp [colon]
      · simp [colon, ih]

/-- The marker of a field is taken away. -/
theorem unmarked_append (options : TemplateOptions) (front : List Char) :
    unmarked options (front ++ options.fieldMarker.toList) = front := by
  simp [unmarked]

theorem numberAll_cons (options : TemplateOptions) (numbering : Numbering) (segment : Segment)
    (segments : List Segment) :
    numberAll options numbering (segment :: segments) =
      ((segment.number options numbering).1 ++
          (numberAll options (segment.number options numbering).2 segments).1,
        (numberAll options (segment.number options numbering).2 segments).2) := rfl

/-- A last text is kept. -/
theorem numberAll_append_text (options : TemplateOptions) (numbering : Numbering)
    (segments : List Segment) (chars : List Char) :
    (numberAll options numbering (segments ++ [.text chars])).1 =
      (numberAll options numbering segments).1 ++ chars := by
  induction segments generalizing numbering with
  | nil => simp [numberAll, Segment.number]
  | cons segment segments ih => simp [numberAll_cons, ih]

/-- A last text is written last. -/
theorem writeAll_append_text (segments : List Segment) (chars : List Char) :
    writeAll (segments ++ [.text chars]) = writeAll segments ++ chars := by
  induction segments with
  | nil => simp [writeAll, Segment.write]
  | cons segment segments ih => simp [writeAll, ih]

/-- A field ends with a text that ends with the marker. -/
theorem exists_marked {options : TemplateOptions} {segments : List Segment}
    (field : isField options segments = true) :
    ∃ before front, segments = before ++ [.text (front ++ options.fieldMarker.toList)] := by
  unfold isField at field
  split at field
  case h_1 chars last =>
    obtain ⟨before, rfl⟩ := List.getLast?_eq_some_iff.mp last
    obtain ⟨front, rfl⟩ := List.isSuffixOf_iff_suffix.mp field
    exact ⟨before, front, rfl⟩
  case h_2 => exact absurd field (by simp)

/-- The name of a field is the same in its content, however inner groups are written. -/
theorem take_unmarked {options : TemplateOptions} (numbering : Numbering)
    {segments : List Segment} (field : isField options segments = true)
    (colon : ':' ∈ leadingText segments) :
    (unmarked options (numberAll options numbering segments).1).take
        ((leadingText segments).idxOf ':') =
      (unmarked options (writeAll segments)).take ((leadingText segments).idxOf ':') := by
  obtain ⟨before, front, rfl⟩ := exists_marked field
  rw [numberAll_append_text, writeAll_append_text, ← List.append_assoc, ← List.append_assoc,
    unmarked_append, unmarked_append]
  cases before with
  | nil => rfl
  | cons segment before =>
      cases segment with
      | text chars =>
          have within : chars.idxOf ':' ≤ chars.length := List.idxOf_le_length
          simp [leadingText, numberAll_cons, Segment.number, writeAll, Segment.write,
            List.take_append_of_le_length within]
      | group inner => simp [leadingText] at colon

/-- The marker is still there when what is inside a field has been numbered. -/
theorem stripEnd?_numberAll {options : TemplateOptions} (numbering : Numbering)
    {segments : List Segment} (field : isField options segments = true) :
    Text.stripEnd? options.fieldMarker.toList (numberAll options numbering segments).1 =
      some (unmarked options (numberAll options numbering segments).1) := by
  obtain ⟨before, front, rfl⟩ := exists_marked field
  rw [numberAll_append_text, ← List.append_assoc, stripEnd?_append, unmarked_append]

/-- Numbering divides the content of a field into its name and its preview. -/
theorem splitName_unmarked {options : TemplateOptions} (numbering : Numbering)
    {segments : List Segment} (field : isField options segments = true) (parent : Option Nat)
    (index : Nat) :
    let group := groupOf options parent index segments
    let content := (numberAll options numbering segments).1
    splitName (leadingText segments) (unmarked options content) =
      (group.name options, group.preview options content) := by
  intro group content
  have leading : group.leading = leadingText segments := leading_groupOf _ _ _ _
  rw [splitName, Group.name, Group.preview, leading]
  simp only [List.contains_iff_mem]
  by_cases colon : ':' ∈ leadingText segments
  · rw [if_pos colon, if_pos colon, if_pos colon, ← idxOf_colon,
      take_unmarked numbering field colon]
    rfl
  · rw [if_neg colon, if_neg colon, if_neg colon]

/-! ## Numbers of names -/

/-- The number of a field with the given name. -/
def numberName (numbering : Numbering) (name : List Char) : Nat × Numbering :=
  let (key, minted) := fieldKey numbering name
  minted.numberFor key

/-- Numbers of fields with the given names, one after the other. -/
def numberNames : Numbering → List (List Char) → List Nat × Numbering
  | numbering, [] => ([], numbering)
  | numbering, name :: names =>
    let (number, used) := numberName numbering name
    let (numbers, final) := numberNames used names
    (number :: numbers, final)

theorem numberNames_cons (numbering : Numbering) (name : List Char) (names : List (List Char)) :
    numberNames numbering (name :: names) =
      ((numberName numbering name).1 :: (numberNames (numberName numbering name).2 names).1,
        (numberNames (numberName numbering name).2 names).2) := rfl

theorem numberNames_append (numbering : Numbering) (first second : List (List Char)) :
    numberNames numbering (first ++ second) =
      ((numberNames numbering first).1 ++ (numberNames (numberNames numbering first).2 second).1,
        (numberNames (numberNames numbering first).2 second).2) := by
  induction first generalizing numbering with
  | nil => rfl
  | cons name first ih => rw [List.cons_append, numberNames_cons, ih, numberNames_cons,
      List.cons_append]

/-- Each name gets a number. -/
theorem length_numberNames (numbering : Numbering) (names : List (List Char)) :
    (numberNames numbering names).1.length = names.length := by
  induction names generalizing numbering with
  | nil => rfl
  | cons name names ih => rw [numberNames_cons, List.length_cons, List.length_cons, ih]

/-- Two fields with the given names and numbers share the number if they share the name. -/
def Matches (first second : List Char × Nat) : Prop :=
  first.2 = second.2 ↔ first.1 ≠ [] ∧ first.1 = second.1

instance : Std.Symm Matches where
  symm first second matched := by
    unfold Matches at matched ⊢
    rw [eq_comm, matched, ne_eq, ne_eq]
    constructor
    · rintro ⟨some, same⟩
      exact ⟨same ▸ some, same.symm⟩
    · rintro ⟨some, same⟩
      exact ⟨same ▸ some, same.symm⟩

/-- What the names and numbers of fields have in common, in the order in which the fields
close; `most` is the highest number. -/
structure Numbered (closed : List (List Char × Nat)) (most : Nat) : Prop where
  same : closed.Pairwise Matches
  used : ∀ number, number ∈ closed.map Prod.snd ↔ 1 ≤ number ∧ number ≤ most
  /-- A number that has not been used is the next one. -/
  next : ∀ before entry after, closed = before ++ entry :: after →
    entry.2 ∉ before.map Prod.snd → entry.2 = (before.map Prod.snd).toFinset.card + 1

theorem Numbered.nil : Numbered [] 0 where
  same := .nil
  used number := by
    simp only [List.map_nil, List.not_mem_nil, false_iff]
    omega
  next before entry after split := absurd split (by simp)

/-- The numbers up to the greatest one are all in use. -/
theorem Numbered.card {closed : List (List Char × Nat)} {most : Nat}
    (numbered : Numbered closed most) : (closed.map Prod.snd).toFinset.card = most := by
  have range : (closed.map Prod.snd).toFinset = Finset.Icc 1 most := by
    ext number
    rw [List.mem_toFinset, numbered.used, Finset.mem_Icc]
  rw [range, Nat.card_Icc, Nat.add_sub_cancel]

/-- One more field. -/
theorem Numbered.concat {closed : List (List Char × Nat)} {most after : Nat}
    {entry : List Char × Nat} (numbered : Numbered closed most)
    (matched : ∀ earlier ∈ closed, Matches earlier entry)
    (used : ∀ number, number ∈ closed.map Prod.snd ∨ number = entry.2 ↔
      1 ≤ number ∧ number ≤ after)
    (next : entry.2 ∉ closed.map Prod.snd → entry.2 = most + 1) :
    Numbered (closed ++ [entry]) after where
  same := by
    refine List.pairwise_append.mpr ⟨numbered.same, List.pairwise_singleton _ _, ?_⟩
    intro earlier member last here
    cases List.mem_singleton.mp here
    exact matched earlier member
  used number := by
    rw [← used, List.map_append, List.mem_append, List.map_singleton, List.mem_singleton]
  next before later rest split unused := by
    rcases List.eq_nil_or_concat rest with rfl | ⟨rest, last, rfl⟩
    · obtain ⟨rfl, same⟩ := List.append_inj' split rfl
      cases same
      rw [numbered.card]
      exact next unused
    · rw [List.concat_eq_append, ← List.cons_append, ← List.append_assoc] at split
      exact numbered.next before later rest (List.append_inj' split rfl).1 unused

/-- A field with a name that has been seen gets its number. -/
theorem Numbered.again {closed : List (List Char × Nat)} {most number : Nat} {name : List Char}
    (numbered : Numbered closed most) (some : name ≠ []) (seen : (name, number) ∈ closed) :
    Numbered (closed ++ [(name, number)]) most := by
  have old : number ∈ closed.map Prod.snd := List.mem_map_of_mem seen
  refine numbered.concat ?_ ?_ fun unused => absurd old unused
  · intro earlier member
    by_cases same : earlier = (name, number)
    · rw [same]
      exact ⟨fun _ => ⟨some, rfl⟩, fun _ => rfl⟩
    · exact numbered.same.forall member seen same
  · intro other
    rw [← numbered.used, or_iff_left_of_imp]
    rintro rfl
    exact old

/-- A field with no name, or with a name that has not been seen, gets the next number. -/
theorem Numbered.fresh {closed : List (List Char × Nat)} {most : Nat} {name : List Char}
    (numbered : Numbered closed most) (unseen : name ≠ [] → ∀ number, (name, number) ∉ closed) :
    Numbered (closed ++ [(name, most + 1)]) (most + 1) := by
  refine numbered.concat ?_ ?_ fun _ => rfl
  · rintro ⟨title, number⟩ member
    have used := (numbered.used number).mp (List.mem_map_of_mem member)
    constructor
    · rintro rfl
      exact absurd used.2 (Nat.not_succ_le_self most)
    · rintro ⟨some, rfl⟩
      exact absurd member (unseen some number)
  · intro number
    rw [numbered.used]
    omega

/-- The numbers in use are those of the fields that have closed. -/
structure Records (numbering : Numbering) (closed : List (List Char × Nat)) (most : Nat) :
    Prop where
  numbered : Numbered closed most
  named : ∀ name number, name ≠ [] →
    (numbering.numbers.lookup (.named (String.ofList name)) = some number ↔
      (name, number) ∈ closed)
  minted : ∀ id, numbering.minted < id → numbering.numbers.lookup (.anonymous id) = none
  highest : numbering.highest = most

theorem Records.empty : Records .empty [] 0 where
  numbered := .nil
  named name number some := by simp [Numbering.empty]
  minted id above := rfl
  highest := rfl

/-- A new key gets the next number. -/
theorem numberFor_of_none {numbering : Numbering} {key : FieldKey}
    (absent : numbering.numbers.lookup key = none) :
    numbering.numberFor key =
      (numbering.highest + 1,
        { numbering with numbers := (key, numbering.highest + 1) :: numbering.numbers }) := by
  simp only [Numbering.numberFor, absent]

theorem highest_cons (key : FieldKey) (number : Nat) (numbering : Numbering) :
    Numbering.highest { numbering with numbers := (key, number) :: numbering.numbers } =
      max number numbering.highest := rfl

/-- A field without a name gets a key of its own. -/
theorem fieldKey_of_blank (numbering : Numbering) {name : List Char} (blank : Text.trim name = []) :
    fieldKey numbering name = numbering.mint := by
  simp [fieldKey, blank]

/-- A field with a name has the name as its key. -/
theorem fieldKey_of_named (numbering : Numbering) {name : List Char} (some : Text.trim name ≠ []) :
    fieldKey numbering name = (.named (String.ofList (Text.trim name)), numbering) := by
  simp [fieldKey, some]

/-- A field without a name gets a number of its own. -/
theorem Records.unnamed {numbering : Numbering} {closed : List (List Char × Nat)} {most : Nat}
    (records : Records numbering closed most) {name : List Char} (blank : Text.trim name = []) :
    Records (numberName numbering name).2 (closed ++ [([], (numberName numbering name).1)])
      (most + 1) := by
  have absent : numbering.mint.2.numbers.lookup numbering.mint.1 = none :=
    records.minted _ (Nat.lt_succ_self _)
  have highest : numbering.mint.2.highest = most := records.highest
  have same : numberName numbering name = numbering.mint.2.numberFor numbering.mint.1 := by
    rw [numberName, fieldKey_of_blank numbering blank]
  rw [same, numberFor_of_none absent, highest]
  refine ⟨records.numbered.fresh fun some => absurd rfl some, ?_, ?_, ?_⟩
  · intro title number some
    have old : (title, number) ∈ closed ++ [([], most + 1)] ↔ (title, number) ∈ closed := by
      simp [some]
    rw [old, ← records.named title number some]
    rfl
  · intro id above
    have other : (FieldKey.anonymous id == FieldKey.anonymous (numbering.minted + 1)) = false := by
      have apart : id ≠ numbering.minted + 1 := Nat.ne_of_gt above
      simpa using apart
    rw [Numbering.mint, List.lookup_cons, other]
    exact records.minted id (Nat.lt_of_succ_lt above)
  · rw [highest_cons, highest]
    omega

/-- A field with a name gets the number of the name, the next one if it has none. -/
theorem Records.titled {numbering : Numbering} {closed : List (List Char × Nat)} {most : Nat}
    (records : Records numbering closed most) {name : List Char} (some : Text.trim name ≠ []) :
    ∃ after, Records (numberName numbering name).2
      (closed ++ [(Text.trim name, (numberName numbering name).1)]) after := by
  rw [numberName, fieldKey_of_named numbering some]
  cases known : numbering.numbers.lookup (.named (String.ofList (Text.trim name))) with
  | some number =>
      have seen := (records.named _ number some).mp known
      simp only [Numbering.numberFor, known]
      refine ⟨most, records.numbered.again some seen, ?_, records.minted, records.highest⟩
      intro title other titled
      rw [records.named title other titled, List.mem_append, List.mem_singleton,
        or_iff_left_of_imp]
      rintro same
      rw [same]
      exact seen
  | none =>
      have unseen : ∀ number, (Text.trim name, number) ∉ closed := by
        intro number member
        rw [← records.named _ number some, known] at member
        cases member
      simp only [numberFor_of_none known, records.highest]
      refine ⟨most + 1, records.numbered.fresh fun _ => unseen, ?_, ?_, ?_⟩
      · intro title number titled
        by_cases same : title = Text.trim name
        · subst same
          simp [unseen, eq_comm]
        · have other : (FieldKey.named (String.ofList title) ==
              FieldKey.named (String.ofList (Text.trim name))) = false := by
            simpa [String.ofList_inj] using same
          rw [List.lookup_cons, other, records.named title number titled]
          simp [same]
      · intro id above
        exact records.minted id above
      · rw [highest_cons, records.highest]
        omega

/-- Numbering more fields keeps the records. -/
theorem Records.numberNames {numbering : Numbering} {closed : List (List Char × Nat)} {most : Nat}
    (records : Records numbering closed most) (names : List (List Char)) :
    ∃ after, Records (numberNames numbering names).2
      (closed ++ (names.map Text.trim).zip (Template.numberNames numbering names).1) after := by
  induction names generalizing numbering closed most with
  | nil =>
      rw [List.map_nil, List.zip_nil_left, List.append_nil]
      exact ⟨most, records⟩
  | cons name names ih =>
      have step : ∃ after, Records (numberName numbering name).2
          (closed ++ [(Text.trim name, (numberName numbering name).1)]) after := by
        by_cases blank : Text.trim name = []
        · rw [blank]
          exact ⟨_, records.unnamed blank⟩
        · exact records.titled blank
      obtain ⟨middle, step⟩ := step
      obtain ⟨after, rest⟩ := ih step
      refine ⟨after, ?_⟩
      rwa [List.append_assoc] at rest

/-! ## The tree -/

/-- Whether the group with a number is a field. -/
def isFieldAt (arena : List Group) (index : Nat) : Bool := arena[index]?.any Group.isField

/-- The name of the group with a number. -/
def nameAt (options : TemplateOptions) (arena : List Group) (index : Nat) : List Char :=
  arena[index]?.elim [] (Group.name options)

/-- A field with its number, as numbering writes it. -/
theorem numberField_eq_numbered {options : TemplateOptions} (start numbering : Numbering)
    {segments : List Segment} (field : isField options segments = true) (parent : Option Nat)
    (index : Nat) :
    let group := groupOf options parent index segments
    let content := (numberAll options start segments).1
    numberField options numbering (leadingText segments) content =
      (group.numbered options (numberName numbering (group.name options)).1 content,
        (numberName numbering (group.name options)).2) := by
  intro group content
  have field' : group.isField = true := field
  have split := splitName_unmarked start field parent index
  simp only at split
  rw [numberField, stripEnd?_numberAll start field, Option.getD_some, split]
  simp only [Group.numbered, field', ↓reduceIte, numberName, writeField, List.isEmpty_iff]
  rfl

/-- A group other than a field is written around its content. -/
theorem writePlain_eq_numbered {options : TemplateOptions} {segments : List Segment}
    (plain : isField options segments = false) (parent : Option Nat) (index number : Nat)
    (content : List Char) :
    writePlain content =
      (groupOf options parent index segments).numbered options number content := by
  have plain' : (groupOf options parent index segments).isField = false := plain
  simp [Group.numbered, plain', writePlain, List.all_eq_true]

/-- The fields among groups. -/
def fieldsAmong (arena : List Group) (order : List Nat) : List Nat :=
  order.filter (isFieldAt arena)

/-- Numbers of the fields among groups, one after the other. -/
def numberGroups (options : TemplateOptions) (arena : List Group) (numbering : Numbering)
    (order : List Nat) : List Nat × Numbering :=
  numberNames numbering ((fieldsAmong arena order).map (nameAt options arena))

section Rendering

variable {options : TemplateOptions} {arena : List Group} {assigned : Nat → Nat}

theorem numberGroups_append (numbering : Numbering) (first second : List Nat) :
    numberGroups options arena numbering (first ++ second) =
      ((numberGroups options arena numbering first).1 ++
          (numberGroups options arena (numberGroups options arena numbering first).2 second).1,
        (numberGroups options arena (numberGroups options arena numbering first).2 second).2) := by
  rw [numberGroups, fieldsAmong, List.filter_append, List.map_append, numberNames_append]
  rfl

/-- Each field among the groups gets a number. -/
theorem length_numberGroups (numbering : Numbering) (order : List Nat) :
    (numberGroups options arena numbering order).1.length = (fieldsAmong arena order).length := by
  rw [numberGroups, length_numberNames, List.length_map]

variable (options arena assigned) in
/-- The numbers assigned to the fields among groups are those that they get. -/
def Agrees (numbering : Numbering) (order : List Nat) : Prop :=
  (fieldsAmong arena order).map assigned = (numberGroups options arena numbering order).1

theorem Agrees.of_append {numbering : Numbering} {first second : List Nat}
    (agrees : Agrees options arena assigned numbering (first ++ second)) :
    Agrees options arena assigned numbering first ∧
      Agrees options arena assigned (numberGroups options arena numbering first).2 second := by
  rw [Agrees, numberGroups_append, fieldsAmong, List.filter_append, List.map_append] at agrees
  refine List.append_inj agrees ?_
  rw [List.length_map, length_numberGroups, fieldsAmong]

/-- A group, as numbering writes it. -/
theorem number_group {inner : List Segment} {parent index : Nat} {start numbering used : Numbering}
    (here : arena[index]? = some (groupOf options (some parent) index inner))
    (content : (numberAll options start inner).2 = numbering)
    (agrees : Agrees options arena assigned numbering [index])
    (final : (numberGroups options arena numbering [index]).2 = used) :
    (Segment.group inner).number options start =
      ((groupOf options (some parent) index inner).numbered options (assigned index)
        (numberAll options start inner).1, used) := by
  have isField : isFieldAt arena index = isField options inner := by
    rw [isFieldAt, here]
    rfl
  have name : nameAt options arena index =
      (groupOf options (some parent) index inner).name options := by
    rw [nameAt, here]
    rfl
  by_cases field : Template.isField options inner = true
  · have alone : fieldsAmong arena [index] = [index] := by
      simp [fieldsAmong, isField, field]
    have same : assigned index = (numberName numbering (nameAt options arena index)).1 := by
      simpa [Agrees, numberGroups, alone, numberNames_cons, numberNames] using agrees
    have last : (numberName numbering (nameAt options arena index)).2 = used := by
      simpa [numberGroups, alone, numberNames_cons, numberNames] using final
    simp only [Segment.number, content, field, ↓reduceIte]
    rw [numberField_eq_numbered start numbering field (some parent) index, ← name, ← same, last]
  · have none : fieldsAmong arena [index] = [] := by
      simp [fieldsAmong, isField, field]
    have last : numbering = used := by
      simpa [numberGroups, none, numberNames] using final
    rw [Bool.not_eq_true] at field
    simp only [Segment.number, content, field, Bool.false_eq_true, ↓reduceIte]
    rw [writePlain_eq_numbered field (some parent) index (assigned index), last]

/-- Numbering writes the tree, with the numbers that fields get as they close. -/
theorem Stored.rendered {parent next : Nat} {segments : List Segment}
    (stored : Stored options arena parent next segments) (numbering : Numbering)
    (agrees : Agrees options arena assigned numbering (closingInside next segments)) :
    Rendered options arena assigned (itemsFrom next segments)
        (numberAll options numbering segments).1 ∧
      (numberAll options numbering segments).2 =
        (numberGroups options arena numbering (closingInside next segments)).2 := by
  induction segments using segments_induction generalizing parent next numbering with
  | nil => exact ⟨.nil, rfl⟩
  | text chars segments ih =>
      obtain ⟨rest, final⟩ := ih stored.text numbering agrees
      exact ⟨.text chars rest, final⟩
  | group inner segments inside ih =>
      obtain ⟨here, within, after⟩ := stored.group
      rw [closingInside, Segment.closing, Segment.groupCount, ← Nat.add_assoc] at agrees ⊢
      obtain ⟨first, later⟩ := agrees.of_append
      obtain ⟨below, own⟩ := first.of_append
      obtain ⟨content, used⟩ := inside within numbering below
      have whole := number_group here used own rfl
      rw [numberGroups_append] at later
      obtain ⟨rest, final⟩ := ih after _ later
      rw [numberAll_cons, whole, numberGroups_append, numberGroups_append]
      exact ⟨.group here content rest, final⟩

end Rendering

/-! ## Numbers of the fields of a template -/

/-- A list without repetitions can be mapped to any list of its length. -/
theorem exists_map_eq {indices values : List Nat} (once : indices.Nodup)
    (length : values.length = indices.length) : ∃ assigned, indices.map assigned = values := by
  refine ⟨fun index => values.getD (indices.idxOf index) 0, ?_⟩
  refine List.ext_getElem (by simp [length]) ?_
  intro position inside within
  simp [List.Nodup.idxOf_getElem once, within]

/-- Numbers of the fields of a template; `order` gives the groups as they close. -/
structure NumbersFields (options : TemplateOptions) (arena : List Group) (order : List Nat)
    (assigned : Nat → Nat) : Prop where
  /-- Two fields share a number if they share a name. -/
  same : ∀ first ∈ fieldsAmong arena order, ∀ second ∈ fieldsAmong arena order, first ≠ second →
    (assigned first = assigned second ↔
      Text.trim (nameAt options arena first) ≠ [] ∧
        Text.trim (nameAt options arena first) = Text.trim (nameAt options arena second))
  /-- The numbers in use are those from one on. -/
  used : ∃ most, ∀ number,
    number ∈ (fieldsAmong arena order).map assigned ↔ 1 ≤ number ∧ number ≤ most
  /-- A field that does not share the number of an earlier one gets the next number. -/
  next : ∀ before index after, fieldsAmong arena order = before ++ index :: after →
    assigned index ∉ before.map assigned →
      assigned index = (before.map assigned).toFinset.card + 1
  /-- A field is numbered after the fields inside it. -/
  late : ∀ before index after, fieldsAmong arena order = before ++ index :: after →
    ∀ inner ∈ fieldsAmong arena order,
      Relation.TransGen (fun child parent => parentOf arena child = some parent) inner index →
        inner ∈ before

/-- A group closes after all groups inside it, at any depth. -/
theorem mem_of_bottomUp_inside {options : TemplateOptions} {segments : List Segment}
    {before after : List Nat} {inner index : Nat}
    (inside : Relation.TransGen
      (fun child parent => parentOf (groups options segments) child = some parent) inner index)
    (closes : bottomUp segments = before ++ index :: after) : inner ∈ before := by
  induction inside generalizing before after with
  | single named => exact mem_of_bottomUp closes named
  | tail path named ih =>
      obtain ⟨earlier, later, rfl⟩ := List.append_of_mem (mem_of_bottomUp closes named)
      rw [List.append_assoc] at closes
      exact List.mem_append_left _ (ih closes)

/-- A field among groups is one before or behind a given one. -/
theorem mem_of_fieldsAmong {options : TemplateOptions} {segments : List Segment}
    {before after : List Nat} {inner index : Nat}
    (split : fieldsAmong (groups options segments) (bottomUp segments) = before ++ index :: after)
    (field : inner ∈ fieldsAmong (groups options segments) (bottomUp segments))
    (inside : Relation.TransGen
      (fun child parent => parentOf (groups options segments) child = some parent) inner index) :
    inner ∈ before := by
  obtain ⟨front, back, whole, rfl, rest⟩ := List.filter_eq_append_iff.mp split
  obtain ⟨between, later, rfl, others, -, -⟩ := List.filter_eq_cons_iff.mp rest
  rw [← List.append_assoc] at whole
  have isField := (List.mem_filter.mp field).2
  rcases List.mem_append.mp (mem_of_bottomUp_inside inside whole) with early | other
  · exact List.mem_filter.mpr ⟨early, isField⟩
  · exact absurd isField (others inner other)

/-- Numbers that the names of fields get as the fields close. -/
theorem numbersFields_of_numbered {options : TemplateOptions} {segments : List Segment}
    {assigned : Nat → Nat} {most : Nat}
    (numbered : Numbered
      ((fieldsAmong (groups options segments) (bottomUp segments)).map fun index =>
        (Text.trim (nameAt options (groups options segments) index), assigned index)) most) :
    NumbersFields options (groups options segments) (bottomUp segments) assigned := by
  obtain ⟨same, used, next⟩ := numbered
  refine ⟨?_, ⟨most, ?_⟩, ?_, ?_⟩
  · intro first one second other apart
    exact (List.pairwise_map.mp same).forall one other apart
  · intro number
    rw [← used, List.map_map]
    rfl
  · intro before index after split unused
    have entry := next _ _ _ (by rw [split, List.map_append, List.map_cons])
    rw [List.map_map] at entry
    exact entry unused
  · intro before index after split inner field inside
    exact mem_of_fieldsAmong split field inside

/-- **Numbering.** The numbered template is the tree of the groups of the template, written with
numbers that fields share if they share a name, that are handed out as fields close, and that
leave none out. -/
theorem number_rendered {options : TemplateOptions} {text : String} {arena : Arena}
    (built : build options text = .ok arena) :
    ∃ (numbered : String) (root : Group) (assigned : Nat → Nat),
      number options text = .ok numbered ∧
      arena.groups[0]? = some root ∧
      Rendered options arena.groups assigned root.items numbered.toList ∧
      NumbersFields options arena.groups arena.closed assigned := by
  obtain ⟨segments, parsed, rfl⟩ := parse_of_build built
  have once : (fieldsAmong (groups options segments) (bottomUp segments)).Nodup :=
    ((bottomUp_perm segments).nodup_iff.mpr List.nodup_range).filter _
  obtain ⟨assigned, agrees⟩ := exists_map_eq once
    (@length_numberGroups options _ .empty (bottomUp segments))
  have inside := (Agrees.of_append agrees).1
  obtain ⟨rendered, -⟩ := stored_groups.rendered .empty inside
  obtain ⟨most, records⟩ := Records.empty.numberNames
    ((fieldsAmong (groups options segments) (bottomUp segments)).map
      (nameAt options (groups options segments)))
  have numbered := records.numbered
  rw [List.nil_append, ← numberGroups, ← agrees, List.map_map, List.zip_map'] at numbered
  refine ⟨String.ofList (numberAll options .empty segments).1, _, assigned,
    number_of_parse parsed, represents_root.found, ?_, numbersFields_of_numbered numbered⟩
  rw [String.toList_ofList]
  exact rendered

/-- Fields with a shared name, one of them inside another field. -/
theorem number_rendered_shared :
    let options : TemplateOptions := ⟨":f", "<", ">"⟩
    let text := "\x7bn:\x7b m :a:f\x7d\x7b7\x7d:f\x7d\x7bm::f\x7d\x7b:f\x7d\x7bx\x7d"
    let segments : List Segment :=
      [.group [.text ['n', ':'], .group [.text [' ', 'm', ' ', ':', 'a', ':', 'f']],
          .group [.text ['7']], .text [':', 'f']],
        .group [.text ['m', ':', ':', 'f']], .group [.text [':', 'f']], .group [.text ['x']]]
    let arena := flatten options segments
    build options text = .ok arena ∧
      number options text = .ok "\x7b2:\x7b1:a\x7d7\x7d\x7b1\x7d\x7b3\x7d\\\x7bx\\\x7d" ∧
      ∃ (numbered : String) (root : Group) (assigned : Nat → Nat),
        number options text = .ok numbered ∧
        arena.groups[0]? = some root ∧
        Rendered options arena.groups assigned root.items numbered.toList ∧
        NumbersFields options arena.groups arena.closed assigned := by
  intro options text segments arena
  have parsed : parse options text = .ok segments := by cbv
  have built : build options text = .ok arena := build_of_parse parsed
  refine ⟨built, ?_, number_rendered built⟩
  rw [number_of_parse parsed]
  exact congrArg Except.ok (by decide +kernel)

end Template

end DocSketch
