import DocSketch.Proofs.Template.Flattening

/-!
# Groups that a scan builds

The scan of a template enters a group into the list at its opening brace, fills it with what it
meets next, and cuts its text out of the template at the closing brace.  At every point the list
is that of a tree, cut off where the scan has come to; so the scan ends with the groups of the
tree that the braces of the template nest it into.

* `Template.Ends`: a loop ends with a result after a number of rounds.
* `Template.Builder.front`: what a scan has taken of a template.
* `Template.Builder.reached`: the state of a scan, told from the tree so far.
* `Template.Builder.ends`: the scan ends with the groups of the tree.
* `Template.build_eq`: the groups of a template are those of its segments.
-/

namespace DocSketch

namespace Template

/-! ## Loops -/

section Ends

variable {σ ρ : Type}

/-- A loop that goes through a state ends with a result after a number of further rounds. -/
inductive Ends (step : σ → σ ⊕ ρ) : σ → Nat → ρ → Prop
  | stop {state : σ} {result : ρ} (stops : step state = .inr result) : Ends step state 0 result
  | goOn {state next : σ} {rounds : Nat} {result : ρ} (goes : step state = .inl next)
      (later : Ends step next rounds result) : Ends step state (rounds + 1) result

end Ends

/-- The scan of a template comes to the result of its loop. -/
theorem Builder.run_of_ends {options : TemplateOptions} {text : List Char} {state : Builder}
    {rounds : Nat} {result : Except Fault Arena}
    (ends : Ends (step options text) state rounds result) :
    run options text state = result := by
  induction ends with
  | stop stops =>
      rw [run]
      split
      case h_1 next goes => cases stops.symm.trans goes
      case h_2 outcome found => cases stops.symm.trans found; rfl
  | goOn goes later ih =>
      rw [run]
      split
      case h_1 next goes' => cases goes.symm.trans goes'; exact ih
      case h_2 outcome stops => cases goes.symm.trans stops

/-! ## Text before and behind text -/

/-- Puts text that may be empty before pieces. -/
def hide (chars : List Char) (pieces : List Piece) : List Piece :=
  if chars.isEmpty then pieces else prependText chars pieces

/-- Texts before pieces are put together. -/
theorem prependText_prependText (first second : List Char) (pieces : List Piece) :
    prependText first (prependText second pieces) = prependText (first ++ second) pieces := by
  cases pieces with
  | nil => rfl
  | cons piece others =>
      cases piece with
      | text chars => simp only [prependText, List.append_assoc]
      | opening | closing => rfl

/-- Text that is held back goes before the text that follows. -/
theorem hide_prependText {chars : List Char} (some : chars ≠ []) (pending : List Char)
    (pieces : List Piece) :
    hide pending (prependText chars pieces) = hide (pending ++ chars) pieces := by
  cases pending with
  | nil => simp only [hide, List.isEmpty_nil, ↓reduceIte, List.nil_append, List.isEmpty_iff, some]
  | cons c pending =>
      simp only [hide, List.isEmpty_cons, Bool.false_eq_true, ↓reduceIte, prependText_prependText,
        List.cons_append]

/-- Adds text behind segments, the latest of which comes first; text after text becomes one
segment. -/
def pushText (chars : List Char) : List Segment → List Segment
  | .text others :: segments => .text (others ++ chars) :: segments
  | segments => .text chars :: segments

/-- Segments with text behind them that may be empty. -/
def held (pending : List Char) (current : List Segment) : List Segment :=
  if pending.isEmpty then current else .text pending :: current

theorem held_nil (current : List Segment) : held [] current = current := rfl

/-- Text that is held back and the text that follows are pushed at once. -/
theorem pushText_held {chars : List Char} {current : List Segment} (some : chars ≠ [])
    (fresh : ∀ others segments, current ≠ .text others :: segments) (pending : List Char) :
    pushText chars (held pending current) = held (pending ++ chars) current := by
  cases pending with
  | nil =>
      simp only [held, List.isEmpty_nil, ↓reduceIte, List.nil_append, List.isEmpty_iff, some]
      rw [pushText]
      exact fresh
  | cons c pending => rfl

/-- Text that is held back is written last. -/
theorem writeAll_held (pending : List Char) (current : List Segment) :
    writeAll (held pending current).reverse = writeAll current.reverse ++ pending := by
  cases pending with
  | nil => rw [held, List.isEmpty_nil, if_pos rfl, List.append_nil]
  | cons c pending =>
      rw [held, List.isEmpty_cons, if_neg Bool.false_ne_true, List.reverse_cons, writeAll_append,
        writeAll, writeAll, Segment.write, List.append_nil]

/-- Text before pieces that do not start with text is held back as a segment. -/
theorem nest_hide (offset : Nat) (pending : List Char) (current : List Segment)
    (outer : List (Nat × List Segment)) {pieces : List Piece}
    (fresh : ∀ others more, pieces ≠ .text others :: more) :
    nest offset current outer (hide pending pieces) =
      nest (offset + Text.byteLength pending) (held pending current) outer pieces := by
  cases pending with
  | nil => rfl
  | cons c pending =>
      have apart : prependText (c :: pending) pieces = .text (c :: pending) :: pieces := by
        rw [prependText]
        exact fresh
      simp only [hide, held, List.isEmpty_cons, Bool.false_eq_true, ↓reduceIte, apart]
      rw [nest]

/-- The segments in front of a segment that grows do not change. -/
theorem groups_pushText (options : TemplateOptions) (chars : List Char) (current : List Segment)
    (parent next : Nat) :
    groupsInside options parent next (pushText chars current).reverse =
        groupsInside options parent next current.reverse ∧
      closingInside next (pushText chars current).reverse =
        closingInside next current.reverse := by
  rcases current with - | ⟨others | inner, current⟩ <;>
    simp [pushText, groupsInside_append, closingInside_append, groupsInside, Segment.groupsFrom,
      closingInside, Segment.closing]

namespace Builder

/-! ## The tree so far -/

/-- The number of the innermost open group.  For each open group but the template, `outer` has
the segments before it, the latest first, and the innermost group comes first. -/
def innermost : List (List Segment) → Nat
  | [] => 0
  | before :: outer => innermost outer + 1 + groupCountAll before.reverse

/-- What a scan has taken of a template; `current` are the segments of the innermost open group,
the latest first. -/
def front : List (List Segment) → List Segment → List Char
  | [], current => writeAll current.reverse
  | before :: outer, current => front outer before ++ '\x7b' :: writeAll current.reverse

/-- The open groups as nesting keeps them: the offset of each brace with the segments before
it. -/
def enclosing : List (List Segment) → List (Nat × List Segment)
  | [] => []
  | before :: outer => (Text.byteLength (front outer before), before) :: enclosing outer

/-- The number of the group that the innermost open one stands in. -/
def around : List (List Segment) → Option Nat
  | [] => none
  | _ :: outer => some (innermost outer)

/-- The innermost open group with its segments so far. -/
def openGroupOf (outer : List (List Segment)) (segments : List Segment) : Group :=
  ⟨[], itemsFrom (innermost outer + 1) segments, around outer, false⟩

/-- The groups that have been opened before the innermost one. -/
def earlier (options : TemplateOptions) : List (List Segment) → List Group
  | [] => []
  | before :: outer =>
    earlier options outer ++ openGroupOf outer (before.reverse ++ [.group []]) ::
      groupsInside options (innermost outer) (innermost outer + 1) before.reverse

/-- The groups that have been closed before the innermost open one was opened. -/
def closedBefore : List (List Segment) → List Nat
  | [] => []
  | before :: outer =>
    closedBefore outer ++ closingInside (innermost outer + 1) before.reverse

/-- The open groups with the offsets behind their braces. -/
def openGroups : List (List Segment) → List (Nat × Nat)
  | [] => [(0, 0)]
  | before :: outer =>
    (innermost (before :: outer), Text.byteLength (front outer before) + 1) :: openGroups outer

/-- The state of a scan that has taken the tree up to some point, and has the rest to go. -/
def reached (options : TemplateOptions) (outer : List (List Segment)) (current : List Segment)
    (rest : List Char) : Builder where
  offset := Text.byteLength (front outer current)
  groups := earlier options outer ++ openGroupOf outer current.reverse ::
    groupsInside options (innermost outer) (innermost outer + 1) current.reverse
  closed := closedBefore outer ++ closingInside (innermost outer + 1) current.reverse
  stack := openGroups outer
  rest := rest

variable {options : TemplateOptions} {outer : List (List Segment)} {current : List Segment}

/-- The groups of the segments passed before are those inside the open groups. -/
theorem length_earlier (outer : List (List Segment)) :
    (earlier options outer).length = innermost outer := by
  induction outer with
  | nil => rfl
  | cons before outer ih =>
      rw [earlier, List.length_append, List.length_cons, length_groupsInside, ih, innermost,
        Nat.add_right_comm, Nat.add_assoc]

/-- A group for the root, for each open one and for each that is closed. -/
theorem length_groups_reached (rest : List Char) :
    (reached options outer current rest).groups.length =
      innermost outer + 1 + groupCountAll current.reverse := by
  simp only [reached, List.length_append, List.length_cons, length_earlier, length_groupsInside]
  omega

/-- The innermost open group is changed in its place. -/
theorem modify_innermost (change : Group → Group) (group : Group) (inside : List Group) :
    (earlier options outer ++ group :: inside).modify (innermost outer) change =
      earlier options outer ++ change group :: inside := by
  have length : (earlier options outer).length = innermost outer := length_earlier outer
  rw [← length]
  induction earlier options outer with
  | nil => rfl
  | cons first others ih => rw [List.cons_append, List.length_cons, List.modify_succ_cons, ih]; rfl

/-- Text that is held back is at the end of what was read. -/
theorem front_held (pending : List Char) :
    front outer (held pending current) = front outer current ++ pending := by
  cases outer with
  | nil => exact writeAll_held pending current
  | cons before outer => simp only [front, writeAll_held, List.append_assoc, List.cons_append]

/-! ## Rounds -/

/-- Text that is added to the innermost open group. -/
theorem pushText_openGroupOf (chars : List Char) :
    (openGroupOf outer current.reverse).pushText chars =
      openGroupOf outer (pushText chars current).reverse := by
  rcases current with - | ⟨others | inner, current⟩ <;>
    simp [openGroupOf, Group.pushText, pushText, itemsFrom_append, itemsFrom]

/-- A text that is pushed is at the end of what was read. -/
theorem front_pushText (chars : List Char) :
    front outer (pushText chars current) = front outer current ++ chars := by
  have written : writeAll (pushText chars current).reverse = writeAll current.reverse ++ chars := by
    rcases current with - | ⟨others | inner, current⟩ <;>
      simp [pushText, writeAll_append, writeAll, Segment.write]
  cases outer with
  | nil => exact written
  | cons before outer => simp only [front, written, List.append_assoc, List.cons_append]

/-- A round that takes text. -/
theorem take_reached (size : Nat) (rest : List Char) :
    (reached options outer current rest).take (innermost outer) size =
      reached options outer (pushText (rest.take size) current) (rest.drop size) := by
  obtain ⟨inside, closed⟩ := groups_pushText options (rest.take size) current (innermost outer)
    (innermost outer + 1)
  simp only [take, reached, modify_innermost, pushText_openGroupOf, inside, closed, front_pushText,
    Text.byteLength_append]

/-- A round that meets an opening brace. -/
theorem openGroup_reached (rest : List Char) :
    (reached options outer current ('\x7b' :: rest)).openGroup (innermost outer) =
      reached options (current :: outer) [] rest := by
  have named : (openGroupOf outer current.reverse).pushGroup
      (innermost outer + 1 + groupCountAll current.reverse) =
        openGroupOf outer (current.reverse ++ [.group []]) := by
    simp [openGroupOf, Group.pushGroup, itemsFrom_append, itemsFrom]
  have length : (reached options outer current ('\x7b' :: rest)).groups.length =
      innermost outer + 1 + groupCountAll current.reverse := length_groups_reached _
  simp only [openGroup, length]
  simp only [reached, modify_innermost, named, earlier, closedBefore, openGroups, front, innermost,
    List.reverse_nil, groupsInside, closingInside, List.append_nil, writeAll,
    Text.byteLength_append, Text.byteLength_cons, Text.byteLength_nil, List.drop_one,
    List.tail_cons]
  rfl

/-- A group that is closed has its text and is marked as a field if it ends with the marker. -/
theorem close_openGroupOf (before : List Segment) :
    (openGroupOf (before :: outer) current.reverse).close options (writeAll current.reverse) =
      groupOf options (some (innermost outer)) (innermost (before :: outer)) current.reverse := by
  have marked : ((openGroupOf (before :: outer) current.reverse).close options
      (writeAll current.reverse)).isField = isField options current.reverse := by
    rcases current with - | ⟨chars | inner, current⟩ <;>
      simp [openGroupOf, Group.close, isField, itemsFrom_append, itemsFrom]
  rw [groupOf, ← marked]
  rfl

/-- The text of the innermost open group lies between the offset behind its brace and the
point that the scan has come to. -/
theorem slice?_front {text : List Char} {before : List Segment} {rest : List Char}
    (whole : text = front (before :: outer) current ++ rest) :
    Text.slice? ⟨Text.byteLength (front outer before) + 1,
        Text.byteLength (front (before :: outer) current)⟩ text =
      some (writeAll current.reverse) := by
  have brace : Text.byteLength (front outer before) + 1 =
      Text.byteLength (front outer before ++ ['\x7b']) := by
    rw [Text.byteLength_append]
    rfl
  have parts : front (before :: outer) current =
      (front outer before ++ ['\x7b']) ++ writeAll current.reverse := by
    rw [front, List.append_assoc, List.singleton_append]
  rw [whole, brace, parts, Text.byteLength_append _ (writeAll current.reverse), Text.slice?_append]

/-- What has been taken once a group is opened. -/
theorem front_opened : front (current :: outer) [] = front outer current ++ ['\x7b'] := rfl

/-- What has been taken once a group is closed. -/
theorem front_closed (before : List Segment) :
    front outer (.group current.reverse :: before) =
      front (before :: outer) current ++ ['\x7d'] := by
  cases outer with
  | nil => simp [front, writeAll_append, writeAll, Segment.write]
  | cons inner outer => simp [front, writeAll_append, writeAll, Segment.write]

/-- A round that meets a closing brace. -/
theorem closeGroup_reached {text : List Char} {before : List Segment} {rest : List Char}
    (whole : text = front (before :: outer) current ++ '\x7d' :: rest) :
    (reached options (before :: outer) current ('\x7d' :: rest)).closeGroup options text
        (innermost (before :: outer)) (Text.byteLength (front outer before) + 1)
        (openGroups outer) =
      reached options outer (.group current.reverse :: before) rest := by
  have raw := slice?_front whole
  simp only [closeGroup, reached, raw, Option.getD_some, modify_innermost, close_openGroupOf,
    front_closed, Text.byteLength_append, List.drop_one, List.tail_cons]
  congr 1
  · simp [earlier, openGroupOf, itemsFrom_append, itemsFrom, groupsInside_append, groupsInside,
      Segment.groupsFrom, innermost]
  · simp [closedBefore, closingInside_append, closingInside, Segment.closing, innermost]

/-! ## The end of a scan -/

/-- The outermost open group but the template. -/
theorem outermost_openGroups (outer : List (List Segment)) :
    (openGroups outer).reverse[1]? =
      (enclosing outer).getLast?.map fun (brace, before) =>
        (1 + groupCountAll before.reverse, brace + 1) := by
  induction outer with
  | nil => rfl
  | cons before outer ih =>
      cases outer with
      | nil => simp [openGroups, enclosing, innermost]
      | cons next outer =>
          have deep : 1 < (openGroups (next :: outer)).reverse.length := by
            cases outer <;> simp [openGroups]
          rw [openGroups, List.reverse_cons, List.getElem?_append_left deep, ih]
          rfl

/-- Where the text ends, the scan ends with the groups of the tree, or at the outermost group that
is still open. -/
theorem finish_reached {text : List Char} (whole : text = front outer current) :
    (reached options outer current []).finish text =
      (nest (Text.byteLength (front outer current)) current (enclosing outer) []).map
        (flatten options) := by
  have outermost := outermost_openGroups outer
  cases outer with
  | nil =>
      subst whole
      rfl
  | cons before outer =>
      obtain ⟨frame, last⟩ : ∃ frame, (enclosing (before :: outer)).getLast? = some frame := by
        rw [enclosing, List.getLast?_cons]
        exact ⟨_, rfl⟩
      rw [last] at outermost
      simp only [finish, reached, outermost, Option.map_some, nest, last, Nat.add_sub_cancel]
      rfl

/-! ## The scan -/

/-- The root is always open. -/
theorem isEmpty_openGroups (outer : List (List Segment)) : (openGroups outer).isEmpty = false := by
  cases outer <;> rfl

/-- A round of the scan, by the tree so far. -/
theorem step_reached (text : List Char) (c : Char) (rest : List Char) :
    step options text (reached options outer current (c :: rest)) =
      let state := reached options outer current (c :: rest)
      if c = '\\' then .inl (state.take (innermost outer) 2)
      else if opaqueLength options (c :: rest) ≠ 0 then
        .inl (state.take (innermost outer) (opaqueLength options (c :: rest)))
      else if c = '\x7b' then .inl (state.openGroup (innermost outer))
      else if c = '\x7d' then
        match outer with
        | [] => .inr (.error (malformed "unmatched `\x7d`" state.offset))
        | before :: inside =>
          .inl (state.closeGroup options text (innermost outer)
            (Text.byteLength (front inside before) + 1) (openGroups inside))
      else .inl (state.take (innermost outer) 1) := by
  cases outer with
  | nil => rfl
  | cons before inside =>
      simp only [step, reached, openGroups, isEmpty_openGroups, Bool.false_eq_true, ↓reduceIte]

/-- A round that takes text. -/
theorem ends_text {text cs pending : List Char} {size rounds : Nat} {result : Except Fault Arena}
    (some : cs.take size ≠ []) (fresh : ∀ others segments, current ≠ .text others :: segments)
    (goes : step options text (reached options outer (held pending current) cs) =
      .inl ((reached options outer (held pending current) cs).take (innermost outer) size))
    (later : Ends (step options text)
      (reached options outer (held (pending ++ cs.take size) current) (cs.drop size)) rounds
      result) :
    Ends (step options text) (reached options outer (held pending current) cs) (rounds + 1)
      result := by
  rw [take_reached, pushText_held some fresh] at goes
  exact .goOn goes later

/-- What is taken in a round of text is held back with the text before it. -/
theorem taken_text {text cs pending : List Char}
    (whole : text = front outer (held pending current) ++ cs) (size : Nat) :
    text = front outer (held (pending ++ cs.take size) current) ++ cs.drop size := by
  rw [whole, front_held, front_held, List.append_assoc, List.append_assoc, List.append_assoc,
    List.take_append_drop]

/-- The scan goes on from the tree so far with what nesting makes of the rest.  The invariant is
that the text since the latest visible brace is the latest segment. -/
theorem ends_of_cut (options : TemplateOptions) {text : List Char} (cs pending : List Char)
    (outer : List (List Segment)) (current : List Segment)
    (fresh : ∀ others segments, current ≠ .text others :: segments)
    (whole : text = front outer (held pending current) ++ cs) :
    ∃ rounds ≤ cs.length, Ends (step options text)
      (reached options outer (held pending current) cs) rounds
      ((nest (Text.byteLength (front outer current)) current (enclosing outer)
        (hide pending (cut options cs))).map (flatten options)) := by
  fun_induction cut options cs generalizing pending outer current with
  -- Only a round that meets a visible brace starts a new segment, so text is never split in two.
  | case1 =>
      refine ⟨0, Nat.zero_le _, .stop ?_⟩
      rw [List.append_nil] at whole
      rw [nest_hide _ _ _ _ (by simp), ← Text.byteLength_append, ← front_held,
        ← finish_reached whole]
      rfl
  | case2 rest ih =>
      obtain ⟨rounds, bound, later⟩ := ih _ outer current fresh (taken_text whole 2)
      rw [List.length_drop] at bound
      refine ⟨rounds + 1, by rw [List.length_cons]; omega, ?_⟩
      rw [hide_prependText (List.cons_ne_nil _ _)]
      have goes : step options text
          (reached options outer (held pending current) ('\\' :: rest)) =
            .inl ((reached options outer (held pending current) ('\\' :: rest)).take
              (innermost outer) 2) := by
        rw [step_reached]
        exact if_pos rfl
      have some : ('\\' :: rest).take 2 ≠ [] := List.cons_ne_nil _ _
      exact ends_text some fresh goes later
  | case3 c rest unescaped hidden ih =>
      -- The opaque text is taken in one round.
      have some : (c :: rest).take (opaqueLength options (c :: rest)) ≠ [] := by
        simpa using hidden
      obtain ⟨rounds, bound, later⟩ := ih _ outer current fresh (taken_text whole _)
      rw [List.length_drop, List.length_cons] at bound
      refine ⟨rounds + 1, by rw [List.length_cons]; omega, ?_⟩
      rw [hide_prependText some]
      refine ends_text some fresh ?_ later
      rw [step_reached]
      exact (if_neg unescaped).trans (if_pos hidden)
  | case4 rest unescaped visible ih =>
      obtain ⟨rounds, bound, later⟩ := ih [] (held pending current :: outer) [] (by simp) (by
        rw [whole, held_nil, front_opened, List.append_assoc, List.singleton_append])
      refine ⟨rounds + 1, by rw [List.length_cons]; omega, ?_⟩
      have goes : step options text
          (reached options outer (held pending current) ('\x7b' :: rest)) =
            .inl (reached options (held pending current :: outer) [] rest) := by
        rw [step_reached, ← openGroup_reached]
        simp only [unescaped, visible, ↓reduceIte]
      rw [nest_hide _ _ _ _ (by simp), nest, ← Text.byteLength_append, ← front_held]
      rw [front_opened, Text.byteLength_append] at later
      exact .goOn goes later
  | case5 rest unescaped visible other ih =>
      rw [nest_hide _ _ _ _ (by simp), ← Text.byteLength_append, ← front_held]
      cases outer with
      | nil =>
          refine ⟨0, Nat.zero_le _, .stop ?_⟩
          rw [step_reached]
          simp only [unescaped, visible, other, ↓reduceIte]
          rfl
      | cons before outer =>
          have goes : step options text
              (reached options (before :: outer) (held pending current) ('\x7d' :: rest)) =
                .inl (reached options outer (.group (held pending current).reverse :: before)
                  rest) := by
            rw [step_reached, ← closeGroup_reached whole]
            simp only [unescaped, visible, other, ↓reduceIte]
          obtain ⟨rounds, bound, later⟩ := ih [] outer
            (.group (held pending current).reverse :: before) (by simp) (by
              rw [whole, held_nil, front_closed, List.append_assoc, List.singleton_append])
          refine ⟨rounds + 1, by rw [List.length_cons]; omega, ?_⟩
          rw [enclosing, nest]
          rw [front_closed, Text.byteLength_append] at later
          exact .goOn goes later
  | case6 c rest unescaped visible opening closing ih =>
      obtain ⟨rounds, bound, later⟩ := ih _ outer current fresh (taken_text whole 1)
      refine ⟨rounds + 1, by rw [List.length_cons]; omega, ?_⟩
      rw [hide_prependText (List.cons_ne_nil _ _)]
      have goes : step options text (reached options outer (held pending current) (c :: rest)) =
          .inl ((reached options outer (held pending current) (c :: rest)).take
            (innermost outer) 1) := by
        rw [step_reached]
        simp only [unescaped, visible, opening, closing, ↓reduceIte]
      have some : (c :: rest).take 1 ≠ [] := List.cons_ne_nil _ _
      exact ends_text some fresh goes later

/-- The scan of a template ends, in no more rounds than it has characters, with the groups of its
segments or with the fault that nesting comes to. -/
theorem ends (options : TemplateOptions) (text : String) :
    ∃ rounds ≤ text.toList.length, Ends (step options text.toList) (.start text.toList) rounds
      ((parse options text).map (flatten options)) :=
  ends_of_cut options text.toList [] [] [] (by simp) rfl

end Builder

/-- **Building.** The groups that the scan of a template builds are those of its segments, and a
brace without a partner is found by both. -/
theorem build_eq (options : TemplateOptions) (text : String) :
    build options text = (parse options text).map (flatten options) := by
  obtain ⟨rounds, -, ends⟩ := Builder.ends options text
  exact Builder.run_of_ends ends

/-- **The arena.** The scan builds the arena that flattens the segments of the text. -/
theorem build_of_parse {options : TemplateOptions} {text : String} {segments : List Segment}
    (parsed : parse options text = .ok segments) :
    build options text = .ok (flatten options segments) := by
  rw [build_eq, parsed]
  rfl

/-- What the scan builds flattens the segments of the text. -/
theorem parse_of_build {options : TemplateOptions} {text : String} {arena : Arena}
    (built : build options text = .ok arena) :
    ∃ segments, parse options text = .ok segments ∧ arena = flatten options segments := by
  rw [build_eq] at built
  cases parsed : parse options text with
  | ok segments =>
      rw [parsed] at built
      cases built
      exact ⟨segments, rfl, rfl⟩
  | error fault =>
      rw [parsed] at built
      cases built

end Template

end DocSketch
