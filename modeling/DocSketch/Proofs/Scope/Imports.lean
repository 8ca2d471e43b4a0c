import DocSketch.Proofs.Scope.Contents
import DocSketch.Proofs.Scope.Walk
import DocSketch.Proofs.Text.Lines
import DocSketch.Resolution.Lead
import Mathlib.Data.Prod.Lex

/-!
# Imports

The walk over a program comes past its import statements in source order, whatever functions,
classes and blocks they stand in.  So the last binding of a name before a place is the one that
comes last in the text.

* `FirstName`, `MemberOf`: the head of a dotted path, and the path of a name in a module.
* `Stmt.Binds`: the names that an import statement binds.
* `Stmt.imported`: these names one after another.
* `Program.collect_imports`: the imports of a program.
* `Source.LastBinding`: the last binding of a name before a place.
* `Source.last_import_counts`: the path of a name is that of its last binding.
-/

namespace DocSketch

/-- A name without dots is the first one of a path: all of it, or what a dot follows. -/
inductive FirstName (first : String) : String → Prop
  | alone (undotted : '.' ∉ first.toList) : FirstName first first
  | dotted (rest : String) (undotted : '.' ∉ first.toList) : FirstName first (first ++ "." ++ rest)

/-- The path of a name in a module.  A dot stands between them unless there is no module or the
module is relative and ends with a dot of its own. -/
inductive MemberOf (name : String) : String → String → Prop
  | bare : MemberOf name "" name
  | relative (dots : String) : MemberOf name (dots ++ ".") (dots ++ "." ++ name)
  | inside {module : String} (named : module ≠ "") (absolute : ∀ dots, module ≠ dots ++ ".") :
      MemberOf name module (module ++ "." ++ name)

/-- The collector cuts a path at its first dot. -/
theorem firstName_iff {first path : String} : FirstName first path ↔ first = pathHead path := by
  have whole {cs : List Char} (undotted : '.' ∉ cs) : cs.takeWhile (· != '.') = cs :=
    List.takeWhile_eq_self_iff.mpr fun c member =>
      bne_iff_ne.mpr fun same => undotted (same ▸ member)
  constructor
  · intro leads
    rw [pathHead]
    cases leads with
    | alone undotted => rw [whole undotted, String.ofList_toList]
    | dotted rest undotted =>
        have split : (first ++ "." ++ rest).toList = first.toList ++ '.' :: rest.toList := by
          rw [String.toList_append, String.toList_append, List.append_assoc]
          rfl
        rw [split, Text.takeWhile_upTo (by decide), whole undotted, String.ofList_toList]
  · rintro rfl
    by_cases member : '.' ∈ path.toList
    · obtain ⟨front, rest, split, undotted⟩ := List.eq_append_cons_of_mem member
      have head : pathHead path = String.ofList front := by
        rw [pathHead, split, Text.takeWhile_upTo (by decide), whole undotted]
      have same : path = String.ofList front ++ "." ++ String.ofList rest := by
        rw [← String.ofList_toList (s := path), split, String.ofList_append, String.append_assoc,
          String.ofList_cons]
        rfl
      have leads : FirstName (String.ofList front) (String.ofList front ++ "." ++ _) :=
        .dotted (String.ofList rest) (by rwa [String.toList_ofList])
      rwa [← same, ← head] at leads
    · have same : pathHead path = path := by
        rw [pathHead, whole member, String.ofList_toList]
      rw [same]
      exact .alone member

/-- A module has a dot as its last character exactly if it ends with one. -/
theorem getLast?_eq_dot_iff {module : String} :
    module.toList.getLast? = some '.' ↔ ∃ dots, module = dots ++ "." := by
  constructor
  · intro ends
    obtain ⟨front, split⟩ := List.getLast?_eq_some_iff.mp ends
    refine ⟨String.ofList front, ?_⟩
    rw [← String.ofList_toList (s := module), split, String.ofList_append]
  · rintro ⟨dots, rfl⟩
    rw [String.toList_append]
    exact List.getLast?_concat

/-- The collector puts a dot behind a module that does not end with one. -/
theorem memberOf_iff {name module path : String} :
    MemberOf name module path ↔ path = memberPath module name := by
  have ending : module.isEmpty = true ∨ module.toList.getLast? = some '.' ↔
      module = "" ∨ ∃ dots, module = dots ++ "." :=
    or_congr String.isEmpty_iff getLast?_eq_dot_iff
  rw [memberPath]
  constructor
  · intro within
    cases within with
    | bare => rfl
    | relative dots => rw [if_pos (ending.mpr (.inr ⟨dots, rfl⟩))]
    | inside named absolute =>
        rw [if_neg (ending.not.mpr (not_or.mpr ⟨named, not_exists.mpr absolute⟩))]
  · rintro rfl
    split
    case isTrue ends =>
      rcases ending.mp ends with rfl | ⟨dots, rfl⟩
      · exact .bare
      · exact .relative dots
    case isFalse ends =>
      obtain ⟨named, absolute⟩ := not_or.mp (ending.not.mp ends)
      exact .inside named (not_exists.mp absolute)

namespace Stmt

variable {stmt : Stmt} {index : Nat} {name path : String}

/-- The name at a place of an import statement is bound to a path: `import a.b` binds the head of
its path, `import a.b as c` the path, and `from m import c` a name of the module. -/
inductive Binds : Stmt → Nat → String → String → Prop
  | head {span : Span} {names : List ImportName} {index : Nat} {path first : String}
      (here : names[index]? = some ⟨path, none⟩) (leads : FirstName first path) :
      Binds (.importNames span names) index first first
  | whole {span : Span} {names : List ImportName} {index : Nat} {path localName : String}
      (here : names[index]? = some ⟨path, some localName⟩) :
      Binds (.importNames span names) index localName path
  | member {span : Span} {module : String} {names : List ImportName} {isWildcard : Bool}
      {index : Nat} {name path : String} (here : names[index]? = some ⟨name, none⟩)
      (within : MemberOf name module path) :
      Binds (.importFrom span module names isWildcard) index name path
  | renamed {span : Span} {module : String} {names : List ImportName} {isWildcard : Bool}
      {index : Nat} {name localName path : String}
      (here : names[index]? = some ⟨name, some localName⟩) (within : MemberOf name module path) :
      Binds (.importFrom span module names isWildcard) index localName path

/-- The bindings of an import statement, in their order. -/
def imported : Stmt → List ImportBinding
  | importNames span names => names.map (·.moduleBinding span.start)
  | importFrom span module names _ => names.map (·.memberBinding module span.start)
  | _ => []

/-- A binding has the position of its statement. -/
theorem position_of_mem_imported {binding : ImportBinding} (member : binding ∈ stmt.imported) :
    binding.position = stmt.span.start := by
  cases stmt with
  | importNames span names =>
      obtain ⟨⟨path, localName⟩, -, rfl⟩ := List.mem_map.mp member
      cases localName <;> rfl
  | importFrom span module names isWildcard =>
      obtain ⟨name, -, rfl⟩ := List.mem_map.mp member
      rfl
  | _ => cases member

/-- The bindings of a statement are those of its names. -/
theorem binds_iff :
    stmt.Binds index name path ↔
      stmt.imported[index]? = some ⟨name, path, stmt.span.start⟩ := by
  constructor
  · intro binds
    cases binds with
    | head here leads =>
        rw [imported, List.getElem?_map, here, firstName_iff.mp leads]
        rfl
    | whole here =>
        rw [imported, List.getElem?_map, here]
        rfl
    | member here within | renamed here within =>
        rw [imported, List.getElem?_map, here, memberOf_iff.mp within]
        rfl
  · intro found
    cases stmt with
    | importNames span names =>
        rw [imported, List.getElem?_map] at found
        obtain ⟨⟨known, localName⟩, here, same⟩ := Option.map_eq_some_iff.mp found
        cases localName with
        | none =>
            cases same
            exact .head here (firstName_iff.mpr rfl)
        | some localName =>
            cases same
            exact .whole here
    | importFrom span module names isWildcard =>
        rw [imported, List.getElem?_map] at found
        obtain ⟨⟨known, localName⟩, here, same⟩ := Option.map_eq_some_iff.mp found
        cases localName with
        | none =>
            cases same
            exact .member here (memberOf_iff.mpr rfl)
        | some localName =>
            cases same
            exact .renamed here (memberOf_iff.mpr rfl)
    | _ => cases found

end Stmt

namespace Collection

/-- The imports of some statements, and of the statements inside of them, are found. -/
def Imports (found : Collection) (_ : ScopeId) (stmts : List Stmt) (later : Collection) : Prop :=
  later.imports = found.imports ++ (stmts.flatMap Stmt.preorder).flatMap Stmt.imported

namespace Imports

variable {found later : Collection} {id : ScopeId} {stmt : Stmt}

/-- A statement that imports nothing itself. -/
theorem within (silent : stmt.imported = []) (inside : Imports found id stmt.inner later) :
    Imports found id [stmt] later := by
  rw [Imports, List.flatMap_singleton, Stmt.preorder_eq, List.flatMap_cons, silent,
    List.nil_append]
  exact inside

/-- A simple statement adds its own bindings. -/
theorem addStmt_imports (simple : stmt.isSimple = true) (handled : List Expr) :
    (found.addStmt id handled stmt).imports = found.imports ++ stmt.imported := by
  cases stmt with
  | ret span value => cases value <;> rw [addStmt] <;> exact (List.append_nil _).symm
  | raise span exception cause =>
      cases exception <;> rw [addStmt] <;> exact (List.append_nil _).symm
  | assign span targets value annotation =>
      cases value <;> rw [addStmt] <;> exact (List.append_nil _).symm
  | augAssign | expression | keyword =>
      rw [addStmt]
      exact (List.append_nil _).symm
  | importNames | importFrom =>
      rw [addStmt]
      rfl
  | _ => cases simple

/-- What is imported follows the walk. -/
theorem follows : Follows Imports where
  nothing found id := (List.append_nil _).symm
  trans first second := by
    rw [Imports, second, first, List.flatMap_append, List.flatMap_append, List.append_assoc]
  simple found id handled stmt simple := by
    rw [Imports, addStmt_imports simple, List.flatMap_singleton, Stmt.preorder_eq,
      Stmt.inner_of_isSimple simple, List.flatMap_nil, List.flatMap_singleton]
  block {found later id stmt} block inside := by
    have silent : stmt.imported = [] := by cases stmt <;> first | rfl | exact absurd rfl block
    exact within silent (Stmt.inner_of_bodies block ▸ inside)
  function inside := within rfl inside
  classDef inside := within rfl inside

end Imports

end Collection

/-- The imports of a program are those of its statements, in source order. -/
theorem Program.collect_imports (program : Program) :
    program.collect.imports = (program.body.flatMap Stmt.preorder).flatMap Stmt.imported :=
  Collection.Imports.follows.addStmts _ 0 [] program.body

/-- A binding with the place of its name in the import statement. -/
abbrev PlacedBinding := ImportBinding × Nat

/-- Where a binding stands: first by its statement, then by its name. -/
def PlacedBinding.place (item : PlacedBinding) : Nat ×ₗ Nat := toLex (item.1.position, item.2)

/-- The bindings of a statement with their places. -/
def Stmt.bindings (stmt : Stmt) : List PlacedBinding := stmt.imported.zipIdx

/-- The bindings of a program with their places. -/
def Program.bindings (program : Program) : List PlacedBinding :=
  (program.body.flatMap Stmt.preorder).flatMap Stmt.bindings

/-- The place of a binding is its index among those of the statement. -/
theorem Stmt.mem_bindings_iff {stmt : Stmt} {item : PlacedBinding} :
    item ∈ stmt.bindings ↔ stmt.imported[item.2]? = some item.1 :=
  List.mem_zipIdx_iff_getElem?

/-- A placed binding has the position of its statement. -/
theorem Stmt.position_of_mem_bindings {stmt : Stmt} {item : PlacedBinding}
    (member : item ∈ stmt.bindings) : item.1.position = stmt.span.start :=
  position_of_mem_imported (List.mem_of_getElem? (mem_bindings_iff.mp member))

/-- The bindings of a statement have ascending places. -/
theorem Stmt.bindings_ordered (stmt : Stmt) :
    stmt.bindings.Pairwise fun item other => item.place < other.place := by
  have ascending : (stmt.bindings.map Prod.snd).Pairwise (· < ·) := by
    rw [bindings, List.zipIdx_map_snd]
    exact List.pairwise_lt_range'
  refine (List.pairwise_map.mp ascending).imp_of_mem fun member later less => ?_
  refine Prod.Lex.toLex_lt_toLex.mpr (.inr ⟨?_, less⟩)
  exact (position_of_mem_bindings member).trans (position_of_mem_bindings later).symm

/-- The bindings of a program are those that the walk collects. -/
theorem Program.bindings_map_fst (program : Program) :
    program.bindings.map Prod.fst = program.collect.imports := by
  rw [collect_imports, bindings, List.map_flatMap]
  exact congrArg (List.flatMap · _) (funext fun stmt => List.zipIdx_map_fst 0 stmt.imported)

/-- The last entry of an ordered list is behind all others. -/
theorem eq_or_rel_getLast {α : Type} {R : α → α → Prop} {items : List α} {last item : α}
    (ordered : items.Pairwise R) (ends : items.getLast? = some last) (member : item ∈ items) :
    item = last ∨ R item last := by
  obtain ⟨front, rfl⟩ := List.getLast?_eq_some_iff.mp ends
  obtain before | same := List.mem_append.mp member
  · exact .inr ((List.pairwise_append.mp ordered).2.2 item before last List.mem_cons_self)
  · exact .inl (List.mem_singleton.mp same)

namespace Source

variable {text file : String} {source : Source} {name : String} {offset : Nat}

/-- The bindings of a name in the import statements that start before a place. -/
def bindingsBefore (source : Source) (name : String) (offset : Nat) : List PlacedBinding :=
  source.program.bindings.filter fun item => item.1.position < offset ∧ item.1.name = name

/-- The bindings before a place are those of statements that start before it. -/
theorem mem_bindingsBefore_iff {item : PlacedBinding} :
    item ∈ source.bindingsBefore name offset ↔
      ∃ stmt path, source.program.HasStmt stmt ∧ stmt.span.start < offset ∧
        stmt.Binds item.2 name path ∧ item.1 = ⟨name, path, stmt.span.start⟩ := by
  rw [bindingsBefore, List.mem_filter, Program.bindings, List.mem_flatMap, decide_eq_true_iff]
  constructor
  · rintro ⟨⟨stmt, listed, own⟩, before, named⟩
    have position := Stmt.position_of_mem_bindings own
    have same : item.1 = ⟨name, item.1.path, stmt.span.start⟩ := by rw [← named, ← position]
    refine ⟨stmt, item.1.path, Program.mem_preorder_iff.mp listed, position ▸ before, ?_, same⟩
    rw [Stmt.binds_iff, ← same]
    exact Stmt.mem_bindings_iff.mp own
  · rintro ⟨stmt, path, has, before, binds, same⟩
    rw [Stmt.binds_iff, ← same] at binds
    refine ⟨⟨stmt, Program.mem_preorder_iff.mpr has, Stmt.mem_bindings_iff.mpr binds⟩, ?_, ?_⟩
    · rw [same]
      exact before
    · rw [same]

/-- The bindings of an accepted text have ascending places. -/
theorem bindings_ordered (accepted : read text file = .ok source) :
    source.program.bindings.Pairwise fun item other => item.place < other.place := by
  refine List.pairwise_flatMap.mpr ⟨fun stmt _ => stmt.bindings_ordered, ?_⟩
  refine (statements_ordered accepted).imp fun less item member other later => ?_
  refine Prod.Lex.toLex_lt_toLex.mpr (.inl ?_)
  rwa [Stmt.position_of_mem_bindings member, Stmt.position_of_mem_bindings later]

/-- The path of a name comes from the last of its bindings. -/
theorem importPath?_eq (accepted : read text file = .ok source) (head : String)
    (rest : List String) (offset : Nat) :
    source.importPath? (head :: rest) offset =
      (source.bindingsBefore head offset).getLast?.map fun item =>
        dotted (item.1.path :: rest) := by
  obtain ⟨tokens, program, -, -, rfl⟩ := eq_ofProgram_of_read accepted
  have imports : (ofProgram text file program).imports = program.bindings.map Prod.fst :=
    program.bindings_map_fst.symm
  rw [importPath?, imports]
  simp only [List.filter_map, List.getLast?_map, Option.map_map]
  rfl

/-- The last binding of a name in the import statements that start before a place. -/
structure LastBinding (source : Source) (name : String) (offset : Nat) (stmt : Stmt) (index : Nat)
    (path : String) : Prop where
  has : source.program.HasStmt stmt
  starts : stmt.span.start < offset
  binds : stmt.Binds index name path
  last : ∀ other otherIndex otherPath, source.program.HasStmt other →
    other.span.start < offset → other.Binds otherIndex name otherPath →
      other.span.start < stmt.span.start ∨
        other.span.start = stmt.span.start ∧ otherIndex ≤ index

/-- The last binding of a name is the last one in the walk over the program. -/
theorem lastBinding_iff (accepted : read text file = .ok source) {stmt : Stmt} {index : Nat}
    {path : String} :
    source.LastBinding name offset stmt index path ↔
      source.program.HasStmt stmt ∧ (source.bindingsBefore name offset).getLast? =
        some (⟨name, path, stmt.span.start⟩, index) := by
  have ordered : (source.bindingsBefore name offset).Pairwise _ :=
    (bindings_ordered accepted).filter _
  constructor
  · intro bound
    refine ⟨bound.has, ?_⟩
    have member : (⟨name, path, stmt.span.start⟩, index) ∈ source.bindingsBefore name offset :=
      mem_bindingsBefore_iff.mpr ⟨stmt, path, bound.has, bound.starts, bound.binds, rfl⟩
    have ends := List.getLast?_eq_some_getLast (List.ne_nil_of_mem member)
    set last := (source.bindingsBefore name offset).getLast (List.ne_nil_of_mem member)
    obtain same | before := eq_or_rel_getLast ordered ends member
    · rw [ends, same]
    · obtain ⟨other, otherPath, has, starts, binds, same⟩ :=
        mem_bindingsBefore_iff.mp (List.mem_of_getLast? ends)
      -- The last entry is a binding too, so it cannot be behind the one that comes last.
      have behind := bound.last other last.2 otherPath has starts binds
      rw [PlacedBinding.place, PlacedBinding.place, same] at before
      exact absurd (Prod.Lex.toLex_le_toLex.mpr behind) before.not_ge
  · rintro ⟨has, ends⟩
    obtain ⟨own, ownPath, hasOwn, starts, binds, same⟩ :=
      mem_bindingsBefore_iff.mp (List.mem_of_getLast? ends)
    obtain ⟨-, rfl, start⟩ := ImportBinding.mk.inj same
    obtain rfl := stmt_eq_of_start accepted has hasOwn start
    refine ⟨has, starts, binds, fun other otherIndex otherPath hasOther before bindsOther => ?_⟩
    have member : (⟨name, otherPath, other.span.start⟩, otherIndex) ∈
        source.bindingsBefore name offset :=
      mem_bindingsBefore_iff.mpr ⟨other, otherPath, hasOther, before, bindsOther, rfl⟩
    obtain same | less := eq_or_rel_getLast ordered ends member
    · obtain ⟨binding, rfl⟩ := Prod.mk.inj same
      exact .inr ⟨(ImportBinding.mk.inj binding).2.2, Nat.le_refl _⟩
    · exact (Prod.Lex.toLex_lt_toLex.mp less).imp_right fun later => ⟨later.1, later.2.le⟩

/-- **The last import before a place counts.**  A name has a path exactly if an import statement
that starts before the place binds it, in whatever functions, classes and blocks that stands.
The path is that of the binding that comes last in the text, with the other fragments behind. -/
theorem last_import_counts (accepted : read text file = .ok source) (head : String)
    (rest : List String) (offset : Nat) :
    ((source.importPath? (head :: rest) offset).isSome = true ↔
      ∃ stmt index path, source.program.HasStmt stmt ∧ stmt.span.start < offset ∧
        stmt.Binds index head path) ∧
    ∀ result, source.importPath? (head :: rest) offset = some result ↔
      ∃ stmt index path, source.LastBinding head offset stmt index path ∧
        result = ".".intercalate (path :: rest) := by
  rw [importPath?_eq accepted]
  refine ⟨?found, fun result => ?last⟩
  case found =>
    rw [Option.isSome_map, List.getLast?_isSome]
    constructor
    · intro nonempty
      obtain ⟨item, member⟩ := List.exists_mem_of_ne_nil _ nonempty
      obtain ⟨stmt, path, has, starts, binds, -⟩ := mem_bindingsBefore_iff.mp member
      exact ⟨stmt, item.2, path, has, starts, binds⟩
    · rintro ⟨stmt, index, path, has, starts, binds⟩
      exact List.ne_nil_of_mem (a := (⟨head, path, stmt.span.start⟩, index))
        (mem_bindingsBefore_iff.mpr ⟨stmt, path, has, starts, binds, rfl⟩)
  case last =>
    rw [Option.map_eq_some_iff]
    constructor
    · rintro ⟨⟨binding, index⟩, ends, rfl⟩
      obtain ⟨stmt, path, has, -, -, same⟩ :=
        mem_bindingsBefore_iff.mp (List.mem_of_getLast? ends)
      obtain rfl : binding = ⟨head, path, stmt.span.start⟩ := same
      exact ⟨stmt, index, path, (lastBinding_iff accepted).mpr ⟨has, ends⟩, rfl⟩
    · rintro ⟨stmt, index, path, bound, rfl⟩
      exact ⟨_, ((lastBinding_iff accepted).mp bound).2, rfl⟩

/-- A name that is imported with a submodule, and twice again in a function. -/
def shadowedImport : Source :=
  .ofProgram "import xml.etree\ndef f():\n from .m import xml, path as xml\n xml.x" "m.py"
    ⟨[.importNames ⟨0, 16⟩ [⟨"xml.etree", none⟩],
      .function ⟨17, 65⟩ "f" ⟨[], none⟩
        [.importFrom ⟨27, 58⟩ ".m" [⟨"xml", none⟩, ⟨"path", some "xml"⟩] false,
          .expression ⟨60, 65⟩ (.member ⟨60, 65⟩ (.symbol ⟨60, 63⟩ "xml") "x")] [] false],
      ⟨0, 65⟩⟩

theorem read_shadowedImport :
    read "import xml.etree\ndef f():\n from .m import xml, path as xml\n xml.x" "m.py" =
      .ok shadowedImport := by
  have scanned : Layout.scanWithin 40 .initial "m.py" 0
      "import xml.etree\ndef f():\n from .m import xml, path as xml\n xml.x".toList =
      some (.ok [⟨.importKw, "import", ⟨0, 6⟩⟩, ⟨.identifier, "xml", ⟨7, 10⟩⟩,
        ⟨.dot, ".", ⟨10, 11⟩⟩, ⟨.identifier, "etree", ⟨11, 16⟩⟩, ⟨.newline, "\n", ⟨16, 17⟩⟩,
        ⟨.defKw, "def", ⟨17, 20⟩⟩, ⟨.identifier, "f", ⟨21, 22⟩⟩, ⟨.openParen, "(", ⟨22, 23⟩⟩,
        ⟨.closeParen, ")", ⟨23, 24⟩⟩, ⟨.colon, ":", ⟨24, 25⟩⟩, ⟨.newline, "\n", ⟨25, 26⟩⟩,
        ⟨.indent, "", ⟨27, 27⟩⟩, ⟨.fromKw, "from", ⟨27, 31⟩⟩, ⟨.dot, ".", ⟨32, 33⟩⟩,
        ⟨.identifier, "m", ⟨33, 34⟩⟩, ⟨.importKw, "import", ⟨35, 41⟩⟩,
        ⟨.identifier, "xml", ⟨42, 45⟩⟩, ⟨.comma, ",", ⟨45, 46⟩⟩, ⟨.identifier, "path", ⟨47, 51⟩⟩,
        ⟨.asKw, "as", ⟨52, 54⟩⟩, ⟨.identifier, "xml", ⟨55, 58⟩⟩, ⟨.newline, "\n", ⟨58, 59⟩⟩,
        ⟨.identifier, "xml", ⟨60, 63⟩⟩, ⟨.dot, ".", ⟨63, 64⟩⟩, ⟨.identifier, "x", ⟨64, 65⟩⟩,
        ⟨.newline, "", ⟨65, 65⟩⟩, ⟨.dedent, "", ⟨65, 65⟩⟩, ⟨.eof, "", ⟨65, 65⟩⟩]) := by
    with_unfolding_all rfl
  exact read_of_steps 40 scanned (by with_unfolding_all rfl)

/-- The last of three bindings of `xml` counts, and at an earlier place the first one. -/
theorem last_import_counts_shadowed :
    shadowedImport.importPath? ["xml", "x"] 60 = some ".m.path.x" ∧
      (∃ stmt index path, shadowedImport.LastBinding "xml" 60 stmt index path ∧
        ".m.path.x" = ".".intercalate [path, "x"]) ∧
      ∃ stmt index path, shadowedImport.LastBinding "xml" 27 stmt index path ∧
        "xml.etree.parse" = ".".intercalate [path, "etree", "parse"] := by
  have inner : shadowedImport.importPath? ["xml", "x"] 60 = some ".m.path.x" := by
    decide +kernel
  have outer : shadowedImport.importPath? ["xml", "etree", "parse"] 27 =
      some "xml.etree.parse" := by
    decide +kernel
  exact ⟨inner, ((last_import_counts read_shadowedImport "xml" ["x"] 60).2 _).mp inner,
    ((last_import_counts read_shadowedImport "xml" ["etree", "parse"] 27).2 _).mp outer⟩

end Source

end DocSketch
