import DocSketch.Proofs.Grammar.Operators

/-!
# Expressions written with all parentheses

Every operand is written in parentheses of its own, so that a text does not depend on how
tightly operators bind.  The spelling of an expression leaves out where its tokens stand.

* `Expr.spelling`: kinds and texts of the tokens of an expression.
* `Expr.unspanned`: an expression without its places.
* `Expr.Written`: the expressions that can be written.
-/

namespace DocSketch

/-- The spelling of a mark or a reserved word. -/
def fixed (kind : TokenKind) : Spelling :=
  (kind, (((marks ++ reservedWords).find? (·.2 = kind)).map Prod.fst).getD "")

@[simp]
theorem fixed_fst (kind : TokenKind) : (fixed kind).1 = kind := rfl

/-- A text in parentheses. -/
def grouped (text : List Spelling) : List Spelling :=
  fixed .openParen :: (text ++ [fixed .closeParen])

/-- Texts after the first of a list, each behind a comma. -/
def continued (texts : List (List Spelling)) : List Spelling :=
  texts.flatMap fun text => fixed .comma :: text

/-- Texts with commas between them. -/
def listed : List (List Spelling) → List Spelling
  | [] => []
  | text :: texts => text ++ continued texts

/-- Texts with commas between them, where a single one has a comma, too. -/
def tupled (texts : List (List Spelling)) : List Spelling :=
  listed texts ++ if texts.length = 1 then [fixed .comma] else []

/-- Letter before the quotes of a string. -/
def StringKind.letters : StringKind → List Char
  | str => []
  | bytes => ['b']
  | formatted => ['f']

def Constant.tokenKind : Constant → TokenKind
  | .true => .trueKw
  | .false => .falseKw
  | .none => .noneKw
  | .ellipsis => .ellipsis

namespace ComprehensionKind

def opening : ComprehensionKind → TokenKind
  | list => .openBracket
  | set | dict => .openCurly
  | generator => .openParen

def closing : ComprehensionKind → TokenKind
  | list => .closeBracket
  | set | dict => .closeCurly
  | generator => .closeParen

end ComprehensionKind

/-- The tokens of an operator; two are of two words. -/
def Token.operatorSpelling (operator : Token) : List Spelling :=
  if operator.kind = .isKw ∧ operator.value = "is not" then [fixed .isKw, fixed .notKw]
  else if operator.kind = .inKw ∧ operator.value = "not in" then [fixed .notKw, fixed .inKw]
  else [operator.spelling]

/-- A token without its place. -/
def Token.unspanned (token : Token) : Token := { token with span := default }

/-- Tokens of one spelling are the same up to their places. -/
theorem Token.unspanned_eq {token other : Token} (same : token.spelling = other.spelling) :
    token.unspanned = other.unspanned := by
  obtain ⟨kind, value⟩ := Prod.mk.inj same
  rw [unspanned, unspanned, kind, value]

/-- Stars or nothing before the name of a parameter. -/
def ParameterKind.stars : ParameterKind → List Spelling
  | varPositional => [fixed .star]
  | varKeyword => [fixed .power]
  | positional | keywordOnly => []

/-- The kind that parameters without a star have after one of the kind `kind`. -/
def ParameterKind.usualAfter (usual : ParameterKind) : ParameterKind → ParameterKind
  | varPositional | keywordOnly => keywordOnly
  | positional | varKeyword => usual

namespace Expr

/-- Whether an expression is unpacked by one star. -/
def isUnpacked : Expr → Bool
  | starred _ _ isDouble => !isDouble
  | _ => false

/-- How an expression with the given spelling stands as an element or an argument. -/
def elementText (e : Expr) (text : List Spelling) : List Spelling :=
  if e.isUnpacked then text else grouped text

/-- How an expression with the given spelling stands as an item of a subscript. -/
def itemText (e : Expr) (text : List Spelling) : List Spelling :=
  if e.isSlice then text else grouped text

mutual

/-- The tokens of an expression in which every operand has parentheses of its own. -/
def spelling : Expr → List Spelling
  | number _ _ text => [(.number, text)]
  | string _ kind text =>
    [(.string, String.ofList (kind.letters ++ '"' :: (text.toList ++ ['"'])))]
  | constant _ value => [fixed value.tokenKind]
  | symbol _ name => [(.identifier, name)]
  | member _ object property => grouped object.spelling ++ [fixed .dot, (.identifier, property)]
  | call _ callee arguments keywords =>
    grouped callee.spelling ++ fixed .openParen ::
      (listed (elementTexts arguments ++ keywordTexts keywords) ++ [fixed .closeParen])
  | sequence _ .list elements =>
    fixed .openBracket :: (listed (elementTexts elements) ++ [fixed .closeBracket])
  | sequence _ .tuple elements =>
    fixed .openParen :: (tupled (elementTexts elements) ++ [fixed .closeParen])
  | sequence _ .set elements =>
    fixed .openCurly :: (listed (elementTexts elements) ++ [fixed .closeCurly])
  | dict _ entries => fixed .openCurly :: (listed (entryTexts entries) ++ [fixed .closeCurly])
  | comprehension _ kind element value clauses =>
    fixed kind.opening ::
      (grouped element.spelling ++ (markedText .colon value ++
        (clauseText clauses ++ [fixed kind.closing])))
  | binary _ left operator right =>
    grouped left.spelling ++ (operator.operatorSpelling ++ grouped right.spelling)
  | unary _ operator operand => operator.spelling :: grouped operand.spelling
  | ternary _ body test orelse =>
    grouped body.spelling ++ fixed .ifKw ::
      (grouped test.spelling ++ fixed .elseKw :: grouped orelse.spelling)
  | subscript _ object index =>
    grouped object.spelling ++ fixed .openBracket ::
      ((match index with
        | sequence _ .tuple (item :: items) => tupled (itemTexts (item :: items))
        | index => itemText index index.spelling) ++ [fixed .closeBracket])
  | slice _ lower upper step =>
    optionalText lower ++ fixed .colon :: (optionalText upper ++ markedText .colon step)
  | lambda _ parameters body =>
    fixed .lambdaKw :: (listed (parameterTexts .positional parameters) ++
      fixed .colon :: grouped body.spelling)
  | starred _ value isDouble =>
    fixed (if isDouble then .power else .star) :: grouped value.spelling
  | yield _ value delegates =>
    fixed .yieldKw :: ((if delegates then [fixed .fromKw] else []) ++ optionalText value)

def elementTexts : List Expr → List (List Spelling)
  | [] => []
  | e :: others => e.elementText e.spelling :: elementTexts others

def itemTexts : List Expr → List (List Spelling)
  | [] => []
  | e :: others => e.itemText e.spelling :: itemTexts others

/-- An operand that may be absent. -/
def optionalText : Option Expr → List Spelling
  | none => []
  | some e => grouped e.spelling

/-- An operand behind a mark, unless it is absent. -/
def markedText (mark : TokenKind) : Option Expr → List Spelling
  | none => []
  | some e => fixed mark :: grouped e.spelling

def keywordTexts : List (Keyword Expr) → List (List Spelling)
  | [] => []
  | ⟨none, value⟩ :: others => (fixed .power :: grouped value.spelling) :: keywordTexts others
  | ⟨some name, value⟩ :: others =>
    ((.identifier, name) :: fixed .assignment :: grouped value.spelling) :: keywordTexts others

def entryTexts : List (Entry Expr) → List (List Spelling)
  | [] => []
  | ⟨none, value⟩ :: others => (fixed .power :: grouped value.spelling) :: entryTexts others
  | ⟨some key, value⟩ :: others =>
    (grouped key.spelling ++ fixed .colon :: grouped value.spelling) :: entryTexts others

def clauseText : List (Clause Expr) → List Spelling
  | [] => []
  | ⟨target, iter, conditions, isAsync⟩ :: others =>
    (if isAsync then [fixed .asyncKw] else []) ++ fixed .forKw ::
      (grouped target.spelling ++ fixed .inKw ::
        (grouped iter.spelling ++ (conditionText conditions ++ clauseText others)))

def conditionText : List Expr → List Spelling
  | [] => []
  | e :: others => fixed .ifKw :: (grouped e.spelling ++ conditionText others)

/-- Parameters of a lambda; a lone star stands before those that only keywords give, unless
`usual` says that there has been one. -/
def parameterTexts (usual : ParameterKind) : List (Parameter Expr) → List (List Spelling)
  | [] => []
  | ⟨name, _, default, kind, _⟩ :: others =>
    (if kind = .keywordOnly ∧ usual ≠ .keywordOnly then [[fixed .star]] else []) ++
      (kind.stars ++ (.identifier, name) :: markedText .assignment default) ::
        parameterTexts (usual.usualAfter kind) others

end

/-- The items between the brackets of a subscript. -/
def items : Expr → List Expr
  | sequence _ .tuple (item :: others) => item :: others
  | index => [index]

/-- The operands of an item of a subscript. -/
def itemParts : Expr → List Expr
  | slice _ lower upper step => lower.toList ++ (upper.toList ++ step.toList)
  | e => [e]

mutual

/-- An expression without its places. -/
def unspanned : Expr → Expr
  | number _ kind text => number default kind text
  | string _ kind text => string default kind text
  | constant _ value => constant default value
  | symbol _ name => symbol default name
  | member _ object property => member default object.unspanned property
  | call _ callee arguments keywords =>
    call default callee.unspanned (unspannedAll arguments) (unspannedKeywords keywords)
  | sequence _ kind elements => sequence default kind (unspannedAll elements)
  | dict _ entries => dict default (unspannedEntries entries)
  | comprehension _ kind element value clauses =>
    comprehension default kind element.unspanned (unspannedOption value) (unspannedClauses clauses)
  | binary _ left operator right =>
    binary default left.unspanned operator.unspanned right.unspanned
  | unary _ operator operand => unary default operator.unspanned operand.unspanned
  | ternary _ body test orelse =>
    ternary default body.unspanned test.unspanned orelse.unspanned
  | subscript _ object index => subscript default object.unspanned index.unspanned
  | slice _ lower upper step =>
    slice default (unspannedOption lower) (unspannedOption upper) (unspannedOption step)
  | lambda _ parameters body => lambda default (unspannedParameters parameters) body.unspanned
  | starred _ value isDouble => starred default value.unspanned isDouble
  | yield _ value delegates => yield default (unspannedOption value) delegates

def unspannedAll : List Expr → List Expr
  | [] => []
  | e :: others => e.unspanned :: unspannedAll others

def unspannedOption : Option Expr → Option Expr
  | none => none
  | some e => some e.unspanned

def unspannedKeywords : List (Keyword Expr) → List (Keyword Expr)
  | [] => []
  | ⟨name, value⟩ :: others => ⟨name, value.unspanned⟩ :: unspannedKeywords others

def unspannedEntries : List (Entry Expr) → List (Entry Expr)
  | [] => []
  | ⟨key, value⟩ :: others => ⟨unspannedOption key, value.unspanned⟩ :: unspannedEntries others

def unspannedClauses : List (Clause Expr) → List (Clause Expr)
  | [] => []
  | ⟨target, iter, conditions, isAsync⟩ :: others =>
    ⟨target.unspanned, iter.unspanned, unspannedAll conditions, isAsync⟩ :: unspannedClauses others

def unspannedParameters : List (Parameter Expr) → List (Parameter Expr)
  | [] => []
  | ⟨name, annotation, default, kind, _⟩ :: others =>
    ⟨name, unspannedOption annotation, unspannedOption default, kind, Inhabited.default⟩ ::
      unspannedParameters others

end

/-- The expressions that can be written: literals are what their texts say, a set and the
clauses of a comprehension are not empty, and a slice stands in a subscript only. -/
inductive Written : Expr → Prop
  | number {span : Span} {text : String} (nonempty : text.isEmpty = false) :
      Written (.number span (numberKind text) text)
  | string {span : Span} {kind : StringKind} {text : String}
      (unquoted : ∀ c ∈ text.toList, isQuote c = false) : Written (.string span kind text)
  | constant {span : Span} {value : Constant} : Written (.constant span value)
  | symbol {span : Span} {name : String} : Written (.symbol span name)
  | member {span : Span} {object : Expr} {property : String} :
      Written object → Written (.member span object property)
  | call {span : Span} {callee : Expr} {arguments : List Expr} {keywords : List (Keyword Expr)} :
      Written callee → (∀ e ∈ arguments, Written e) →
        (∀ keyword ∈ keywords, Written keyword.value) →
          Written (.call span callee arguments keywords)
  | sequence {span : Span} {kind : SequenceKind} {elements : List Expr}
      (nonempty : kind = .set → elements ≠ []) :
      (∀ e ∈ elements, Written e) → Written (.sequence span kind elements)
  | dict {span : Span} {entries : List (Entry Expr)} :
      (∀ entry ∈ entries, ∀ key ∈ entry.key, Written key) →
        (∀ entry ∈ entries, Written entry.value) → Written (.dict span entries)
  | comprehension {span : Span} {kind : ComprehensionKind} {element : Expr}
      {value : Option Expr} {clauses : List (Clause Expr)} (paired : value.isSome ↔ kind = .dict)
      (nonempty : clauses ≠ []) :
      Written element → (∀ e ∈ value, Written e) →
        (∀ clause ∈ clauses, Written clause.target) → (∀ clause ∈ clauses, Written clause.iter) →
          (∀ clause ∈ clauses, ∀ e ∈ clause.conditions, Written e) →
            Written (.comprehension span kind element value clauses)
  | binary {span : Span} {left right : Expr} {operator : Token}
      (joins : operator.kind = .isKw ∨ operator.IsOperator) :
      Written left → Written right → Written (.binary span left operator right)
  | unary {span : Span} {operator : Token} {operand : Expr} {level : Power}
      (opens : operator.kind.opening? = some (.unary level)) :
      Written operand → Written (.unary span operator operand)
  | ternary {span : Span} {body test orelse : Expr} :
      Written body → Written test → Written orelse → Written (.ternary span body test orelse)
  | subscript {span : Span} {object index : Expr} :
      Written object → (∀ item ∈ index.items, ∀ part ∈ item.itemParts, Written part) →
        Written (.subscript span object index)
  | lambda {span : Span} {parameters : List (Parameter Expr)} {body : Expr}
      (ordered : parameters.Pairwise fun early late =>
        late.kind = .positional → early.kind = .positional ∨ early.kind = .varKeyword)
      (unannotated : ∀ parameter ∈ parameters, parameter.annotation = none) :
      (∀ parameter ∈ parameters, ∀ e ∈ parameter.default, Written e) → Written body →
        Written (.lambda span parameters body)
  | starred {span : Span} {value : Expr} {isDouble : Bool} :
      Written value → Written (.starred span value isDouble)
  | yield {span : Span} {value : Option Expr} {delegates : Bool}
      (delegated : delegates = true → value.isSome) :
      (∀ e ∈ value, Written e) → Written (.yield span value delegates)

/-- A token of this kind after an expression is not part of it: it does not join it to
anything, it is no string after a string, it starts no value of a bare `yield`, and it is no
comma after the value of a `yield`. -/
def EndsBefore (e : Expr) (kind : TokenKind) : Prop :=
  kind.joining? = none ∧
    match e with
    | string .. => kind ≠ .string
    | yield _ none _ => kind.opening? = none ∧ kind ≠ .fromKw
    | yield _ (some _) false => kind ≠ .comma
    | _ => True

end Expr

end DocSketch
