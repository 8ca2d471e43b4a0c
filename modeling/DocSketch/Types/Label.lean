/-!
# Labels

A label is the written form of one or several types.  It counts as built in if every
identifier in it names a built-in type or exception.

* `builtinTypes`, `builtinExceptions`, `builtinFunctions`: the names the source language
  brings along.
* `splitAlternatives`: the alternatives of a label.
* `isBuiltinLabel`: whether a label needs no marks around it.
-/

namespace DocSketch

def builtinTypes : List String :=
  ["int", "float", "complex", "str", "bytes", "bytearray", "bool", "list", "tuple", "dict",
   "set", "frozenset", "object", "type", "range", "memoryview", "slice", "None", "ellipsis",
   "dict_keys", "dict_values", "dict_items", "Generator", "Any", "Optional", "Union",
   "List", "Dict", "Tuple", "Set", "Iterator", "Iterable", "Callable"]

def builtinExceptions : List String :=
  ["BaseException", "Exception", "ArithmeticError", "AssertionError", "AttributeError",
   "BufferError", "EOFError", "FileExistsError", "FileNotFoundError", "FloatingPointError",
   "GeneratorExit", "ImportError", "IndexError", "InterruptedError", "IOError",
   "IsADirectoryError", "KeyError", "KeyboardInterrupt", "LookupError", "MemoryError",
   "ModuleNotFoundError", "NameError", "NotADirectoryError", "NotImplementedError",
   "OSError", "OverflowError", "PermissionError", "RecursionError", "ReferenceError",
   "RuntimeError", "StopAsyncIteration", "StopIteration", "SyntaxError", "SystemError",
   "SystemExit", "TimeoutError", "TypeError", "UnboundLocalError", "UnicodeDecodeError",
   "UnicodeEncodeError", "UnicodeError", "ValueError", "ZeroDivisionError",
   "ConnectionError", "BrokenPipeError", "Warning", "UserWarning", "DeprecationWarning",
   "RuntimeWarning"]

/-- Types whose name is also the function that makes their values. -/
def builtinConstructors : List String :=
  ["int", "float", "complex", "str", "bytes", "bytearray", "bool", "list", "tuple",
   "dict", "set", "frozenset", "object", "range", "memoryview", "slice", "type"]

/-- Functions that every program knows, with the type of their result. -/
def builtinFunctions : List (String × String) :=
  builtinConstructors.map (fun name => (name, name)) ++
  [("len", "int"), ("hash", "int"), ("id", "int"), ("ord", "int"), ("repr", "str"),
   ("ascii", "str"), ("chr", "str"), ("format", "str"), ("input", "str"), ("hex", "str"),
   ("oct", "str"), ("bin", "str"), ("isinstance", "bool"), ("issubclass", "bool"),
   ("callable", "bool"), ("hasattr", "bool"), ("any", "bool"), ("all", "bool"),
   ("sorted", "list"), ("dir", "list"), ("vars", "dict"), ("globals", "dict"),
   ("locals", "dict"), ("print", "None")]

/-- Whether a name is that of a built-in type or exception. -/
def isBuiltinName (name : String) : Bool :=
  builtinTypes.contains name || builtinExceptions.contains name

namespace Label

def depthAfter (depth : Nat) (c : Char) : Nat :=
  if ['[', '(', '\x7b'].contains c then depth + 1
  else if [']', ')', '\x7d'].contains c then depth - 1
  else depth

/-- Splits a label at each `join` outside brackets; `part` holds the characters of the
part that has begun, the latest first. -/
def splitFrom (join : List Char) (depth : Nat) (part : List Char) (cs : List Char) :
    List (List Char) :=
  match cs with
  | [] => [part.reverse]
  | c :: rest =>
    if depth = 0 ∧ join ≠ [] ∧ join.isPrefixOf (c :: rest) then
      part.reverse :: splitFrom join 0 [] ((c :: rest).drop join.length)
    else
      splitFrom join (depthAfter depth c) (c :: part) rest
termination_by cs.length
decreasing_by
  · have : join.length ≠ 0 := by simp_all
    simp only [List.length_drop, List.length_cons]
    omega
  · simp

/-- Replaces every `join`, from left to right, by a comma. -/
def replaceJoins (join : List Char) (cs : List Char) : List Char :=
  match cs with
  | [] => []
  | c :: rest =>
    if join ≠ [] ∧ join.isPrefixOf (c :: rest) then
      ',' :: replaceJoins join ((c :: rest).drop join.length)
    else
      c :: replaceJoins join rest
termination_by cs.length
decreasing_by
  · have : join.length ≠ 0 := by simp_all
    simp only [List.length_drop, List.length_cons]
    omega
  · simp

/-- Letters and underscores, with which an identifier starts. -/
def isIdentifierStart (c : Char) : Bool := c.isAlpha || c == '_'

def isIdentifierPart (c : Char) : Bool := c.isAlphanum || c == '_'

/-- The identifiers in a text, from left to right. -/
def identifiers (cs : List Char) : List (List Char) :=
  match cs with
  | [] => []
  | c :: rest =>
    if isIdentifierStart c then
      (c :: rest.takeWhile isIdentifierPart) :: identifiers (rest.dropWhile isIdentifierPart)
    else
      identifiers rest
termination_by cs.length
decreasing_by
  · have := (List.dropWhile_suffix isIdentifierPart : _ <:+ rest).length_le
    simp only [List.length_cons]
    omega
  · simp

/-- Whether a single alternative names something, and only built-in things. -/
def isBuiltinPart (join part : List Char) : Bool :=
  let names := identifiers (replaceJoins join part)
  !names.isEmpty && names.all fun name => isBuiltinName (String.ofList name)

end Label

/-- The alternatives of a label: it is split at each `join` that is not in brackets. -/
def splitAlternatives (label join : String) : List String :=
  (Label.splitFrom join.toList 0 [] label.toList).map String.ofList

/-- Whether every alternative of a label names only built-in types and exceptions; a
`join` in brackets counts as a comma. -/
def isBuiltinLabel (label join : String) : Bool :=
  (Label.splitFrom join.toList 0 [] label.toList).all (Label.isBuiltinPart join.toList)

end DocSketch
