import DocSketch.Tree.Expr
import DocSketch.Types.Format

/-!
# Settings of a resolution

Callers can say what the result of a function is called, either once for all calls or
depending on the call.

* `Override`: what is known about the result of a function.
* `OverrideRegistry`: overrides by the dotted path of the function.
* `ResolutionContext`: all settings of a resolution.
-/

namespace DocSketch

/-- A call with its parts. -/
structure Call where
  span : Span
  callee : Expr
  arguments : List Expr
  keywords : List (Keyword Expr)
deriving Repr, Inhabited

/-- The parts of an expression that is a call. -/
def Expr.call? : Expr → Option Call
  | .call span callee arguments keywords => some ⟨span, callee, arguments, keywords⟩
  | _ => none

/-- What the result of a function is called. -/
inductive Override where
  | label (text : String)
  /-- A label that depends on the call. -/
  | computed (label : Call → String)

instance : Inhabited Override := ⟨.label ""⟩

/-- Overrides by dotted path. -/
structure OverrideRegistry where
  entries : List (String × Override)
deriving Inhabited

namespace OverrideRegistry

def empty : OverrideRegistry := ⟨[]⟩

/-- Enters an override; it replaces an earlier one for the same path. -/
def register (registry : OverrideRegistry) (path : String) (override : Override) :
    OverrideRegistry :=
  ⟨(path, override) :: registry.entries.filter fun entry => entry.1 ≠ path⟩

def get? (registry : OverrideRegistry) (path : String) : Option Override :=
  registry.entries.lookup path

def size (registry : OverrideRegistry) : Nat := registry.entries.length

def isEmpty (registry : OverrideRegistry) : Bool := registry.entries.isEmpty

/-- Result of looking up an environment variable: a second argument is what a missing
variable gives. -/
def environmentLabel (call : Call) : String :=
  if 1 < call.arguments.length then "str" else "str or None"

/-- Functions of the standard library that always give the same type. -/
def standardLabels : List (String × String) :=
  [("os.getcwd", "str"), ("os.listdir", "list[str]"), ("os.path.join", "str"),
   ("os.path.abspath", "str"), ("os.path.basename", "str"), ("os.path.dirname", "str"),
   ("os.path.exists", "bool"), ("os.path.isfile", "bool"), ("os.path.isdir", "bool"),
   ("json.dumps", "str"), ("time.time", "float"), ("str.join", "str"), ("str.format", "str"),
   ("str.strip", "str"), ("str.lower", "str"), ("str.upper", "str"), ("str.replace", "str"),
   ("str.encode", "bytes"), ("str.split", "list[str]"), ("str.startswith", "bool"),
   ("str.endswith", "bool"), ("bytes.decode", "str"), ("dict.keys", "dict_keys"),
   ("dict.values", "dict_values"), ("dict.items", "dict_items")]

/-- Overrides for common functions of the standard library. -/
def standard : OverrideRegistry :=
  ⟨[("os.getenv", .computed environmentLabel), ("os.environ.get", .computed environmentLabel)] ++
    standardLabels.map fun entry => (entry.1, .label entry.2)⟩

end OverrideRegistry

/-- Settings of a resolution. -/
structure ResolutionContext where
  overrides : OverrideRegistry := OverrideRegistry.standard
  /-- Whether calls of functions in the same text take the type of what these return. -/
  followLocal : Bool := true
  format : TypeFormat := {}
deriving Inhabited

namespace ResolutionContext

/-- The label of the first of `paths` with an override that applies; an override that
depends on the call only applies to calls. -/
def overrideLabel? (context : ResolutionContext) (call? : Option Call) :
    List String → Option String
  | [] => none
  | path :: paths =>
    match context.overrides.get? path, call? with
    | some (.label text), _ => some text
    | some (.computed label), some call => some (label call)
    | _, _ => context.overrideLabel? call? paths

end ResolutionContext

end DocSketch
