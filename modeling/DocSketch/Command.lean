import DocSketch.Docstring
import DocSketch.Fault.Excerpt

/-!
# The command

The command prints the docstring templates of the functions of a file.

* `Command`: what is asked for.
* `Command.parse?`: the command that a list of arguments stands for.
* `Command.run`: what the command prints, given the content of the file.
-/

namespace DocSketch

/-- What is asked for. -/
structure Command where
  file : String
  /-- Only the function with this name. -/
  function : Option String
  /-- Whether calls of functions of the same file stand for themselves. -/
  noFollow : Bool
  /-- Whether to print numbered templates and not snippets. -/
  numberedOnly : Bool
deriving DecidableEq, Repr, Inhabited

/-- What a command leaves behind. -/
structure Outcome where
  code : Nat
  stdout : String
  stderr : String
deriving DecidableEq, Repr, Inhabited

namespace Command

def blank : Command := ⟨"", none, false, false⟩

/-- The name in an argument `--function=name`. -/
def functionArgument? (argument : String) : Option String :=
  (Text.stripStart? "--function=".toList argument.toList).map String.ofList

/-- Adds arguments to a command; `files` are the files named so far. -/
def parseFrom? (command : Command) (files : List String) : List String → Option Command
  | [] =>
    match files with
    | [file] => some { command with file := file }
    | _ => none
  | "--function" :: name :: others => { command with function := some name }.parseFrom? files others
  | "--no-follow" :: others => { command with noFollow := true }.parseFrom? files others
  | "--numbered-only" :: others => { command with numberedOnly := true }.parseFrom? files others
  | argument :: others =>
    match functionArgument? argument with
    | some name => { command with function := some name }.parseFrom? files others
    | none =>
      if argument.toList.head? = some '-' then none
      else command.parseFrom? (files ++ [argument]) others

/-- The command that arguments stand for: one file and any options. -/
def parse? (arguments : List String) : Option Command := blank.parseFrom? [] arguments

/-- Parts of a path, without empty ones and those that stay in place. -/
def pathParts (path : String) : List (List Char) :=
  (path.toList.splitOn '/').filter fun part => part ≠ [] ∧ part ≠ ['.']

/-- Last part of a path, or the whole path if it leads upwards. -/
def fileName (path : String) : String :=
  match (pathParts path).getLast? with
  | some part => if part = ['.', '.'] then path else String.ofList part
  | none => path

/-- What is printed for one function. -/
def block (command : Command) (rendered : Rendered) : String :=
  "# " ++ rendered.function ++ "\n" ++
    (if command.numberedOnly then rendered.numbered else rendered.snippet)

def failure (command : Command) (fault : Fault) (text : String) : Outcome :=
  ⟨1, "", fault.excerpt command.file text⟩

def context (command : Command) : ResolutionContext := { followLocal := !command.noFollow }

/-- What the command does with a file that could be read. -/
def runOn (command : Command) (text : String) : Outcome :=
  match Source.read text (fileName command.file) with
  | .error fault => command.failure fault text
  | .ok source =>
    match source.renderAll command.context command.function with
    | .error fault => command.failure fault text
    | .ok rendered => ⟨0, "\n".intercalate (rendered.map command.block), ""⟩

/-- What the command does, given the content of the file or why it cannot be read. -/
def run (command : Command) : Except String String → Outcome
  | .ok text => command.runOn text
  | .error reason =>
    command.failure ⟨.unreadableFile command.file reason, ⟨0, fileName command.file⟩⟩ ""

end Command

end DocSketch
