import CanvasLayout.Command.Arguments

/-!
# Invocations

What a command line asks for: one of three commands, or a word about the program itself.
-/

namespace CanvasLayout

/-- Which drawing to read, and how. -/
structure DrawingSource where
  path : String
  overrides : Option String
  artboard : Option String
  deriving DecidableEq, Repr

/-- A command and its arguments. -/
inductive Command where
  /-- Write the screen of a drawing, to a file if one is named. -/
  | parse (source : DrawingSource) (output : Option String)
  /-- Report what is wrong with a screen. -/
  | validate (screen : String) (strict : Bool) (format : String)
  /-- Summarize the screen of a drawing. -/
  | inspect (source : DrawingSource)
  deriving DecidableEq, Repr

namespace Command

/-- The options that say how a drawing is read. -/
def drawingChoices : List Choice :=
  [{ name := "overrides", value := some .path }, { name := "artboard", value := some .text }]

/-- The options of `parse`. -/
def parseChoices : List Choice :=
  { name := "output", value := some .path, letter := some 'o' } :: drawingChoices

/-- The options of `validate`. -/
def validateChoices : List Choice :=
  [{ name := "strict", value := none }, { name := "output", value := some .text }]

/-- The drawing that arguments name. -/
def drawingOf (path : String) (t : Taken) : DrawingSource :=
  ⟨path, t.value? "overrides", t.value? "artboard"⟩

/-- The command under a name, as its arguments are read. -/
def named? : String → Option (List String → Except Stop Command)
  | "parse" => some fun words => do
    let (path, t) ← taken parseChoices words
    return parse (drawingOf path t) (t.value? "output")
  | "validate" => some fun words => do
    let (path, t) ← taken validateChoices words
    return validate path (t.has "strict") ((t.value? "output").getD "text")
  | "inspect" => some fun words => do
    let (path, t) ← taken drawingChoices words
    return inspect (drawingOf path t)
  | _ => none

end Command

/-- What a command line asks for. -/
inductive Invocation where
  | command (c : Command)
  /-- There is nothing on the command line. -/
  | banner
  | help
  /-- The version, under a command's name if one was given. -/
  | version (command : Option String)
  | mistake
  deriving DecidableEq, Repr

namespace Invocation

open Command (Stop Word)

/-- What the words after a command's name ask for. -/
def ofStop (command : Option String) : Stop → Invocation
  | .mistake => .mistake
  | .help => .help
  | .version => .version command

/-- The words after `help` name at most one command. -/
def isTopic : List String → Bool
  | [] => true
  | [name] => name = "help" ∨ (Command.named? name).isSome
  | _ => false

/-- What the words of a command line ask for. -/
def ofWords : List String → Invocation
  | [] => .banner
  | first :: rest =>
    match Word.ofString first with
    | .pathsOnly => if rest.isEmpty then .banner else .mistake
    | .plain "help" => if isTopic rest then .help else .mistake
    | .plain name =>
      match Command.named? name with
      | none => .mistake
      | some read =>
        match read rest with
        | .ok c => .command c
        | .error stop => ofStop (some name) stop
    | w =>
      match Command.choose [] w with
      | .ok _ => .mistake
      | .error stop => ofStop none stop

end Invocation

end CanvasLayout
