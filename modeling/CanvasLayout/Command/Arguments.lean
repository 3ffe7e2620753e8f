import CanvasLayout.Text.Ascii

/-!
# Arguments

The words of a command line. A command takes one path and some options; an option is given by
its name or its letter, with its value attached or in the next word, and at most once. Words
are taken in order, so what comes first decides between asking for help and a mistake. After
two hyphens every word is a path.
-/

namespace CanvasLayout.Command

/-- What a value has to be. -/
inductive Value where
  | text
  /-- A text that is not empty. -/
  | path
  deriving DecidableEq, Repr

/-- An option of a command. -/
structure Choice where
  name : String
  /-- What its value has to be; without one it is a flag. -/
  value : Option Value
  letter : Option Char := none
  deriving DecidableEq, Repr

/-- A word by its hyphens. -/
inductive Word where
  | plain (text : String)
  /-- Two hyphens. -/
  | pathsOnly
  | long (name : String) (attached : Option String)
  | short (letter : Char) (attached : Option String)
  deriving DecidableEq, Repr

/-- A name and what follows the first equals sign after it. -/
def Word.longOf (cs : List Char) : Word :=
  match Text.cutAt '=' cs with
  | some (name, value) => .long (.ofList name) (some (.ofList value))
  | none => .long (.ofList cs) none

/-- The word by its hyphens; a lone hyphen is plain. -/
def Word.ofString (s : String) : Word :=
  match s.toList with
  | ['-', '-'] => .pathsOnly
  | '-' :: '-' :: cs => longOf cs
  | ['-', c] => .short c none
  | '-' :: c :: '=' :: cs => .short c (some (.ofList cs))
  | '-' :: c :: cs => .short c (some (.ofList cs))
  | _ => .plain s

/-- Why words stop short of a command. -/
inductive Stop where
  | mistake
  | help
  | version
  deriving DecidableEq, Repr

/-- The path and the options taken so far. -/
structure Taken where
  path : Option String := none
  options : List (String × String) := []

namespace Taken

/-- With a path, if it is the first. -/
def withPath (t : Taken) (s : String) : Except Stop Taken :=
  if t.path.isSome ∨ s = "" then .error .mistake else .ok { t with path := some s }

/-- The value of an option. -/
def value? (t : Taken) (name : String) : Option String := t.options.lookup name

/-- The option was given. -/
def has (t : Taken) (name : String) : Bool := (t.value? name).isSome

/-- With an option, if it is not there yet and its value is fit. -/
def withOption (t : Taken) (c : Choice) (value : String) : Except Stop Taken :=
  if t.has c.name ∨ (c.value = some .path ∧ value = "") then .error .mistake
  else .ok { t with options := (c.name, value) :: t.options }

end Taken

/-- The option that a word names, and the value attached to it. -/
def choose (cs : List Choice) : Word → Except Stop (Choice × Option String)
  | .long name attached =>
    match cs.find? (·.name = name) with
    | some c => .ok (c, attached)
    | none =>
      if attached.isSome then .error .mistake
      else if name = "help" then .error .help
      else if name = "version" then .error .version
      else .error .mistake
  | .short 'h' _ => .error .help
  | .short 'V' _ => .error .version
  | .short letter attached =>
    match cs.find? (·.letter = some letter) with
    | some c => .ok (c, attached)
    | none => .error .mistake
  | _ => .error .mistake

/-- Takes the words one after the other. -/
def take (cs : List Choice) (t : Taken) : List String → Except Stop Taken
  | [] => .ok t
  | s :: rest =>
    match Word.ofString s with
    | .plain _ => do take cs (← t.withPath s) rest
    | .pathsOnly => rest.foldlM Taken.withPath t
    | w => do
      let (c, attached) ← choose cs w
      match c.value.isSome, attached with
      | false, none => take cs (← t.withOption c "") rest
      | false, some _ => .error .mistake
      | true, some value => take cs (← t.withOption c value) rest
      | true, none =>
        match rest with
        | [] => .error .mistake
        | next :: rest =>
          match Word.ofString next with
          | .plain value => take cs (← t.withOption c value) rest
          | _ => .error .mistake
  termination_by ws => ws.length

/-- The path and the options that words give. -/
def taken (cs : List Choice) (words : List String) : Except Stop (String × Taken) := do
  let t ← take cs {} words
  match t.path with
  | some path => .ok (path, t)
  | none => .error .mistake

end CanvasLayout.Command
