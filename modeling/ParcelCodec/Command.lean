/-!
# Commands

What the program can be asked to do, and how it is asked on a command line: the name of a command
and its options, each of which takes a value and may be given once.  An option is written
`--name value`, `--name=value`, or with a single letter as `-n value`, `-nvalue` or `-n=value`.
-/

namespace ParcelCodec

/-- A command. -/
inductive Command where
  /-- Write a source file for every data class, below a folder or to the standard output. -/
  | generate (input : String) (config output : Option String)
  /-- Report everything that is found wrong. -/
  | check (input : String) (config : Option String)
  /-- Print an instance of a data class that a file holds. -/
  | decode (input : String) (config : Option String) (className data : String)
  deriving Repr, DecidableEq

namespace Command

/-! ## §1. Options. -/

/-- An option of a command. -/
structure Flag where
  name : String
  /-- The letter that stands for the option. -/
  letter : Option Char
  /-- The value is a path, which is never empty. -/
  isPath : Bool
  deriving Repr, DecidableEq

def inputFlag : Flag := ⟨"input", some 'i', true⟩

def configFlag : Flag := ⟨"config", some 'c', true⟩

def outputFlag : Flag := ⟨"output", some 'o', true⟩

def classFlag : Flag := ⟨"class", none, false⟩

def dataFlag : Flag := ⟨"data", some 'd', true⟩

/-- The option that an argument names, and the value that is attached to it. -/
def flag? (flags : List Flag) (arg : List Char) : Option (Flag × Option String) :=
  match arg with
  | '-' :: '-' :: word =>
    let name := String.ofList (word.takeWhile (· != '='))
    let attached := match word.dropWhile (· != '=') with
      | [] => none
      | _ :: value => some (String.ofList value)
    (flags.find? (·.name == name)).map (·, attached)
  | '-' :: letter :: tail =>
    let attached := match tail with
      | [] => none
      | '=' :: value => some (String.ofList value)
      | value => some (String.ofList value)
    (flags.find? (·.letter == some letter)).map (·, attached)
  | _ => none

/-- Whether an argument cannot be the value of the option before it. -/
def startsFlag (arg : String) : Bool :=
  match arg.toList with
  | '-' :: _ :: _ => true
  | _ => false

/-- The values of options, by their names. -/
abbrev Values := List (String × String)

/-- The values with one more, if its option has none yet and takes it. -/
def Values.add? (values : Values) (flag : Flag) (value : String) : Option Values :=
  if (values.lookup flag.name).isSome || (flag.isPath && value.isEmpty) then none
  else some ((flag.name, value) :: values)

/-- The values that arguments give to options, besides those given before. -/
def values? (flags : List Flag) : Values → List String → Option Values
  | values, [] => some values
  | values, ["--"] => some values
  | values, arg :: rest =>
    match flag? flags arg.toList, rest with
    | some (flag, some value), rest => values.add? flag value >>= fun vs => values? flags vs rest
    | some (flag, none), value :: rest =>
      if startsFlag value then none
      else values.add? flag value >>= fun vs => values? flags vs rest
    | _, _ => none

/-! ## §2. Commands. -/

/-- The command that a command line asks for. -/
def parse? : List String → Option Command
  | "generate" :: args => do
    let values ← values? [inputFlag, configFlag, outputFlag] [] args
    return .generate (← values.lookup "input") (values.lookup "config") (values.lookup "output")
  | "check" :: args => do
    let values ← values? [inputFlag, configFlag] [] args
    return .check (← values.lookup "input") (values.lookup "config")
  | "decode" :: args => do
    let values ← values? [inputFlag, configFlag, classFlag, dataFlag] [] args
    return .decode (← values.lookup "input") (values.lookup "config") (← values.lookup "class")
      (← values.lookup "data")
  | _ => none

/-- The files that a command reads. -/
def inputs : Command → List String
  | .generate input config _ => input :: config.toList
  | .check input config => input :: config.toList
  | .decode input config _ data => input :: config.toList ++ [data]

end Command

end ParcelCodec
