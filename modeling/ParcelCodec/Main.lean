import ParcelCodec.Command.Run

/-!
# The program

Reads the files that a command names, runs the command on them, and carries out its effects.
-/

namespace ParcelCodec

/-- The bytes of a file, if it can be read. -/
def readFile? (path : String) : IO (Option (List UInt8)) := do
  try
    return some (← IO.FS.readBinFile path).toList
  catch _ => return none

/-- Carries out an effect. -/
def carryOut : Effect → IO Unit
  | .print text => do (← IO.getStdout).putStr text
  | .write path contents => do
    if let some folder := Command.folderOf? path then IO.FS.createDirAll folder
    IO.FS.writeFile path contents

/-- Runs a command on the files of the machine. -/
def runCommand (command : Command) : IO UInt32 := do
  let files ← command.inputs.mapM fun path => return (path, ← readFile? path)
  let transcript := command.run fun path => (files.lookup path).join
  try
    transcript.effects.forM carryOut
    return transcript.exit.toUInt32
  catch e =>
    IO.eprintln (toString e)
    return Command.failure.exit.toUInt32

end ParcelCodec

open ParcelCodec in
/-- Runs the command that the arguments ask for. -/
def main (args : List String) : IO UInt32 :=
  match Command.parse? args with
  | some command => runCommand command
  | none => do
    IO.eprintln "usage: generate | check | decode, with --input and --config"
    return usageExit.toUInt32
