import ParcelCodec.Command
import ParcelCodec.Compilation
import ParcelCodec.Java.Source
import ParcelCodec.Json.Printer
import ParcelCodec.Machine
import ParcelCodec.Value.Json

/-!
# Running commands

A command reads some files, and what it does then is decided: it prints, it writes files, and it
succeeds or fails.  A transcript lists these effects in their order.
-/

namespace ParcelCodec

/-- Something that a command does. -/
inductive Effect where
  /-- Text for the standard output. -/
  | print (text : String)
  /-- A file to write, with the folders that it stands in. -/
  | write (path contents : String)
  deriving Repr, DecidableEq

/-- What a command does, and whether it succeeds. -/
structure Transcript where
  effects : List Effect
  succeeds : Bool
  deriving Repr, DecidableEq

/-- The exit code of a command line that asks for no command. -/
def usageExit : UInt8 := 2

/-- The exit code of a command. -/
def Transcript.exit (t : Transcript) : UInt8 := if t.succeeds then 0 else 1

namespace Command

/-- How a command sees files: the bytes of a path. -/
abbrev Files := String → Option (List UInt8)

/-- Nothing but a failure. -/
def failure : Transcript := ⟨[], false⟩

/-- The text of a file. -/
def text? (files : Files) (path : String) : Option String := do
  String.fromUTF8? ⟨(← files path).toArray⟩

/-- What comes of a model file and perhaps an options file. -/
def compilation? (files : Files) (input : String) (config : Option String) :
    Option Compilation := do
  let model ← text? files input >>= Model.parse?
  let options ← match config with
    | none => some Options.default
    | some path => text? files path >>= Options.parse?
  return .ofModel model options

/-- A diagnostic as JSON. -/
def diagnosticJson (d : Diagnostic) : Json :=
  .members [("kind", .text d.finding.code), ("element", .text d.element),
    ("message", .text d.message)]

/-- Diagnostics as JSON text. -/
def diagnosticsText (ds : List Diagnostic) : String := (Json.arr (ds.map diagnosticJson)).pretty

/-- Writes or prints a source file. -/
def deliver (output : Option String) (file : Java.SourceFile) : List Effect :=
  match output with
  | some root =>
    let path := Java.joinPath root file.path
    [.write path file.contents, .print ("Generated " ++ path ++ "\n")]
  | none => [.print ("// " ++ file.path ++ "\n" ++ file.contents ++ "\n")]

/-- The folder of a file below another folder. -/
def folderOf? (path : String) : Option String :=
  match path.toList.reverse.dropWhile (· != '/') with
  | [] => none
  | _ :: outer => if outer.isEmpty then none else some (.ofList outer.reverse)

/-- What a command does with some files. -/
def run (files : Files) : Command → Transcript
  | .generate input config output =>
    match compilation? files input config with
    | none => failure
    | some c =>
      -- A single finding keeps every file from being written.
      if c.isOk then
        ⟨(c.companions.map Java.sourceFile).flatMap (deliver output), true⟩
      else failure
  | .check input config =>
    match compilation? files input config with
    | none => failure
    | some c => ⟨[.print (diagnosticsText c.diagnostics ++ "\n")], c.isOk⟩
  | .decode input config className data =>
    match compilation? files input config, files data with
    | some c, some bytes =>
      match (Machine.mk c.companions []).read className bytes with
      | .ok value => ⟨[.print (value.toJson.pretty ++ "\n")], true⟩
      | .error _ => failure
    | _, _ => failure

end Command

end ParcelCodec
