import ParcelCodec.Command.Run
import ParcelCodec.Text.Segments

/-!
# Disks

Files and folders as a value, and the effects of a command on them.

A path is followed one step at a time.  A step down names an entry, a step up leaves a folder, and
each step must start in a folder, also one that the next step leaves again.  Writing makes the
folders that are missing on its way; a file cannot stand where a folder does, so writing can fail,
and a command that fails to write stops there.
-/

namespace ParcelCodec

/-! ## §1. Entries. -/

/-- A file with its contents, or a folder with its entries by name. -/
inductive Entry where
  | file (contents : List UInt8)
  | folder (entries : List (String × Entry))

/-- The names that lead down from a folder. -/
abbrev Place := List String

namespace Entry

/-- What stands at a place. -/
def at? : Entry → Place → Option Entry
  | e, [] => some e
  | .file _, _ :: _ => none
  | .folder entries, name :: rest => entries.lookup name >>= fun inner => inner.at? rest

/-- The entry with another one at a place below it, if the folders on the way are there. -/
def put? : Entry → Place → Entry → Option Entry
  | _, [], new => some new
  | .file _, _ :: _, _ => none
  | .folder entries, name :: rest, new => do
    let inner ← match rest with
      | [] => some new
      | _ :: _ => entries.lookup name >>= fun inner => inner.put? rest new
    return .folder ((name, inner) :: entries.filter (·.1 != name))

/-- What was put at a place stands there. -/
theorem at?_put? {e e' new : Entry} {place : Place} (h : e.put? place new = some e') :
    e'.at? place = some new := by
  induction place generalizing e e' with
  | nil => cases e <;> simp_all [put?, at?]
  | cons name rest ih =>
    cases e with
    | file contents => simp [put?] at h
    | folder entries =>
      cases rest with
      | nil =>
        simp only [put?, Option.pure_def, Option.bind_eq_bind, Option.bind_some,
          Option.some.injEq] at h
        subst h
        simp [at?]
      | cons next more =>
        simp only [put?, Option.pure_def, Option.bind_eq_bind, Option.bind_eq_some_iff,
          Option.some.injEq] at h
        obtain ⟨inner', ⟨inner, -, hput⟩, rfl⟩ := h
        simp [at?, ih hput]

mutual

/-- The files in an entry, by their places. -/
def files : Entry → List (Place × List UInt8)
  | .file contents => [([], contents)]
  | .folder entries => filesIn entries

/-- The files in the entries of a folder. -/
def filesIn : List (String × Entry) → List (Place × List UInt8)
  | [] => []
  | (name, e) :: rest => e.files.map (fun f => (name :: f.1, f.2)) ++ filesIn rest

end

end Entry

/-! ## §2. Paths. -/

/-- Everything below the root. -/
structure Disk where
  root : Entry

namespace Disk

/-- The folder that relative paths start from.  No path spells its name, so paths lead out of it
but not back into it. -/
def home : Place := [""]

/-- A disk without files of its own: the folder that paths start from, and the two devices that
read as empty. -/
def empty : Disk :=
  ⟨.folder [("", .folder []), ("dev", .folder [("null", .file []), ("stdin", .file [])])]⟩

/-- The longest name of an entry, in bytes. -/
def longestName : Nat := 255

/-- The longest path, in bytes. -/
def longestPath : Nat := 4095

/-- The place that a path starts from, and its steps. -/
def route? (path : String) : Option (Place × List String) :=
  let cs := path.toList
  if cs.isEmpty || cs.contains '\x00' || longestPath < path.utf8ByteSize then none
  else some (if cs.head? = some '/' then [] else home, (Text.segments '/' cs).map String.ofList)

/-- The place that one step leads to.  A step up from the root stays there. -/
def step? (place : Place) (name : String) : Option Place :=
  if name = "" || name = "." then some place
  else if name = ".." then some place.dropLast
  else if name.utf8ByteSize ≤ longestName then some (place ++ [name])
  else none

/-- The place at the end of some steps, which may be one where nothing stands. -/
def follow? (d : Disk) : Place → List String → Option Place
  | place, [] => some place
  | place, name :: rest =>
    match d.root.at? place with
    | some (.folder _) => step? place name >>= fun next => d.follow? next rest
    | _ => none

/-! ## §3. Reading and writing. -/

/-- The bytes of a file. -/
def read? (d : Disk) (path : String) : Option (List UInt8) := do
  let (start, steps) ← route? path
  match ← d.follow? start steps >>= d.root.at? with
  | .file contents => some contents
  | .folder _ => none

/-- The disk with a folder at a place, unless a file stands there. -/
def makeFolder? (d : Disk) (place : Place) : Option Disk :=
  match d.root.at? place with
  | some (.folder _) => some d
  | some (.file _) => none
  | none => (d.root.put? place (.folder [])).map Disk.mk

/-- Follows steps and makes the folders that are missing. -/
def makeFolders? : Disk → Place → List String → Option (Disk × Place)
  | d, place, [] => some (d, place)
  | d, place, name :: rest => do
    let next ← step? place name
    (← d.makeFolder? next).makeFolders? next rest

/-- The disk with a file written, and the folders that it stands in. -/
def write? (d : Disk) (path : String) (contents : List UInt8) : Option Disk := do
  let (start, steps) ← route? path
  let (d, folder) ← d.makeFolders? start steps.dropLast
  let place ← steps.getLast? >>= step? folder
  match d.root.at? place with
  -- Also a path that ends in a slash or in dots, which names a folder.
  | some (.folder _) => none
  | _ => (d.root.put? place (.file contents)).map Disk.mk

/-- The files in the folder that relative paths start from. -/
def files (d : Disk) : List (Place × List UInt8) :=
  ((d.root.at? home).map Entry.files).getD []

/-! ## §4. Commands. -/

/-- What effects print, the disk that they leave behind, and whether all of them happened. -/
def perform : Disk → List Effect → String × Disk × Bool
  | d, [] => ("", d, true)
  | d, .print text :: rest =>
    let (more, after) := d.perform rest
    (text ++ more, after)
  | d, .write path contents :: rest =>
    match d.write? path contents.toUTF8.toList with
    | none => ("", d, false)
    | some d' => d'.perform rest

/-- What a command line prints on a disk, its exit code, and the disk that it leaves behind. -/
def execute (d : Disk) (args : List String) : String × UInt8 × Disk :=
  match Command.parse? args with
  | none => ("", usageExit, d)
  | some command =>
    let transcript := command.run d.read?
    match d.perform transcript.effects with
    | (out, after, true) => (out, transcript.exit, after)
    | (out, after, false) => (out, Command.failure.exit, after)

end Disk

end ParcelCodec
