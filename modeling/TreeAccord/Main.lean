import TreeAccord.Cli.Run

/-!
# The program

Runs a command line on the real file system.
-/

namespace TreeAccord.Cli

/-- An error number without its sign, which some operations turn around. -/
def unsigned (code : UInt32) : UInt32 := min code (0 - code)

/-- The reason of a failed operation, known by its error number. -/
def reasonOf (error : IO.Error) : Reason :=
  match error with
  | .noFileOrDirectory .. | .noSuchThing .. => .notFound
  | .inappropriateType _ code _ =>
    if unsigned code = 20 then .notDirectory
    else if unsigned code = 21 then .isDirectory
    else .other (toString error)
  | .invalidArgument _ code _ =>
    if unsigned code = 36 then .nameTooLong else .other (toString error)
  | error => .other (toString error)

def diskFiles : Files IO where
  read path := do
    try
      match String.fromUTF8? (← IO.FS.readBinFile path) with
      | some text => return .ok text
      | none => return .error .notUtf8
    catch error => return .error (reasonOf error)
  list path := do
    try
      let entries ← (System.mkFilePath [path]).readDir
      return .ok (entries.toList.map fun entry => entry.fileName)
    catch error => return .error (reasonOf error)
  isFile path := do
    try
      let data ← (System.mkFilePath [path]).metadata
      return data.type == .file
    catch _ => return false

end TreeAccord.Cli

def main (arguments : List String) : IO UInt32 := do
  let stdout ← IO.getStdout
  let stderr ← IO.getStderr
  let terminal := (← stdout.isTty) && (← stderr.isTty)
  let outcome ← TreeAccord.Cli.run TreeAccord.Cli.diskFiles terminal arguments
  stdout.putStr outcome.stdout
  stderr.putStr outcome.stderr
  return outcome.code.toUInt32
