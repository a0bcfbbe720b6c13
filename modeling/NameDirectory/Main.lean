import NameDirectory.CommandLine

/-!
# The command line

`shell` and `serve` run the two programs on this machine's files and standard streams.
There are no sockets here, so the shell reaches no address, and the server waits for
the end of its input.
-/

namespace NameDirectory.Program

partial def readAll (s : IO.FS.Stream) (done : ByteArray) : IO ByteArray := do
  let more ← s.read 65536
  if more.isEmpty then return done else readAll s (done ++ more)

/-- Why a file cannot be read; only the numbers of causes tell some of them apart. -/
def fileFault : IO.Error → StreamFault
  | .noFileOrDirectory .. => .missingFile
  | .permissionDenied .. => .accessDenied
  | .inappropriateType _ number _ => if number = 21 then .isFolder else .notFolder
  | .invalidArgument _ number _ => if number = 22 then .nulInName else .nameTooLong
  | e => .other (toString e)

/-- The contents of a file, or why it cannot be read. -/
def readFile (path : String) : IO (Except StreamFault Bytes) :=
  try
    return .ok (← IO.FS.readBinFile path).toList
  catch e => return .error (fileFault e)

def usage : String :=
  "usage: shell (--url <servers> | --properties <file>) [--user <name> [--password <password>]]\n" ++
  "             [--timeout <milliseconds>] [--random]\n" ++
  "       serve <address> [--bind <name=value>]... [--user <name:password>]... [--workers <n>]\n"

def finish (e : CommandLine.Ending) : IO UInt32 := do
  (← IO.getStdout).putStr e.printed
  (← IO.getStderr).putStr (if e.code = 2 then usage else e.reported)
  return e.code.toUInt32

def run (args : List String) : IO UInt32 := do
  let input ← IO.getStdin
  match args with
  | "shell" :: args =>
    match Arguments.Shell.parse args with
    | .error refusal => finish (CommandLine.refused refusal)
    | .ok a =>
      let file ← readFile (a.properties.getD "")
      let typed ← readAll input .empty
      finish (CommandLine.shell args (fun _ => file) typed.toList false { routes := false }).1
  | "serve" :: args =>
    match CommandLine.server args with
    | .error e => finish e
    | .ok _ =>
      let _ ← readAll input .empty
      finish { code := 0 }
  | _ => finish { code := 2 }

end NameDirectory.Program

def main (args : List String) : IO UInt32 := NameDirectory.Program.run args
