import QueryTree.Command.Run
import Std.Time.DateTime.Timestamp

namespace QueryTree.CommandLine

def fileText (name : String) : IO (Except String String) := do
  try
    let octets ← IO.FS.readBinFile name
    return .ok (Text.Utf8.decode octets.toList)
  catch
    | .noFileOrDirectory .. => return .error ("open " ++ name ++ ": no such file or directory")
    | e => return .error ("open " ++ name ++ ": " ++ toString e)

partial def readLines (input : IO.FS.Stream) (text : String) : IO String := do
  let line ← input.getLine
  if line.isEmpty then return text else readLines input (text ++ line)

-- The variables that may hold settings.
def variableNames : List String :=
  ["DIALECT", "ESCAPE", "SCHEMA", "OBJECT", "OUTPUT", "LOG", "LOG_LEVEL"].map
    (Settings.environmentMark ++ ·)

def environment : IO (List (String × String)) :=
  variableNames.filterMapM fun name => do
    return (← IO.getEnv name).map (name, ·)

def now : IO Time := do
  let nanos := (← Std.Time.Timestamp.now).toNanosecondsSinceUnixEpoch.val
  return { seconds := Int.fdiv nanos 1000000000, nanos := (Int.fmod nanos 1000000000).toNat }

end QueryTree.CommandLine

open QueryTree in
-- Prints what the command says, or its error.
def main (args : List String) : IO UInt32 := do
  let sys : System IO :=
    { fileText := CommandLine.fileText,
      inputText := do CommandLine.readLines (← IO.getStdin) "",
      environment := ← CommandLine.environment,
      now := ← CommandLine.now }
  match ← (sys.run Program.tool args).run with
  | .ok text =>
    IO.print text
    return 0
  | .error e =>
    IO.eprintln ("Error: " ++ e.message)
    return 1
