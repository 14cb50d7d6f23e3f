import GoalScript.Command.Execution
import Std.Time

namespace GoalScript.Command

def readSystemFile : FileReader IO := fun path => do
  try
    return .ok (← IO.FS.readFile path)
  catch e =>
    match e with
    | .noFileOrDirectory .. => return .error .missing
    | .inappropriateType .. => return .error .isDirectory
    | e => return .error (.unreadable (toString e))

def systemVariables : IO (Table String) := do
  let bytes ← try IO.FS.readBinFile "/proc/self/environ" catch _ => pure ByteArray.empty
  let entries := ((String.fromUTF8? bytes).getD "").splitOn "\x00"
  return Table.ofList (entries.filterMap fun entry =>
    match entry.toList.dropWhile (· != '=') with
    | [] => none
    | _ :: value => some (String.ofList (entry.toList.takeWhile (· != '=')), String.ofList value))

def systemTime : IO Calendar.Instant := do
  let now ← Std.Time.Timestamp.now
  let nanos := now.toNanosecondsSinceUnixEpoch.val
  return ⟨nanos.fdiv 1000000000, (nanos.fmod 1000000000).toNat⟩

end GoalScript.Command

open GoalScript.Command in
def main (arguments : List String) : IO UInt32 := do
  let outcome ← program readSystemFile (← systemVariables) (← systemTime) arguments
  IO.sleep outcome.waited.toUInt32
  (← IO.getStdout).putStr outcome.output
  (← IO.getStderr).putStr outcome.errors
  return outcome.exitCode.toUInt32
