import Abnf.Program
import Std.Time.DateTime.Timestamp

/-! The program on a real system. -/

namespace Abnf

def FileError.ofSystem : IO.Error → FileError
  | .noFileOrDirectory .. => .notFound
  | .permissionDenied .. => .permissionDenied
  | .inappropriateType _ code _ => if code = 21 then .isDirectory else .notDirectory
  | e => .described (toString e)

def Host.system : Host IO where
  readText path := do
    match ← (IO.FS.readBinFile path.text).toBaseIO with
    | .ok content => return FileSystem.textOf content
    | .error e => return .error (.ofSystem e)
  openLog path := do
    match ← (IO.FS.Handle.mk path.text .append).toBaseIO with
    | .ok _ => return none
    | .error e => return some (.ofSystem e)
  appendLog path text := IO.FS.withFile path.text .append fun file => file.putStr text
  handOver _ _ := return
  print text := IO.print text
  printError text := IO.eprint text
  now := do
    let now ← Std.Time.Timestamp.now
    return now.toMillisecondsSinceUnixEpoch.val.toNat
  timed compute := do
    let start ← IO.monoNanosNow
    let value ← IO.lazyPure compute
    let stop ← IO.monoNanosNow
    return (value, stop - start)

end Abnf

def main (arguments : List String) : IO UInt32 := do
  return (← Abnf.Program.run Abnf.Host.system arguments).toUInt32
