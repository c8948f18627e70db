import CurlyScript.CommandLine

namespace CurlyScript.CommandLine

/-- Why a file could not be read. A directory can be opened, and fails with a number of its own when
    it is read; opening fails where a path goes on from something that is not a directory. -/
def reason : IO.Error → ReadError
  | .noFileOrDirectory .. => .missing
  | .inappropriateType _ code _ => if code = 21 then .directory else .notDirectory
  | .permissionDenied .. => .other "Permission denied (os error 13)"
  | error => .other (toString error)

/-- The text of a file, or why there is none. -/
def readText (path : String) : IO (Except ReadError String) := do
  try
    return textOf (← IO.FS.readBinFile path)
  catch error =>
    return .error (reason error)

/-- Runs the program on files of the disk, which are all read before the run begins. -/
def runOnDisk (arguments : List String) : IO Output := do
  let files := match job? arguments with
    | .error _ => []
    | .ok job => job.files
  let texts ← files.mapM fun path => return (path, ← readText path)
  return run arguments fun path => (texts.lookup path).getD (.error .missing)

end CurlyScript.CommandLine

def main (arguments : List String) : IO UInt32 := do
  let output ← CurlyScript.CommandLine.runOnDisk arguments
  IO.print output.out
  IO.eprint output.err
  return output.status.toUInt32
