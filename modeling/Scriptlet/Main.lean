import Scriptlet.Report

/-!
# Command line

Runs the script in the file that is the only argument.
-/

/-- Prints the report on the file. -/
def main (arguments : List String) : IO UInt32 := do
  match arguments with
  | [path] =>
    let report ← try
        pure (Scriptlet.Report.ofBytes path (← IO.FS.readBinFile path))
      catch
        | .noFileOrDirectory .. => pure (Scriptlet.Report.missing path)
        | failure => pure (Scriptlet.Report.unreadable path (toString failure))
    IO.print report.output
    IO.eprint report.errors
    return report.exitCode.toUInt32
  | _ =>
    IO.eprintln "usage: scriptlet PATH"
    return 2
