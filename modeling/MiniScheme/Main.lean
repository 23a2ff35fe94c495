import MiniScheme.Cli
/-!
# The interpreter's entry point

Reads the program from `-e`, a file or standard input, runs it and writes what `Machine.report`
gives; the process exits with its status.
-/

open MiniScheme

/-- The rest of a stream, line by line. -/
partial def readAll (s : IO.FS.Stream) (acc : String) : IO String := do
  let line ← s.getLine
  if line.isEmpty then pure acc else readAll s (acc ++ line)

def main (args : List String) : IO UInt32 := do
  match Cli.parse args with
  | .error msg =>
    IO.eprintln msg
    pure 2
  | .ok opts =>
    let src ← match opts.source with
      | .text s => pure s
      | .file path => IO.FS.readFile path
      | .stdin => do readAll (← IO.getStdin) ""
    let r := Machine.report opts.quiet src
    let out ← IO.getStdout
    out.putStr r.stdout
    out.flush
    let err ← IO.getStderr
    err.putStr r.stderr
    err.flush
    pure r.status.toUInt32
