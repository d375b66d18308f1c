import ByteSearch.Cli.Session

/-!
# The program

Reads the surroundings of a session, runs the strategies against the clock, and writes what the
session leaves. Everything else is decided in `Cli/Session`.
-/

namespace ByteSearch

open ByteSearch.Cli

/-- What the system says about a path. -/
def openFile (path : Bytes) : IO (Except SystemFailure Opened) := do
  if path.contains 0 then return .error .nulInPath
  try
    let content ← IO.FS.readBinFile (Utf8.lossy path)
    return .ok (.file content.data)
  catch
    | .noFileOrDirectory .. => return .error .notFound
    | .permissionDenied .. => return .error .permissionDenied
    | .inappropriateType .. => return .ok .directory
    | .illegalOperation .. => return .ok .directory
    | e => return .error (.other (toString e))

/-- Runs a strategy and takes the time. -/
def timed (h : Buffer) (p : Search.Pattern) (e : Bench.Entry) : IO Bench.Measured := do
  let start ← IO.monoNanosNow
  let measured ← IO.lazyPure fun _ => Bench.measure Search.Counter h p e ⟨0⟩
  let stop ← IO.monoNanosNow
  return { measured with elapsed := ⟨stop - start⟩ }

/-- Runs the strategies of a plan. -/
def outcome (plan : Plan) : IO Bench.Outcome := do
  let h := plan.input.content
  let p := plan.options.pattern
  let entries := plan.registry.entries
  if plan.options.parallel then
    let tasks ← entries.mapM fun e => IO.asTask (timed h p e)
    let runs ← tasks.mapM fun task => IO.ofExcept task.get
    return Bench.atOnce plan.registry h p entries.length ((List.range runs.length).zip runs)
  else
    return Bench.inSequence plan.registry h p (← entries.mapM (timed h p))

/-- Writes what a session leaves. -/
def leave (exit : Exit) : IO UInt32 := do
  for line in exit.stderr do IO.eprintln line
  IO.print exit.stdout
  return exit.code.toUInt32

end ByteSearch

open ByteSearch ByteSearch.Cli in
/-- The program. -/
def main (arguments : List String) : IO UInt32 := do
  let arguments := arguments.map Bytes.ofString
  let filter := ((← IO.getEnv "RUST_LOG").map LogFilter.ofText).getD LogFilter.standard
  let opened ← match parse arguments with
    | .ok (.run o) => openFile (pathOf o.input)
    | _ => pure (.error .notFound)
  match prepare (FileSystem.system fun _ => opened) arguments with
  | .error exit => leave exit
  | .ok plan => leave (plan.finish filter (← outcome plan))
