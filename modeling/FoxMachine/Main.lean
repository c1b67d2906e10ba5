import FoxMachine.CommandLine

namespace FoxMachine

namespace Main

def fileFault (error : IO.Error) : FileFault :=
  match error with
  | .noFileOrDirectory _ _ _ => .notFound
  | .inappropriateType _ 20 _ => .notDirectory
  | .inappropriateType _ 21 _ => .isDirectory
  | error => .failure (toString error)

def guarded {α : Type} (action : IO α) : IO (Except FileFault α) := do
  try
    return .ok (← action)
  catch error =>
    return .error (fileFault error)

instance : FileStore IO where
  holds path := do
    match ← guarded (IO.FS.withFile path .read fun _ => pure ()) with
    | .error .notFound | .error .notDirectory => return false
    | _ => return true
  read path := guarded do
    return (← IO.FS.readBinFile path).data.toList
  write path bytes := guarded (IO.FS.writeBinFile path ⟨bytes.toArray⟩)

def flush (console : Console) : IO Console := do
  unless console.errors.isEmpty do
    IO.eprint console.errors
  unless console.output.isEmpty do
    IO.print console.output
    (← IO.getStdout).flush
  return { console with output := "", errors := "" }

/-- Reads a key before an instruction that wants one. -/
def supplyKey (machine : Machine) : IO Machine := do
  if machine.instruction == .readKey && machine.terminal.keys.isEmpty then
    let bytes ← (← IO.getStdin).read 1
    let keys := Terminal.keysOfBytes bytes.data.toList
    return { machine with terminal := { machine.terminal with keys } }
  else return machine

partial def waitUntil (time : Nat) : IO Unit := do
  if (← IO.monoNanosNow) < time then waitUntil time

partial def drive (session : Session) : IO Session := do
  if session.isHalted then return session
  else
    let started ← IO.monoNanosNow
    let machine ← supplyKey session.machine
    let session := { session with machine }.step
    let console ← flush session.console
    match session.machine.clock with
    | .unthrottled => pure ()
    | .periodic period _ => waitUntil (started + period)
    drive { session with console }

def printReport (report : Report) : IO Unit := do
  match report.code? with
  | some code => IO.eprintln ("Error: " ++ code ++ "\n\n  " ++ report.message)
  | none => IO.eprintln ("Error: " ++ report.message)
  match report.help? with
  | some help => IO.eprintln ("  help: " ++ help)
  | none => pure ()

def finish (outcome : CommandLine.Outcome) : IO UInt32 := do
  let _ ← flush outcome.console
  match outcome.failure? with
  | none => pure ()
  | some failure => printReport failure.report
  return outcome.exitCode

def environment : IO Environment := do
  let names := ["FOX16_TRACE", "FOX16_CLOCK_HZ", "CLICOLOR_FORCE", "COLORTERM"]
  names.filterMapM fun name => do
    return (← IO.getEnv name).map fun value => (name, value)

def execute (command : CommandLine.Command) : IO UInt32 := do
  let settings := Settings.ofEnvironment (← environment)
  let color := settings.forcesColor || (← (← IO.getStdout).isTty)
  match ← CommandLine.prepare settings color [] command with
  | .ended outcome => finish outcome
  | .ready launch =>
      let console ← flush launch.session.console
      let session ← drive { launch.session with console }
      finish { launch with session := session.conclude }.finish

end Main

end FoxMachine

def main (arguments : List String) : IO UInt32 := do
  match FoxMachine.CommandLine.Command.ofArguments arguments with
  | .ok command => FoxMachine.Main.execute command
  | .error fault =>
      IO.eprintln ("error: " ++ fault.message)
      return 2
