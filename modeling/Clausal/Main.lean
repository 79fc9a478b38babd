/-
# The program

The outermost layer: it reads the arguments, the files and the clock, and
prints the outcome. What there is to decide is decided elsewhere.
-/

import Clausal.Outcome

namespace Clausal

/-- The number of a system error. Some operations report it negated. -/
def systemErrorNumber (code : UInt32) : Nat :=
  min code.toNat (-code).toNat

/-- The cause of a failure of the system. -/
def ReadError.ofSystem (cause : IO.Error) : ReadError :=
  match cause with
  | .noFileOrDirectory _ _ _ => .missing
  | .inappropriateType _ code _ =>
      if systemErrorNumber code = 20 then .notDirectory else .isDirectory
  | .invalidArgument _ code reason =>
      if systemErrorNumber code = 36 then .nameTooLong else .other reason
  | .permissionDenied _ _ _ => .other "Permission denied (os error 13)"
  | _ => .other (toString cause)

/-- Read until there are no more bytes. -/
partial def readAll (source : IO.FS.Stream) (sofar : ByteArray) : IO ByteArray := do
  let bytes ← source.read 65536
  if bytes.isEmpty then return sofar else readAll source (sofar ++ bytes)

/-- Take what an action reads, or its failure, for a stream. -/
def streamOf (action : IO ByteArray) : IO ByteStream := do
  try
    return ⟨(← action).toList, none⟩
  catch cause =>
    return .failed (.ofSystem cause)

/-- The stream of a file. -/
def readFile (path : String) : IO ByteStream :=
  if path.toList.contains '\x00' then return .failed .nulInName
  else streamOf (IO.FS.readBinFile path)

/-- Run a procedure and take the time. -/
def Procedure.timedReport (procedure : Procedure) (name : String) (m : ClauseMatrix) :
    IO (Report × Elapsed) := do
  let start ← IO.monoNanosNow
  let report ← IO.lazyPure fun _ => procedure.report name m
  let span := (← IO.monoNanosNow) - start
  return (report, ⟨.ofNat (span / 1000000000), .ofNat (span % 1000000000)⟩)

/-- Solve one input and take the time of each procedure. -/
def Settings.solveTimed (settings : Settings) (name : String) (s : ByteStream) :
    IO InputResult := do
  match s.contents.mapError .read >>= settings.matrixOf with
  | .error cause => return .error cause
  | .ok m =>
      return .ok (← settings.solver.procedures.mapM fun procedure =>
        procedure.timedReport name m)

/-- Carry out a command. -/
def CommandLine.Command.execute (command : Command) : IO Outcome := do
  match command with
  | .showVersion => return .version
  | .solve settings [] =>
      let s ← streamOf (do readAll (← IO.getStdin) .empty)
      return .ofResults [← settings.solveTimed standardInputName s]
  | .solve settings inputs =>
      return .ofResults (← inputs.mapM fun path => do
        settings.solveTimed path (← readFile path))

end Clausal

def main (arguments : List String) : IO UInt32 := do
  match Clausal.CommandLine.parse arguments with
  | .ok command =>
      let outcome ← command.execute
      IO.print outcome.output
      IO.eprint outcome.errors
      return outcome.exitStatus.toUInt32
  | .error cause =>
      IO.eprintln ("error: " ++ cause.message)
      return 1
