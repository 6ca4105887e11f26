import JsonTemplate.CommandLine.Run
import JsonTemplate.Yaml.Pool
import Std.Time

set_option autoImplicit false

/-!
# The program

Supplies the arguments, the files, the time and random bits to a run, and prints what
comes of it.
-/

namespace JsonTemplate.Program

/-- The state of random bits, and the moment at which the program was started. -/
structure World where
  generator : StdGen
  started : Moment

/-- Random bits from the generator; the present is the start of the program. -/
def host : Host World where
  random world :=
    let (bits, generator) := randNat world.generator 0 (Nat.pow 2 128 - 1)
    (bits, { world with generator := generator })
  now world := (world.started, world)

/-- Microseconds from the start of year 1 to the start of 1970. -/
def epochMicros : Int := Calendar.daysBeforeYear 1970 * Calendar.dayMicros

def present : IO (Option Moment) := do
  let now ← Std.Time.DateTime.now
  let micros := now.toTimestamp.toNanosecondsSinceUnixEpoch.val / 1000
  return do
    let universal ← WallTime.ofMicros? (epochMicros + micros)
    let zone ← Offset.ofMicros? (now.offset.second.val * 1000000)
    Moment.atOffset? ⟨universal, .utc⟩ zone

def entryAt (path : Text) : IO FileEntry := do
  try
    let content ← IO.FS.readBinFile path.asString
    return .content content.toList
  catch error =>
    match error with
    | .noFileOrDirectory .. => return .missing
    | _ => return .directory

def runSuite (arguments : CommandLine.Arguments) (path : Text) : IO UInt32 := do
  let entry ← entryAt path
  let some started ← present
    | throw (IO.userError "the present is outside the calendar")
  let seed ← IO.rand 0 (Nat.pow 2 62)
  match CommandLine.run Yaml.read host arguments path entry ⟨mkStdGen seed, started⟩ with
  | .error _ => throw (IO.userError "the suite cannot be run")
  | .ok outcome =>
      match outcome.saved with
      | some (target, text) => IO.FS.writeFile target.asString text.asString
      | none => pure ()
      IO.print outcome.output.asString
      IO.eprint outcome.errors.asString
      return outcome.exit.toUInt32

end JsonTemplate.Program

/-- Run a suite file as the arguments ask. -/
def main (arguments : List String) : IO UInt32 := do
  match JsonTemplate.CommandLine.requestOf (arguments.map JsonTemplate.lit) with
  | .leave code =>
      IO.eprintln "usage: [-h] [-s SUITE] [-r REPORT] [-q] [-v] [suite]"
      return code.toUInt32
  | .run arguments => JsonTemplate.Program.runSuite arguments (arguments.suitePath?.getD [])
