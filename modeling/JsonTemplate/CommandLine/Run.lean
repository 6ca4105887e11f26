import JsonTemplate.CommandLine.Arguments
import JsonTemplate.Suite.File
import JsonTemplate.Suite.ReportFile

set_option autoImplicit false

/-!
# Running from the command line

What a run prints, which report it leaves, and how it ends.
-/

namespace JsonTemplate.CommandLine

structure Outcome where
  exit : Nat
  output : Text
  errors : Text
  saved : Option (Text × Text)
deriving Repr

def errorText (message : Text) : Text :=
  lit "Error: " ++ message ++ [.scalar '\n']

def timeText (moment : Moment) : Text :=
  ((moment.atOffset? .utc).getD moment).wall.render (.scalar 'T') ++ [.scalar 'Z']

def Arguments.unlessQuiet (arguments : Arguments) (text : Text) : Text :=
  if arguments.quiet then [] else text

/-- Run the suite at a path, given what stands there. -/
def run {σ : Type} (load : Suite.Loader) (host : Host σ) (arguments : Arguments) (path : Text)
    (entry : FileEntry) (world : σ) : Except Escape Outcome :=
  match entry with
  -- A missing file is noticed before the heading is printed.
  | .missing =>
      .ok ⟨1, [], errorText (lit "Suite file not found: " ++ path), none⟩
  | entry =>
      let heading := arguments.unlessQuiet (lit "Suite: " ++ path ++ lit "\n\n")
      match Suite.ofFile load host none path entry with
      | .error (.reported error) => .ok ⟨1, heading, errorText error.message, none⟩
      | .error (.escaped escape) => .error escape
      | .ok suite =>
          let (moment, world) := host.now world
          match (suite.run ⟨[], world⟩).1 with
          | .error (.reported error) => .ok ⟨1, heading, errorText error.message, none⟩
          | .error (.escaped escape) => .error escape
          | .ok report =>
              let (notice, saved) := match arguments.reportPath? with
                | some target =>
                    (lit "\nReport saved to: " ++ target ++ lit "\n",
                      some (target, report.fileText (timeText moment)))
                | none => ([], none)
              .ok ⟨if report.failed = 0 then 0 else 1,
                heading ++ arguments.unlessQuiet (report.text ++ notice), [], saved⟩

end JsonTemplate.CommandLine
