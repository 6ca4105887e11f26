import JsonTemplate.Data.OfJson
import JsonTemplate.Main
import JsonTemplate.Proofs.Json.Room
import JsonTemplate.Proofs.Match.PlaceholderFree
import JsonTemplate.Proofs.Path
import JsonTemplate.Proofs.Place
import JsonTemplate.Proofs.Json.Telling
import JsonTemplate.Proofs.Comparison.Facing
import JsonTemplate.Proofs.Comparison.Located
import JsonTemplate.Proofs.Comparison.Captures
import JsonTemplate.Proofs.Comparison.Modes
import JsonTemplate.Proofs.Comparison.Filling
import JsonTemplate.Proofs.Match.Compared
import JsonTemplate.Proofs.Answers
import JsonTemplate.Proofs.Resolution.InOrder
import JsonTemplate.Proofs.Match.Calls
import JsonTemplate.Proofs.Comparison.Answered
import JsonTemplate.Proofs.Match.Noninterference
import JsonTemplate.Proofs.Suite.Variables
import JsonTemplate.Proofs.Suite.Captured
import JsonTemplate.Proofs.Suite.Literals
import JsonTemplate.Proofs.Suite.Drafts
import JsonTemplate.Proofs.Registry.Names
import JsonTemplate.Proofs.Registry.Session
import JsonTemplate.Proofs.Match.Steady
import JsonTemplate.Proofs.Suite.Constants
import JsonTemplate.Proofs.Suite.Run
import JsonTemplate.Proofs.Json.Overflow
import JsonTemplate.Proofs.Json.Standard
import JsonTemplate.Proofs.Suite.Failures
import JsonTemplate.Proofs.Comparison.Subsumption
import JsonTemplate.Proofs.Comparison.Reordered
import JsonTemplate.Proofs.Comparison.Mirrored
import JsonTemplate.Proofs.Match.Numbers
import JsonTemplate.Proofs.Match.Octets
import JsonTemplate.Proofs.Match.Positions
import JsonTemplate.Proofs.Suite.Independent
import JsonTemplate.Proofs.Decimal.Binary64
import JsonTemplate.Proofs.Json.Ascii
import JsonTemplate.Proofs.Data.Literal
import JsonTemplate.Proofs.Suite.Verdict
import JsonTemplate.Proofs.Placeholder.Occurrences
import JsonTemplate.Proofs.Match.BareNames
import JsonTemplate.Proofs.Path.Notation
import JsonTemplate.Proofs.Registry.Lookup
import JsonTemplate.Proofs.Data.Held
import JsonTemplate.Proofs.Suite.Inline
import JsonTemplate.Proofs.Suite.Building
import JsonTemplate.Proofs.Time.Calendar
import JsonTemplate.Proofs.Time.IsoText
import JsonTemplate.Proofs.Time.FixedClock
