import Sigstore.Types.Hash

/-!
# Instants

Instants as nanoseconds since the Unix epoch. `jiff`, which parses and prints them, and the clock
are outside of the code: `Jiff` holds them as parameters, with one reading of the clock for all
that a call asks of it.
-/

namespace Sigstore.Types

/-- Nanoseconds since the Unix epoch. -/
abbrev Timestamp := Int

/-- The whole seconds of an instant. -/
def Timestamp.asSecond (t : Timestamp) : Int64 := Int64.ofInt (t.tdiv 1000000000)

/-- Parsing and printing of instants, and the clock. -/
structure Jiff where
  parse : String → Except String Timestamp
  fromSecond : Int64 → Except String Timestamp
  display : Timestamp → String
  now : Timestamp

end Sigstore.Types
