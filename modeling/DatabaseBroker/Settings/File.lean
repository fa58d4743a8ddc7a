import DatabaseBroker.Settings
import DatabaseBroker.Toml.Reader

/-!
# Settings files

Settings are kept in a TOML file. `Settings.ofFile?` reads one; a section may also be given as an array of its settings
in order. `Configuration.file?` writes a configuration in full, section by section.
-/

namespace DatabaseBroker

/-- The settings of a file; none if it is no TOML or says something of the wrong form. -/
def Settings.ofFile? (text : String) : Option Settings := do
  let table ← Toml.read? text
  match (Settings.fields true).decodeWith true table.document with
  | .ok settings => some settings
  | .error _ => none

namespace Configuration

/-- The greatest whole number of a file. -/
def greatestInteger : UInt64 := 0x7FFFFFFFFFFFFFFF

/-- A key and its value on a line. -/
def line (key : String) (value : List Char) : List Char := key.toList ++ [' ', '=', ' '] ++ value ++ ['\n']

/-- A line with a text. -/
def textLine (key value : String) : List Char := line key (Toml.write value)

/-- A line with a whole number. -/
def numberLine (key : String) (n : Nat) : List Char := line key (Text.Numeral.ofNat n)

/-- The header of a section, after an empty line. -/
def sectionLine (name : String) : List Char := '\n' :: '[' :: name.toList ++ [']', '\n']

/-- The file of a configuration; none when a number in it is too great for one. -/
def file? (c : Configuration) : Option String :=
  if c.portionSize ≤ greatestInteger then
    some (String.ofList (
      textLine "log_filter" c.logFilter ++
      sectionLine "server" ++
      numberLine "port" c.port.toNat ++
      textLine "data_dir" c.dataDir ++
      sectionLine "migration" ++
      numberLine "portion_size" c.portionSize.toNat ++
      sectionLine "adapter" ++
      textLine "probe_path" c.probePath ++
      textLine "probe_timeout" c.probeTimeout.inMilliseconds))
  else none

end Configuration

end DatabaseBroker
