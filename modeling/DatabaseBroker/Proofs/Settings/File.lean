import DatabaseBroker.Proofs.Json.Fields
import DatabaseBroker.Proofs.Toml.Lines
import DatabaseBroker.Proofs.Toml.Sections
import DatabaseBroker.Settings.File

/-!
# A configuration is read back from its file

The file of a configuration has one line for each setting and a header for each section. It is read line by line, the statements make the
table of the sections (`Configuration.read?_file`), and the table is decoded as the settings of the configuration, with nothing left out
(`Configuration.ofFile?_file`).
-/

namespace DatabaseBroker

open Toml

namespace Configuration

variable {c : Configuration} {text : String}

/-! ## Lines -/

/-- A line with a text says that its key is the text. -/
theorem says_textLine {key : String} (hkey : Bare key.toList) (value : String) :
    Says (textLine key value) (.pair ⟨[], key⟩ (.text value)) := by
  have hsays := says_pair hkey (shown_write value)
  rwa [String.ofList_toList] at hsays

/-- A line with a number says that its key is the number. -/
theorem says_numberLine {key : String} (hkey : Bare key.toList) {n : Nat} (hn : n < 0x8000000000000000) :
    Says (numberLine key n) (.pair ⟨[], key⟩ (.integer n (natCast_inRange hn))) := by
  have hsays := says_pair hkey (shown_ofNat hn)
  rwa [String.ofList_toList] at hsays

/-- A header opens its section. -/
theorem says_sectionLine {name : String} (hname : Bare name.toList) : Says (sectionLine name) (.header ⟨[], name⟩) := by
  have hsays := says_header hname
  rwa [String.ofList_toList] at hsays

/-- The lines of the file of a configuration. -/
def lines (c : Configuration) : List (List Char) := [
  textLine "log_filter" c.logFilter,
  sectionLine "server",
  numberLine "port" c.port.toNat,
  textLine "data_dir" c.dataDir,
  sectionLine "migration",
  numberLine "portion_size" c.portionSize.toNat,
  sectionLine "adapter",
  textLine "probe_path" c.probePath,
  textLine "probe_timeout" c.probeTimeout.inMilliseconds]

/-- A file is the lines of the configuration, whose numbers are in range. -/
theorem of_file? (h : c.file? = some text) : c.portionSize.toNat < 0x8000000000000000 ∧ text.toList = c.lines.flatten := by
  unfold file? at h
  split at h
  · rename_i hsize
    refine ⟨?_, ?_⟩
    · have hle : c.portionSize.toNat ≤ greatestInteger.toNat := UInt64.le_iff_toNat_le.mp hsize
      have hgreatest : greatestInteger.toNat = 0x7FFFFFFFFFFFFFFF := rfl
      omega
    · rw [← Option.some.inj h, String.toList_ofList]
      simp only [lines, List.flatten_cons, List.flatten_nil, List.append_nil, List.append_assoc]
  · cases h

/-! ## The table of a file -/

/-- A configuration as JSON, its sections and settings in the order of the file. -/
def toJson (c : Configuration) : Json := .object [
  ("log_filter", .string c.logFilter),
  ("server", .object [("port", .ofUInt16 c.port), ("data_dir", .string c.dataDir)]),
  ("migration", .object [("portion_size", .ofUInt64 c.portionSize)]),
  ("adapter", .object [("probe_path", .string c.probePath), ("probe_timeout", .string c.probeTimeout.inMilliseconds)])]

/-- The file of a configuration is read as a table of its settings. -/
theorem read?_file (h : c.file? = some text) : ∃ table, Toml.read? text = some table ∧ table.document = .ofJson c.toJson := by
  obtain ⟨hsize, htext⟩ := of_file? h
  have hport : c.port.toNat < 0x8000000000000000 := by
    have := c.port.toNat_lt
    omega
  let top : Members := [("log_filter", .text c.logFilter)]
  let sections : List (String × Members) := [
    ("server", [("port", .integer c.port.toNat (natCast_inRange hport)), ("data_dir", .text c.dataDir)]),
    ("migration", [("portion_size", .integer c.portionSize.toNat (natCast_inRange hsize))]),
    ("adapter", [("probe_path", .text c.probePath), ("probe_timeout", .text c.probeTimeout.inMilliseconds)])]
  have hsays : List.Forall₂ Says c.lines (top.map pairOf ++ sections.flatMap sectionOf) :=
    .cons (says_textLine (by decide) _) <|
    .cons (says_sectionLine (by decide)) <|
    .cons (says_numberLine (by decide) hport) <|
    .cons (says_textLine (by decide) _) <|
    .cons (says_sectionLine (by decide)) <|
    .cons (says_numberLine (by decide) hsize) <|
    .cons (says_sectionLine (by decide)) <|
    .cons (says_textLine (by decide) _) <|
    .cons (says_textLine (by decide) _) .nil
  have hfirst : c.lines.flatten.head? = some 'l' := rfl
  refine ⟨.table .header (top ++ sections.map tableOf), ?_, rfl⟩
  rw [read?_of_lines hsays htext (by rw [hfirst]; decide)]
  exact ofStatements_sections top sections (by simp [top, sections]) (by simp [sections])

/-! ## The settings of a file -/

/-- A setting that is given is read as given. -/
theorem writes_given {α : Type} {name : String} {decode : Decoder α} {j : Json} {a : α} (hnull : j ≠ .null) (h : decode.Reads j a) :
    (Fields.optional name decode).Writes [(name, j)] (some a) := by
  have hgiven : (Decoder.nullable decode).Reads (.ofOption (fun _ => j) (some a)) (some a) := by
    refine Decoder.reads_ofOption (fun _ => hnull) ?_
    rintro b ⟨⟩
    exact h
  exact .field hgiven

/-- The members of a configuration are decoded as its settings, section by section. -/
theorem reads_toJson (c : Configuration) : ((Settings.fields true).decodeWith true).Reads c.toJson c.settings := by
  have hserver : (ServerSettings.fields.decodeWith true).Reads
      (.object [("port", .ofUInt16 c.port), ("data_dir", .string c.dataDir)]) ⟨some c.port, some c.dataDir⟩ :=
    (((writes_given (by nofun) (Decoder.reads_uint16 c.port)).map ServerSettings.mk).seq
      (writes_given (by nofun) (Decoder.reads_string c.dataDir))).reads_object (by decide) true
  have hmigration : (MigrationSettings.fields.decodeWith true).Reads
      (.object [("portion_size", .ofUInt64 c.portionSize)]) ⟨some c.portionSize⟩ :=
    ((writes_given (by nofun) (Decoder.reads_uint64 c.portionSize)).map MigrationSettings.mk).reads_object (by decide) true
  have hadapter : (AdapterSettings.fields.decodeWith true).Reads
      (.object [("probe_path", .string c.probePath), ("probe_timeout", .string c.probeTimeout.inMilliseconds)])
      ⟨some c.probePath, some c.probeTimeout.inMilliseconds⟩ :=
    (((writes_given (by nofun) (Decoder.reads_string c.probePath)).map AdapterSettings.mk).seq
      (writes_given (by nofun) (Decoder.reads_string c.probeTimeout.inMilliseconds))).reads_object (by decide) true
  exact (((((writes_given (by nofun) (Decoder.reads_string c.logFilter)).map Settings.mk).seq
    (writes_given (by nofun) hserver)).seq
    (writes_given (by nofun) hmigration)).seq
    (writes_given (by nofun) hadapter)).reads_object (by decide) true

/-- The file of a configuration is read as its settings, with nothing left out. -/
theorem ofFile?_file (h : c.file? = some text) : Settings.ofFile? text = some c.settings := by
  obtain ⟨table, hread, hdocument⟩ := read?_file h
  have hdecode : (Settings.fields true).decodeWith true (.ofJson c.toJson) = .ok c.settings := c.reads_toJson
  simp only [Settings.ofFile?, hread, Option.bind_eq_bind, Option.bind_some, hdocument, hdecode]

end Configuration

end DatabaseBroker
