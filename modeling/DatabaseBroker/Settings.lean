import DatabaseBroker.Duration
import DatabaseBroker.Json.Decoder

/-!
# Settings

What a settings file may say, section by section, all of it optional (`Settings`), and what is in effect once every gap
is filled (`Configuration`). `Settings.resolved` says in full what is in effect.
-/

namespace DatabaseBroker

/-- What a file says about the server. -/
structure ServerSettings where
  port : Option UInt16
  dataDir : Option String
deriving DecidableEq

/-- What a file says about migrations. -/
structure MigrationSettings where
  portionSize : Option UInt64
deriving DecidableEq

/-- What a file says about the probe of an adapter. -/
structure AdapterSettings where
  probePath : Option String
  /-- A duration as it is written; one that cannot be read counts as left out. -/
  probeTimeout : Option String
deriving DecidableEq

/-- What a settings file says. -/
structure Settings where
  logFilter : Option String
  server : Option ServerSettings
  migration : Option MigrationSettings
  adapter : Option AdapterSettings
deriving DecidableEq

/-- What is in effect. -/
structure Configuration where
  logFilter : String
  port : UInt16
  dataDir : String
  portionSize : UInt64
  probePath : String
  probeTimeout : Duration
deriving DecidableEq

namespace Configuration

/-- What is in effect when nothing is said. -/
def default : Configuration where
  logFilter := "info,dbaasd=debug,dbaas=debug"
  port := 8080
  dataDir := "/var/lib/dbaas"
  portionSize := 20
  probePath := "/health"
  probeTimeout := .ofSeconds 5

end Configuration

namespace ServerSettings

/-- The settings of the server as JSON. -/
def toJson (s : ServerSettings) : Json := .ofMembers [
  ("port", .ofOption .ofUInt16 s.port),
  ("data_dir", .ofOption .string s.dataDir)]

/-- The settings of the server, each optional. -/
def fields : Fields ServerSettings :=
  ServerSettings.mk <$> .optional "port" .uint16
    <*> .optional "data_dir" .string

end ServerSettings

namespace MigrationSettings

/-- The settings of migrations as JSON. -/
def toJson (s : MigrationSettings) : Json := .ofMembers [
  ("portion_size", .ofOption .ofUInt64 s.portionSize)]

/-- The settings of migrations, each optional. -/
def fields : Fields MigrationSettings :=
  MigrationSettings.mk <$> .optional "portion_size" .uint64

end MigrationSettings

namespace AdapterSettings

/-- The settings of probes as JSON. -/
def toJson (s : AdapterSettings) : Json := .ofMembers [
  ("probe_path", .ofOption .string s.probePath),
  ("probe_timeout", .ofOption .string s.probeTimeout)]

/-- The settings of probes, each optional. -/
def fields : Fields AdapterSettings :=
  AdapterSettings.mk <$> .optional "probe_path" .string
    <*> .optional "probe_timeout" .string

end AdapterSettings

namespace Settings

/-- The settings that say nothing. -/
def empty : Settings := ⟨none, none, none, none⟩

/-- Settings as JSON, null where nothing is set. -/
def toJson (s : Settings) : Json := .ofMembers [
  ("log_filter", .ofOption .string s.logFilter),
  ("server", .ofOption ServerSettings.toJson s.server),
  ("migration", .ofOption MigrationSettings.toJson s.migration),
  ("adapter", .ofOption AdapterSettings.toJson s.adapter)]

/-- The sections, each decoded with or without surplus items. -/
def fields (surplus : Bool) : Fields Settings :=
  Settings.mk <$> .optional "log_filter" .string
    <*> .optional "server" (ServerSettings.fields.decodeWith surplus)
    <*> .optional "migration" (MigrationSettings.fields.decodeWith surplus)
    <*> .optional "adapter" (AdapterSettings.fields.decodeWith surplus)

/-- Settings as JSON. -/
def decode : Decoder Settings := (fields false).decode

/-- What is in effect under settings. A portion holds at least one entry. -/
def configuration (s : Settings) : Configuration where
  logFilter := s.logFilter.getD Configuration.default.logFilter
  port := (s.server.bind (·.port)).getD Configuration.default.port
  dataDir := (s.server.bind (·.dataDir)).getD Configuration.default.dataDir
  portionSize := max ((s.migration.bind (·.portionSize)).getD Configuration.default.portionSize) 1
  probePath := (s.adapter.bind (·.probePath)).getD Configuration.default.probePath
  probeTimeout := ((s.adapter.bind (·.probeTimeout)).bind Duration.parse?).getD Configuration.default.probeTimeout

end Settings

/-- A configuration as settings that leave nothing out. -/
def Configuration.settings (c : Configuration) : Settings where
  logFilter := some c.logFilter
  server := some ⟨some c.port, some c.dataDir⟩
  migration := some ⟨some c.portionSize⟩
  adapter := some ⟨some c.probePath, some c.probeTimeout.inMilliseconds⟩

/-- Settings with every gap filled. -/
def Settings.resolved (s : Settings) : Settings := s.configuration.settings

end DatabaseBroker
