import DatabaseBroker.CommandLine
import DatabaseBroker.Proofs.Duration
import DatabaseBroker.Proofs.Settings.File

/-!
# The printed configuration

`config` prints the configuration in effect as a settings file. The file says what the settings say, with one exception: a timeout of 2^64
milliseconds or more, which may well be given in seconds or minutes, is printed in milliseconds, and such a number is no duration any more. The
file then stands for the default timeout (`Settings.printed_settings`).
-/

namespace DatabaseBroker

/-! ## Settings with nothing left out -/

namespace Configuration

/-- The settings of a configuration lead back to it where a portion holds an entry, but for a timeout that is too long to be read back. -/
theorem configuration_settings {c : Configuration} (hsize : max c.portionSize 1 = c.portionSize) :
    c.settings.configuration =
      { c with probeTimeout := if c.probeTimeout.milliseconds < UInt64.size then c.probeTimeout else default.probeTimeout } := by
  have htimeout : (Duration.parse? c.probeTimeout.inMilliseconds).getD default.probeTimeout =
      if c.probeTimeout.milliseconds < UInt64.size then c.probeTimeout else default.probeTimeout := by
    rw [Duration.parse?_inMilliseconds]
    split <;> rfl
  simp [Settings.configuration, settings, hsize, htimeout]

end Configuration

namespace Settings

variable {s : Settings}

/-- A portion that holds an entry is not made greater. -/
theorem max_portionSize (s : Settings) : max s.configuration.portionSize 1 = s.configuration.portionSize := by
  have hmax : ∀ n : UInt64, max n 1 = if n ≤ 1 then 1 else n := fun _ => rfl
  have hagain : ∀ n : UInt64, max (max n 1) 1 = max n 1 := by
    intro n
    by_cases hn : n ≤ 1
    · rw [hmax n, if_pos hn]
      rfl
    · rw [hmax n, if_neg hn, hmax n, if_neg hn]
  exact hagain _

/-- What is in effect under settings with every gap filled. -/
theorem resolved_configuration (s : Settings) :
    s.resolved.configuration = { s.configuration with
      probeTimeout := if s.configuration.probeTimeout.milliseconds < UInt64.size then s.configuration.probeTimeout
        else Configuration.default.probeTimeout } :=
  Configuration.configuration_settings s.max_portionSize

/-- The timeout that is in effect then is read back. -/
theorem resolved_timeout_lt (s : Settings) : s.resolved.configuration.probeTimeout.milliseconds < UInt64.size := by
  rw [resolved_configuration]
  simp only
  split
  · assumption
  · decide

/-- What is in effect is what was in effect before exactly if the timeout is read back. -/
theorem resolved_configuration_eq_iff :
    s.resolved.configuration = s.configuration ↔ s.configuration.probeTimeout.milliseconds < UInt64.size := by
  constructor
  · intro h
    have htimeout := s.resolved_timeout_lt
    rwa [h] at htimeout
  · intro h
    rw [resolved_configuration, if_pos h]

/-- Gaps that are filled again stay as they are exactly if the timeout is read back. -/
theorem resolved_resolved_iff : s.resolved.resolved = s.resolved ↔ s.configuration.probeTimeout.milliseconds < UInt64.size := by
  constructor
  · intro h
    have hadapter := Option.some.inj (congrArg Settings.adapter h)
    have htext : s.resolved.configuration.probeTimeout.inMilliseconds = s.configuration.probeTimeout.inMilliseconds :=
      Option.some.inj (congrArg AdapterSettings.probeTimeout hadapter)
    -- one text is read as a timeout, so the other is
    have hparse := Duration.parse?_inMilliseconds s.resolved.configuration.probeTimeout
    rw [if_pos s.resolved_timeout_lt, htext, Duration.parse?_inMilliseconds] at hparse
    split at hparse
    · assumption
    · cases hparse
  · intro h
    rw [resolved, resolved_configuration_eq_iff.mpr h, ← resolved]

/-- What is in effect under overrides: each of them that is given, and what was in effect before otherwise. -/
theorem configuration_override (s : Settings) (o : Overrides) :
    (s.override o).configuration = { s.configuration with
      port := o.port.getD s.configuration.port
      dataDir := o.dataDir.getD s.configuration.dataDir
      portionSize := (o.portionSize.map (max · 1)).getD s.configuration.portionSize } := by
  obtain ⟨logFilter, server, migration, adapter⟩ := s
  obtain ⟨port, dataDir, portionSize⟩ := o
  cases server <;> cases port <;> cases dataDir <;> cases portionSize <;> simp [override, configuration]

end Settings

/-! ## What is printed -/

/-- A configuration has a file unless the number in it is too great for one. -/
theorem Configuration.isSome_file? (c : Configuration) : c.file?.isSome = true ↔ c.portionSize ≤ greatestInteger := by
  unfold file?
  split
  · rename_i h
    simp [h]
  · rename_i h
    simp [h]

namespace Invocation

variable {file content : Option String} {s : Settings} {text : String}

/-- The settings that an invocation is carried out under. -/
def settings? (file content : Option String) : Option Settings :=
  match file with
  | none => some .empty
  | some _ => content.bind Settings.ofFile?

theorem settings?_some (path text : String) : settings? (some path) (some text) = Settings.ofFile? text := rfl

/-- What follows from a command under settings. -/
theorem outcome_of_settings (h : settings? file content = some s) (command : Command) :
    (Invocation.mk file command).outcome content = match command with
      | .help => .prints Outcome.usage
      | .config => match s.configuration.file? with
        | some text => .prints text
        | none => .noSettings
      | .serve o => .serves (s.override o).configuration := by
  cases file with
  | none =>
    obtain rfl : Settings.empty = s := Option.some.inj h
    cases command <;> rfl
  | some path =>
    have hcontent : content.bind Settings.ofFile? = some s := h
    unfold outcome
    simp only [hcontent]
    cases command <;> rfl

/-- What `config` prints is the file of the configuration in effect. -/
theorem file?_of_printed (h : settings? file content = some s) (hprinted : (Invocation.mk file .config).outcome content = .prints text) :
    s.configuration.file? = some text := by
  rw [outcome_of_settings h] at hprinted
  simp only at hprinted
  split at hprinted
  · rename_i hfile
    cases hprinted
    exact hfile
  · cases hprinted

/-- Settings with one configuration are not told apart by any command. -/
theorem outcome_congr {file' content' : Option String} {s' : Settings} (h : settings? file content = some s)
    (h' : settings? file' content' = some s') (hsame : s'.configuration = s.configuration) (command : Command) :
    (Invocation.mk file' command).outcome content' = (Invocation.mk file command).outcome content := by
  rw [outcome_of_settings h, outcome_of_settings h']
  simp only [Settings.configuration_override, hsame]

end Invocation

/-- The printed configuration means what the settings mean, except that a timeout of 2^64 milliseconds or more is replaced by the default. For all
settings:
1. Under the settings that `config` prints, each setting in effect is what it was, but such a timeout.
2. So the configuration in effect is the same, and filling the gaps again changes nothing, exactly if the timeout is shorter.
3. `config` prints a file unless the portion size is no integer of such a file, which is so from 2^63 on.
4. A file that it printed says what it printed it from, with every gap filled; and every command has the same outcome under that file as under
   what it was printed from exactly if the timeout is shorter. -/
theorem Settings.printed_settings (s : Settings) :
    (s.resolved.configuration = { s.configuration with
      probeTimeout := if s.configuration.probeTimeout.milliseconds < UInt64.size then s.configuration.probeTimeout
        else Configuration.default.probeTimeout }) ∧
    (s.resolved.configuration = s.configuration ↔ s.configuration.probeTimeout.milliseconds < UInt64.size) ∧
    (s.resolved.resolved = s.resolved ↔ s.configuration.probeTimeout.milliseconds < UInt64.size) ∧
    (s.configuration.file?.isSome = true ↔ s.configuration.portionSize ≤ Configuration.greatestInteger) ∧
    ∀ (file content : Option String) (text : String), Invocation.settings? file content = some s →
      (Invocation.mk file .config).outcome content = .prints text →
      Settings.ofFile? text = some s.resolved ∧
      ∀ path, (∀ command, (Invocation.mk (some path) command).outcome (some text) = (Invocation.mk file command).outcome content) ↔
        s.configuration.probeTimeout.milliseconds < UInt64.size := by
  refine ⟨s.resolved_configuration, resolved_configuration_eq_iff, resolved_resolved_iff, s.configuration.isSome_file?, ?_⟩
  intro file content text hsettings hprinted
  have hfile := Invocation.file?_of_printed hsettings hprinted
  have hread : ofFile? text = some s.resolved := Configuration.ofFile?_file hfile
  refine ⟨hread, fun path => ?_⟩
  have hpath : Invocation.settings? (some path) (some text) = some s.resolved := by
    rw [Invocation.settings?_some, hread]
  constructor
  · intro hall
    -- what is printed under the printed file is that file again, which stands for one settings only
    have hagain := Invocation.file?_of_printed hpath ((hall .config).trans hprinted)
    have hsame := Configuration.ofFile?_file hagain
    rw [hread] at hsame
    exact resolved_resolved_iff.mp (Option.some.inj hsame).symm
  · intro htimeout
    exact Invocation.outcome_congr hsettings hpath (resolved_configuration_eq_iff.mpr htimeout)

/-- A settings file that sets the timeout only. -/
def timeoutFile (timeout : String) : String := "[adapter]\nprobe_timeout = \"" ++ timeout ++ "\"\n"

/-- The settings of such a file. -/
def timeoutSettings (timeout : String) : Settings := ⟨none, none, none, some ⟨none, some timeout⟩⟩

/-- What `config` prints under such a file, with the number of milliseconds. -/
def printedTimeout (milliseconds : String) : String :=
  "log_filter = \"info,dbaasd=debug,dbaas=debug\"\n\n[server]\nport = 8080\ndata_dir = \"/var/lib/dbaas\"\n\n" ++
    "[migration]\nportion_size = 20\n\n[adapter]\nprobe_path = \"/health\"\nprobe_timeout = \"" ++ milliseconds ++ "ms\"\n"

/-- Two minutes are printed as 120000 milliseconds: every command has the same outcome under the file printed. -/
theorem printed_settings_of_twoMinutes :
    Invocation.settings? (some "dbaasd.toml") (some (timeoutFile "2m")) = some (timeoutSettings "2m") ∧
      (Invocation.mk (some "dbaasd.toml") .config).outcome (some (timeoutFile "2m")) = .prints (printedTimeout "120000") ∧
      Settings.ofFile? (printedTimeout "120000") = some (timeoutSettings "2m").resolved ∧
      ∀ command, (Invocation.mk (some "printed.toml") command).outcome (some (printedTimeout "120000")) =
        (Invocation.mk (some "dbaasd.toml") command).outcome (some (timeoutFile "2m")) := by
  have hsettings : Invocation.settings? (some "dbaasd.toml") (some (timeoutFile "2m")) = some (timeoutSettings "2m") := by
    decide +kernel
  have hfile : (timeoutSettings "2m").configuration.file? = some (printedTimeout "120000") := by
    decide +kernel
  have hprinted : (Invocation.mk (some "dbaasd.toml") .config).outcome (some (timeoutFile "2m")) =
      .prints (printedTimeout "120000") := by
    rw [Invocation.outcome_of_settings hsettings, hfile]
  obtain ⟨hread, hsame⟩ := (Settings.printed_settings (timeoutSettings "2m")).2.2.2.2 _ _ _ hsettings hprinted
  exact ⟨hsettings, hprinted, hread, (hsame "printed.toml").mpr (by decide +kernel)⟩

/-- Of 18446744073709552 seconds the printed file says a number of milliseconds that is no duration, and stands for five seconds: filling the gaps
again changes it, and so does printing it again. -/
theorem printed_timeout_lost :
    (timeoutSettings "18446744073709552s").configuration.probeTimeout = .ofSeconds 18446744073709552 ∧
      (timeoutSettings "18446744073709552s").resolved.configuration.probeTimeout = .ofSeconds 5 ∧
      (timeoutSettings "18446744073709552s").resolved.resolved ≠ (timeoutSettings "18446744073709552s").resolved ∧
      (Invocation.mk (some "dbaasd.toml") .config).outcome (some (timeoutFile "18446744073709552s")) =
        .prints (printedTimeout "18446744073709552000") ∧
      (Invocation.mk (some "dbaasd.toml") .config).outcome (some (printedTimeout "18446744073709552000")) =
        .prints (printedTimeout "5000") := by
  have hsettings : Invocation.settings? (some "dbaasd.toml") (some (timeoutFile "18446744073709552s")) =
      some (timeoutSettings "18446744073709552s") := by
    decide +kernel
  have hfile : (timeoutSettings "18446744073709552s").configuration.file? = some (printedTimeout "18446744073709552000") := by
    decide +kernel
  have hread : Invocation.settings? (some "dbaasd.toml") (some (printedTimeout "18446744073709552000")) =
      some (timeoutSettings "18446744073709552s").resolved := by
    rw [Invocation.settings?_some, Configuration.ofFile?_file hfile, Settings.resolved]
  have hagain : (timeoutSettings "18446744073709552s").resolved.configuration.file? = some (printedTimeout "5000") := by
    decide +kernel
  refine ⟨by decide +kernel, by decide +kernel, by decide +kernel, ?_, ?_⟩
  · rw [Invocation.outcome_of_settings hsettings, hfile]
  · rw [Invocation.outcome_of_settings hread, hagain]

end DatabaseBroker
