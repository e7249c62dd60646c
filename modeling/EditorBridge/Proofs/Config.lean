import EditorBridge.Config.Arguments
import EditorBridge.Proofs.Json.TextRecord
import EditorBridge.Proofs.Json.WrittenRecord
import Mathlib.Tactic.SplitIfs
/-!
# The layers of a configuration

A file, the environment and the command line each say something about some of
the settings. Put on top of each other and on top of the defaults they are the
configuration of a run, unless a layer cannot be read or the outcome is not
valid.
-/

namespace EditorBridge.Config

open Json (Entry TextField Taken)
open Json.Scan (Known ReadsAs)

/-! ## Layers -/

/-- What a layer says about the log. -/
structure LogSettings where
  level : Option String
  directory : Option (Option String)

/-- What a layer says about the settings. -/
structure Settings where
  host : Option String
  port : Option Nat
  sessionTimeoutSecs : Option Nat
  cleanupIntervalSecs : Option Nat
  snapshotStaleAfterSecs : Option Nat
  commandTimeoutSecs : Option Nat
  keepaliveIntervalSecs : Option Nat
  sseBuffer : Option Nat
  sseWriteTimeoutSecs : Option Nat
  maxBodyBytes : Option Nat
  logging : LogSettings

/-- A layer without settings of the log. -/
def LogSettings.none : LogSettings := ⟨.none, .none⟩

/-- The upper layer where it says something, otherwise the lower one. -/
def LogSettings.or (upper lower : LogSettings) : LogSettings :=
  ⟨upper.level.or lower.level, upper.directory.or lower.directory⟩

/-- A layer on top of settings of the log. -/
def LogSettings.atop (s : LogSettings) (l : LogConfig) : LogConfig :=
  ⟨s.level.getD l.level, s.directory.getD l.directory⟩

namespace Settings

/-- A layer that says nothing. -/
def none : Settings :=
  ⟨.none, .none, .none, .none, .none, .none, .none, .none, .none, .none, .none⟩

/-- The upper layer where it says something, otherwise the lower one. -/
def or (upper lower : Settings) : Settings where
  host := upper.host.or lower.host
  port := upper.port.or lower.port
  sessionTimeoutSecs := upper.sessionTimeoutSecs.or lower.sessionTimeoutSecs
  cleanupIntervalSecs := upper.cleanupIntervalSecs.or lower.cleanupIntervalSecs
  snapshotStaleAfterSecs := upper.snapshotStaleAfterSecs.or lower.snapshotStaleAfterSecs
  commandTimeoutSecs := upper.commandTimeoutSecs.or lower.commandTimeoutSecs
  keepaliveIntervalSecs := upper.keepaliveIntervalSecs.or lower.keepaliveIntervalSecs
  sseBuffer := upper.sseBuffer.or lower.sseBuffer
  sseWriteTimeoutSecs := upper.sseWriteTimeoutSecs.or lower.sseWriteTimeoutSecs
  maxBodyBytes := upper.maxBodyBytes.or lower.maxBodyBytes
  logging := upper.logging.or lower.logging

/-- A layer on top of a configuration. -/
def atop (s : Settings) (c : Config) : Config where
  host := s.host.getD c.host
  port := s.port.getD c.port
  sessionTimeoutSecs := s.sessionTimeoutSecs.getD c.sessionTimeoutSecs
  cleanupIntervalSecs := s.cleanupIntervalSecs.getD c.cleanupIntervalSecs
  snapshotStaleAfterSecs := s.snapshotStaleAfterSecs.getD c.snapshotStaleAfterSecs
  commandTimeoutSecs := s.commandTimeoutSecs.getD c.commandTimeoutSecs
  keepaliveIntervalSecs := s.keepaliveIntervalSecs.getD c.keepaliveIntervalSecs
  sseBuffer := s.sseBuffer.getD c.sseBuffer
  sseWriteTimeoutSecs := s.sseWriteTimeoutSecs.getD c.sseWriteTimeoutSecs
  maxBodyBytes := s.maxBodyBytes.getD c.maxBodyBytes
  logging := s.logging.atop c.logging

theorem getD_or {α : Type} (upper lower : Option α) (a : α) :
    (upper.or lower).getD a = upper.getD (lower.getD a) := by
  cases upper <;> rfl

/-- Two layers count as one in which the upper one goes first. -/
theorem or_atop (upper lower : Settings) (c : Config) :
    (upper.or lower).atop c = upper.atop (lower.atop c) := by
  simp only [or, atop, LogSettings.or, LogSettings.atop, getD_or]

/-! ## The file -/

/-- A number that counts seconds or something else. -/
def wordField (name kind : String) (store : Nat → Settings → Settings) : TextField Settings :=
  settingField name (Json.Scan.naturalField 64 kind) store

/-- What a file says about the log, field by field. -/
def logFields : List (TextField LogSettings) :=
  [settingField "level" (Json.Scan.textField "a string") fun v s => { s with level := some v },
    settingField "directory" (Json.Scan.optionalField (Json.Scan.textField "path string"))
      fun v s => { s with directory := some v }]

/-- What a file says, field by field. -/
def fields : List (TextField Settings) :=
  [settingField "host" (Json.Scan.textField "a string") fun v s => { s with host := some v },
    settingField "port" (Json.Scan.naturalField 16 "u16") fun v s => { s with port := some v },
    wordField "session_timeout_secs" "u64" fun v s => { s with sessionTimeoutSecs := some v },
    wordField "cleanup_interval_secs" "u64" fun v s => { s with cleanupIntervalSecs := some v },
    wordField "snapshot_stale_after_secs" "u64"
      fun v s => { s with snapshotStaleAfterSecs := some v },
    wordField "command_timeout_secs" "u64" fun v s => { s with commandTimeoutSecs := some v },
    wordField "keepalive_interval_secs" "u64" fun v s => { s with keepaliveIntervalSecs := some v },
    wordField "sse_buffer" "usize" fun v s => { s with sseBuffer := some v },
    wordField "sse_write_timeout_secs" "u64" fun v s => { s with sseWriteTimeoutSecs := some v },
    wordField "max_body_bytes" "usize" fun v s => { s with maxBodyBytes := some v },
    settingField "logging" (Json.Scan.textRecord "struct LoggingConfig" logFields .none)
      fun v s => { s with logging := v }]

/-- What a text says. -/
def ofText (bs : Text.Bytes) : Except Json.Fault Settings := do
  Json.Scan.finish (← Json.Scan.textRecord "struct BridgeConfig" fields .none bs)

/-- What the file says: nothing where there is none, or none that describes a configuration. -/
def ofFile : File → Settings
  | .absent | .directory => none
  | .bytes content => (ofText content).toOption.getD none

section File

variable {name : String}

theorem settingField_along {α β γ δ : Type} {view : α → β} (inner : γ → δ)
    {read : Text.Bytes → Except Json.Fault (Taken γ)}
    {read' : Text.Bytes → Except Json.Fault (Taken δ)} {store : γ → α → α} {store' : δ → β → β}
    (hread : ∀ bs, read' bs = (read bs).map (Taken.map inner))
    (hstore : ∀ v a, view (store v a) = store' (inner v) (view a)) :
    (settingField name read store).Along view (settingField name read' store') where
  name := rfl
  read bs a := by
    simp only [settingField, hread]
    cases read bs with
    | error fault => rfl
    | ok p => exact congrArg (fun b => Except.ok (b, p.2)) (hstore p.1 a).symm

/-- A field that is read alike in both records. -/
theorem settingField_same {α β γ : Type} {view : α → β}
    {read : Text.Bytes → Except Json.Fault (Taken γ)} {store : γ → α → α} {store' : γ → β → β}
    (hstore : ∀ v a, view (store v a) = store' v (view a)) :
    (settingField name read store).Along view (settingField name read store') :=
  settingField_along id (fun bs => by cases read bs <;> rfl) hstore

theorem logFields_along : List.Forall₂ (TextField.Along (LogSettings.atop · .default)) logFields
    Config.logFields :=
  .cons (settingField_same fun _ _ => rfl) <| .cons (settingField_same fun _ _ => rfl) .nil

theorem fields_along : List.Forall₂ (TextField.Along (atop · .default)) fields Config.fields := by
  have hlog : ∀ bs, Json.Scan.textRecord "struct LoggingConfig" Config.logFields .default bs =
      (Json.Scan.textRecord "struct LoggingConfig" logFields .none bs).map
        (Taken.map (LogSettings.atop · .default)) := fun bs =>
    Json.Scan.textRecord_along logFields_along "struct LoggingConfig" .none bs
  unfold fields Config.fields wordField secondsField countField
  iterate 10 refine .cons (settingField_same fun _ _ => rfl) ?_
  exact .cons (settingField_along _ hlog fun _ _ => rfl) .nil

/-- A text describes the configuration that what it says makes of the defaults. -/
theorem ofText_eq (bs : Text.Bytes) : Config.ofText bs = (ofText bs).map (atop · .default) := by
  have hrecord : Json.Scan.textRecord "struct BridgeConfig" Config.fields .default bs =
      (Json.Scan.textRecord "struct BridgeConfig" fields .none bs).map
        (Taken.map (atop · .default)) :=
    Json.Scan.textRecord_along fields_along "struct BridgeConfig" .none bs
  rw [Config.ofText, ofText, hrecord]
  cases Json.Scan.textRecord "struct BridgeConfig" fields .none bs with
  | error fault => rfl
  | ok taken =>
    obtain ⟨s, rest⟩ := taken
    show Json.Scan.finish (s.atop .default, rest) = (Json.Scan.finish (s, rest)).map _
    unfold Json.Scan.finish
    dsimp only
    split <;> rfl

/-- A file that is absent, or a text that describes a configuration. -/
def Decodes : File → Prop
  | .absent => True
  | .directory => False
  | .bytes content => (Text.decode? content).isSome ∧ ∃ c, Config.ofText content = .ok c

/-- What is loaded are the defaults with the file on top. -/
theorem load_ok_iff {file : File} {c : Config} :
    load file = .ok c ↔ Decodes file ∧ c = (ofFile file).atop .default := by
  cases file with
  | absent =>
    constructor
    · rintro ⟨⟩
      exact ⟨trivial, rfl⟩
    · rintro ⟨-, rfl⟩
      rfl
  | directory => exact iff_of_false nofun fun h => h.1
  | bytes content =>
    simp only [load, Decodes, ofFile, ofText_eq]
    cases Text.decode? content with
    | none => simp
    | some text =>
      cases ofText content <;> simp [Except.map, Except.mapError, Except.toOption, eq_comm]

end File

/-! ## A written file -/

/-- A setting that is written if the layer has it. -/
def entryOf {α β : Type} (name : String) (value : β → Json) (put : Option β → α → α)
    (o : Option β) : List (Entry α) :=
  (o.map fun b => ⟨name, value b, put (some b)⟩).toList

/-- A number as a JSON value. -/
def numberJson (n : Nat) : Json := .int n

/-- What a layer says about the log, as it is written. -/
def logEntries (s : LogSettings) : List (Entry LogSettings) :=
  entryOf "level" .str (fun o s => { s with level := o }) s.level ++
  entryOf "directory" (fun d => Json.orNull (d.map .str)) (fun o s => { s with directory := o })
    s.directory

/-- What a layer says, as it is written. -/
def entries (s : Settings) : List (Entry Settings) :=
  entryOf "host" .str (fun o s => { s with host := o }) s.host ++
  entryOf "port" numberJson (fun o s => { s with port := o }) s.port ++
  entryOf "session_timeout_secs" numberJson (fun o s => { s with sessionTimeoutSecs := o })
    s.sessionTimeoutSecs ++
  entryOf "cleanup_interval_secs" numberJson (fun o s => { s with cleanupIntervalSecs := o })
    s.cleanupIntervalSecs ++
  entryOf "snapshot_stale_after_secs" numberJson (fun o s => { s with snapshotStaleAfterSecs := o })
    s.snapshotStaleAfterSecs ++
  entryOf "command_timeout_secs" numberJson (fun o s => { s with commandTimeoutSecs := o })
    s.commandTimeoutSecs ++
  entryOf "keepalive_interval_secs" numberJson (fun o s => { s with keepaliveIntervalSecs := o })
    s.keepaliveIntervalSecs ++
  entryOf "sse_buffer" numberJson (fun o s => { s with sseBuffer := o }) s.sseBuffer ++
  entryOf "sse_write_timeout_secs" numberJson (fun o s => { s with sseWriteTimeoutSecs := o })
    s.sseWriteTimeoutSecs ++
  entryOf "max_body_bytes" numberJson (fun o s => { s with maxBodyBytes := o }) s.maxBodyBytes ++
  [⟨"logging", .obj ((logEntries s.logging).map Entry.member),
    fun t => { t with logging := s.logging }⟩]

/-- A file that says exactly what the layer says. -/
def written (s : Settings) : File :=
  .bytes (Text.encode (Json.obj (s.entries.map Entry.member)).compact)

/-- A layer whose numbers fit their settings. -/
structure Sized (s : Settings) : Prop where
  port : ∀ n ∈ s.port, n < 0x10000
  sessionTimeout : ∀ n ∈ s.sessionTimeoutSecs, n < 0x10000000000000000
  cleanupInterval : ∀ n ∈ s.cleanupIntervalSecs, n < 0x10000000000000000
  snapshotStaleAfter : ∀ n ∈ s.snapshotStaleAfterSecs, n < 0x10000000000000000
  commandTimeout : ∀ n ∈ s.commandTimeoutSecs, n < 0x10000000000000000
  keepaliveInterval : ∀ n ∈ s.keepaliveIntervalSecs, n < 0x10000000000000000
  sseBuffer : ∀ n ∈ s.sseBuffer, n < 0x10000000000000000
  sseWriteTimeout : ∀ n ∈ s.sseWriteTimeoutSecs, n < 0x10000000000000000
  maxBodyBytes : ∀ n ∈ s.maxBodyBytes, n < 0x10000000000000000

section Written

variable {α β : Type} {name : String} {value : β → Json} {put : Option β → α → α} {o : Option β}

theorem known_entryOf {fields : List (TextField α)}
    (h : ∀ b ∈ o, Known fields ⟨name, value b, put (some b)⟩) :
    ∀ e ∈ entryOf name value put o, Known fields e := by
  cases o with
  | none => exact List.forall_mem_nil _
  | some b => exact List.forall_mem_singleton.2 (h b rfl)

theorem names_entryOf : ((entryOf name value put o).map Entry.name).Sublist [name] := by
  cases o with
  | none => exact List.nil_sublist _
  | some b => exact List.Sublist.refl _

theorem foldl_entryOf {a : α} {entries : List (Entry α)} (h : put .none a = a) :
    (entryOf name value put o ++ entries).foldl (fun a e => e.change a) a =
      entries.foldl (fun a e => e.change a) (put o a) := by
  cases o with
  | none => exact congrArg (entries.foldl _) h.symm
  | some b => rfl

/-- A stored field reads what the field reads. -/
theorem settingField_reads {read : Text.Bytes → Except Json.Fault (Taken β)}
    {store : β → α → α} {j : Json} {b : β} (h : ReadsAs read j b) :
    ReadsAs (settingField name read store).read j (store b) := by
  intro rest hs
  simp only [settingField, h rest hs]
  rfl

theorem known_logEntries (s : LogSettings) : ∀ e ∈ logEntries s, Known logFields e := by
  refine List.forall_mem_append.2 ⟨known_entryOf fun v _ => ?_, known_entryOf fun v _ => ?_⟩
  · exact ⟨_, rfl, settingField_reads (Json.Scan.readsAs_string _ v)⟩
  · exact ⟨_, rfl, settingField_reads (Json.Scan.readsAs_optional _ v)⟩

theorem nodup_logEntries (s : LogSettings) : ((logEntries s).map Entry.name).Nodup := by
  have hnames : ["level", "directory"].Nodup := by decide
  refine hnames.sublist ?_
  rw [logEntries, List.map_append]
  exact names_entryOf.append names_entryOf

theorem foldl_logEntries (s : LogSettings) :
    (logEntries s).foldl (fun a e => e.change a) .none = s := by
  rw [logEntries, foldl_entryOf, ← List.append_nil (entryOf _ _ _ _), foldl_entryOf]
  all_goals rfl

theorem known_entries {s : Settings} (h : s.Sized) : ∀ e ∈ s.entries, Known fields e := by
  have word {n : Nat} (kind : String) (hn : n < 0x10000000000000000) :
      ReadsAs (Json.Scan.naturalField 64 kind) (numberJson n) n :=
    Json.Scan.readsAs_natural kind hn hn
  simp only [entries, List.forall_mem_append, List.forall_mem_singleton, and_assoc]
  refine ⟨known_entryOf fun v _ => ?_, known_entryOf fun v hv => ?_, known_entryOf fun v hv => ?_,
    known_entryOf fun v hv => ?_, known_entryOf fun v hv => ?_, known_entryOf fun v hv => ?_,
    known_entryOf fun v hv => ?_, known_entryOf fun v hv => ?_, known_entryOf fun v hv => ?_,
    known_entryOf fun v hv => ?_, ?_⟩
  · exact ⟨_, rfl, settingField_reads (Json.Scan.readsAs_string _ v)⟩
  · have hsmall : v < 0x10000 := h.port v hv
    have hword : v < 0x10000000000000000 := by omega
    exact ⟨_, rfl, settingField_reads (Json.Scan.readsAs_natural _ hsmall hword)⟩
  · exact ⟨_, rfl, settingField_reads (word _ (h.sessionTimeout v hv))⟩
  · exact ⟨_, rfl, settingField_reads (word _ (h.cleanupInterval v hv))⟩
  · exact ⟨_, rfl, settingField_reads (word _ (h.snapshotStaleAfter v hv))⟩
  · exact ⟨_, rfl, settingField_reads (word _ (h.commandTimeout v hv))⟩
  · exact ⟨_, rfl, settingField_reads (word _ (h.keepaliveInterval v hv))⟩
  · exact ⟨_, rfl, settingField_reads (word _ (h.sseBuffer v hv))⟩
  · exact ⟨_, rfl, settingField_reads (word _ (h.sseWriteTimeout v hv))⟩
  · exact ⟨_, rfl, settingField_reads (word _ (h.maxBodyBytes v hv))⟩
  · have hlog := Json.Scan.textRecord_written "struct LoggingConfig" .none
      (logEntries s.logging) (known_logEntries _) (nodup_logEntries _)
    rw [foldl_logEntries] at hlog
    exact ⟨_, rfl, settingField_reads hlog⟩

theorem nodup_entries (s : Settings) : (s.entries.map Entry.name).Nodup := by
  have hnames : (["host"] ++ ["port"] ++ ["session_timeout_secs"] ++ ["cleanup_interval_secs"] ++
      ["snapshot_stale_after_secs"] ++ ["command_timeout_secs"] ++ ["keepalive_interval_secs"] ++
      ["sse_buffer"] ++ ["sse_write_timeout_secs"] ++ ["max_body_bytes"] ++ ["logging"]).Nodup := by
    decide
  refine hnames.sublist ?_
  simp only [entries, List.map_append]
  iterate 10 refine .append ?_ ?_
  all_goals first
    | exact names_entryOf
    | exact List.Sublist.refl _

theorem foldl_entries (s : Settings) : s.entries.foldl (fun a e => e.change a) none = s := by
  simp only [entries, List.append_assoc]
  iterate 10 rw [foldl_entryOf]
  all_goals rfl

/-- A written layer is read back as it is. -/
theorem ofText_written {s : Settings} (h : s.Sized) :
    ofText (Text.encode (Json.obj (s.entries.map Entry.member)).compact) = .ok s := by
  have hread := Json.Scan.textRecord_written "struct BridgeConfig" none s.entries
    (known_entries h) (nodup_entries s) [] Json.Scan.stops_nil
  rw [List.append_nil, foldl_entries] at hread
  rw [ofText, Text.encode, Json.compact, String.toList_ofList]
  exact Json.Scan.bind_of_ok hread _

/-- A file that has been written says what the layer says. -/
theorem ofFile_written {s : Settings} (h : s.Sized) :
    Decodes (written s) ∧ ofFile (written s) = s := by
  have htext := ofText_written h
  have hconfig := congrArg (Except.map (atop · .default)) htext
  refine ⟨⟨?_, s.atop .default, (ofText_eq _).trans hconfig⟩, ?_⟩
  · rw [Text.decode?_encode]
    exact Option.isSome_some
  · rw [written, ofFile, htext]
    exact Option.getD_some

end Written

/-! ## The environment and the command line -/

/-- The variables that hold numbers, and of how many bits. -/
def numbers : List (String × Nat) :=
  [("EDITOR_BRIDGE_PORT", 16), ("EDITOR_BRIDGE_SNAPSHOT_STALE_SECS", 64),
    ("EDITOR_BRIDGE_COMMAND_TIMEOUT_SECS", 64), ("EDITOR_BRIDGE_SESSION_TIMEOUT_SECS", 64)]

/-- The number that a text with blanks around it stands for. -/
def number? (bits : Nat) (v : String) : Option Nat := Text.natural? (Nat.pow 2 bits) (Text.trim v)

/-- What the environment says. -/
def ofEnvironment (env : Environment) : Settings where
  host := env "EDITOR_BRIDGE_HOST"
  port := (env "EDITOR_BRIDGE_PORT").bind (number? 16)
  sessionTimeoutSecs := (env "EDITOR_BRIDGE_SESSION_TIMEOUT_SECS").bind (number? 64)
  cleanupIntervalSecs := .none
  snapshotStaleAfterSecs := (env "EDITOR_BRIDGE_SNAPSHOT_STALE_SECS").bind (number? 64)
  commandTimeoutSecs := (env "EDITOR_BRIDGE_COMMAND_TIMEOUT_SECS").bind (number? 64)
  keepaliveIntervalSecs := .none
  sseBuffer := .none
  sseWriteTimeoutSecs := .none
  maxBodyBytes := .none
  logging := ⟨env "EDITOR_BRIDGE_LOG_LEVEL", (env "EDITOR_BRIDGE_LOG_DIR").map some⟩

/-- What the command line says. -/
def ofArguments (args : Arguments) : Settings :=
  { none with
    host := args.host
    port := args.port
    logging := ⟨args.logLevel, args.logDir.map some⟩ }

/-- A variable that is not set, or holds a number. -/
def Readable (env : Environment) (number : String × Nat) : Prop :=
  ∀ v ∈ env number.1, (number? number.2 v).isSome

instance (env : Environment) (number : String × Nat) : Decidable (Readable env number) :=
  inferInstanceAs (Decidable (∀ v ∈ env number.1, (number? number.2 v).isSome))

section Environment

variable {env : Environment} {name : String} {rest : List Variable} {c c' : Config}

/-- A variable with a text is a layer with one setting. -/
theorem applyOverrides_text {store : String → Config → Config} (s : Option String → Settings)
    (hnone : ∀ c, (s .none).atop c = c) (hsome : ∀ v c, (s (some v)).atop c = store v c) :
    applyOverrides env (textVariable name store :: rest) c =
      applyOverrides env rest ((s (env name)).atop c) := by
  unfold textVariable
  rw [applyOverrides]
  cases env name with
  | none => rw [hnone]
  | some v => rw [hsome]

/-- A variable with a number is a layer with one setting, but it has to hold a number. -/
theorem applyOverrides_number {bits : Nat} {store : Nat → Config → Config}
    (s : Option Nat → Settings) (hnone : ∀ c, (s .none).atop c = c)
    (hsome : ∀ v c, (s (some v)).atop c = store v c) :
    applyOverrides env (numberVariable name bits store :: rest) c = (c', .ok ()) ↔
      Readable env (name, bits) ∧
        applyOverrides env rest ((s ((env name).bind (number? bits))).atop c) = (c', .ok ()) := by
  unfold numberVariable Readable
  rw [applyOverrides]
  cases env name with
  | none => simp [hnone]
  | some v =>
    dsimp only
    cases hn : number? bits v with
    | none =>
      rw [show Text.natural? (Nat.pow 2 bits) (Text.trim v) = .none from hn]
      simp [hn]
    | some n =>
      rw [show Text.natural? (Nat.pow 2 bits) (Text.trim v) = some n from hn]
      simp [hn, hsome]

/-- The environment is a layer if all its numbers are numbers. -/
theorem applyEnvironment_ok_iff : applyEnvironment env c = (c', .ok ()) ↔
    (∀ v ∈ numbers, Readable env v) ∧ c' = (ofEnvironment env).atop c := by
  unfold applyEnvironment overrides
  rw [applyOverrides_text fun o => { none with host := o },
    applyOverrides_number fun o => { none with port := o },
    applyOverrides_text fun o => { none with logging := ⟨o, .none⟩ },
    applyOverrides_text fun o => { none with logging := ⟨.none, o.map some⟩ },
    applyOverrides_number fun o => { none with snapshotStaleAfterSecs := o },
    applyOverrides_number fun o => { none with commandTimeoutSecs := o },
    applyOverrides_number fun o => { none with sessionTimeoutSecs := o }, applyOverrides]
  · simp only [numbers, List.forall_mem_cons]
    constructor
    · rintro ⟨hport, hstale, hcommand, hsession, he⟩
      exact ⟨⟨hport, hstale, hcommand, hsession, List.forall_mem_nil _⟩, (Prod.mk.inj he).1.symm⟩
    · rintro ⟨⟨hport, hstale, hcommand, hsession, -⟩, rfl⟩
      exact ⟨hport, hstale, hcommand, hsession, rfl⟩
  all_goals intros; rfl

theorem override_eq (args : Arguments) (c : Config) :
    args.override c = (ofArguments args).atop c := by
  have hdirectory (o : Option String) (d : Option String) : o.or d = (o.map some).getD d := by
    cases o <;> rfl
  simp [Arguments.override, ofArguments, atop, LogSettings.atop, none, hdirectory]

end Environment

end Settings

/-! ## The whole -/

/-- A configuration that can be run: it has a host and a port, and no count or span of zero. -/
structure Valid (c : Config) : Prop where
  host : Text.blank c.host = false
  port : c.port ≠ 0
  sessionTimeout : c.sessionTimeoutSecs ≠ 0
  cleanupInterval : c.cleanupIntervalSecs ≠ 0
  snapshotStaleAfter : c.snapshotStaleAfterSecs ≠ 0
  commandTimeout : c.commandTimeoutSecs ≠ 0
  keepaliveInterval : c.keepaliveIntervalSecs ≠ 0
  sseWriteTimeout : c.sseWriteTimeoutSecs ≠ 0
  sseBuffer : c.sseBuffer ≠ 0
  maxBodyBytes : c.maxBodyBytes ≠ 0

theorem validate_ok_iff {c : Config} : c.validate = .ok () ↔ Valid c := by
  have hspans : (c.spans.find? (·.2 = 0) = none) ↔ c.sessionTimeoutSecs ≠ 0 ∧
      c.cleanupIntervalSecs ≠ 0 ∧ c.snapshotStaleAfterSecs ≠ 0 ∧ c.commandTimeoutSecs ≠ 0 ∧
      c.keepaliveIntervalSecs ≠ 0 ∧ c.sseWriteTimeoutSecs ≠ 0 := by
    simp [spans]
  unfold validate
  cases hs : c.spans.find? (·.2 = 0) with
  | some span =>
    refine iff_of_false (by split_ifs <;> nofun) fun hv => ?_
    have hnone := hspans.2 ⟨hv.sessionTimeout, hv.cleanupInterval, hv.snapshotStaleAfter,
      hv.commandTimeout, hv.keepaliveInterval, hv.sseWriteTimeout⟩
    cases hs.symm.trans hnone
  | none =>
    obtain ⟨h₁, h₂, h₃, h₄, h₅, h₆⟩ := hspans.1 hs
    constructor
    · intro h
      split_ifs at h with hhost hport hbuffer hbody
      exact ⟨by simpa using hhost, hport, h₁, h₂, h₃, h₄, h₅, h₆, hbuffer, hbody⟩
    · intro hv
      rw [hv.host, if_neg (by decide), if_neg hv.port]
      exact (if_neg hv.sseBuffer).trans (if_neg hv.maxBodyBytes)

/-- What a run makes of its layers, if nothing stops it. -/
theorem resolve_ok {file : File} {env : Environment} {args : Arguments} {c : Config} :
    resolve file env args = .ok c ↔ ∃ c₀ c₁, load file = .ok c₀ ∧
      applyEnvironment env c₀ = (c₁, .ok ()) ∧ c = args.override c₁ ∧ c.validate = .ok () := by
  unfold resolve
  constructor
  · intro h
    cases hload : load file with
    | error e => rw [hload] at h; cases h
    | ok c₀ =>
      rw [hload] at h
      obtain ⟨⟨c₁, stopped⟩, henv⟩ : ∃ p, applyEnvironment env c₀ = p := ⟨_, rfl⟩
      simp only [bind, Except.bind, henv] at h
      cases stopped with
      | error e => cases h
      | ok =>
        cases hvalid : (args.override c₁).validate with
        | error e => rw [hvalid] at h; cases h
        | ok =>
          rw [hvalid] at h
          cases h
          exact ⟨c₀, c₁, rfl, henv, rfl, hvalid⟩
  · rintro ⟨c₀, c₁, hload, henv, rfl, hvalid⟩
    rw [hload]
    simp only [bind, Except.bind, henv, hvalid]
    rfl

/-- The configuration that the layers of a run add up to: on the defaults lies the file, on the file
the environment, and the command line on top. -/
structure AddsUp (file : File) (env : Environment) (args : Arguments) (c : Config) : Prop where
  decodes : Settings.Decodes file
  readable : ∀ number ∈ Settings.numbers, Settings.Readable env number
  layers : c = ((Settings.ofArguments args).or
    ((Settings.ofEnvironment env).or (Settings.ofFile file))).atop .default
  valid : Valid c

/-- A run has the configuration that its layers add up to, and none if they do not. What has been
written to a file is what the file says. -/
theorem resolve_layers (env : Environment) (args : Arguments) :
    (∀ file c, resolve file env args = .ok c ↔ AddsUp file env args c) ∧
    ∀ s : Settings, s.Sized → Settings.Decodes s.written ∧ Settings.ofFile s.written = s := by
  refine ⟨fun file c => ?_, fun s h => Settings.ofFile_written h⟩
  rw [resolve_ok]
  constructor
  · rintro ⟨_, _, hload, henv, rfl, hvalid⟩
    obtain ⟨hdecodes, rfl⟩ := Settings.load_ok_iff.1 hload
    obtain ⟨hreadable, rfl⟩ := Settings.applyEnvironment_ok_iff.1 henv
    refine ⟨hdecodes, hreadable, ?_, validate_ok_iff.1 hvalid⟩
    rw [Settings.override_eq, Settings.or_atop, Settings.or_atop]
  · rintro ⟨hdecodes, hreadable, rfl, hvalid⟩
    refine ⟨_, _, Settings.load_ok_iff.2 ⟨hdecodes, rfl⟩,
      Settings.applyEnvironment_ok_iff.2 ⟨hreadable, rfl⟩, ?_, validate_ok_iff.2 hvalid⟩
    rw [Settings.override_eq, Settings.or_atop, Settings.or_atop]

/-- A file with a port of zero and a level for the log. -/
def portless : Settings :=
  { Settings.none with port := some 0, logging := ⟨some "debug", none⟩ }

/-- An environment in which commands have five seconds, written with blanks and a sign. -/
def fiveSeconds : Environment := fun name =>
  if name = "EDITOR_BRIDGE_COMMAND_TIMEOUT_SECS" then some " +5 " else none

/-- The port of the file is bad, but well typed, and the command line replaces it. -/
theorem resolve_portless : portless.Sized ∧
    resolve portless.written fiveSeconds { Arguments.none with port := some 80 } = .ok
      { Config.default with port := 80, commandTimeoutSecs := 5, logging := ⟨"debug", none⟩ } := by
  have hsized : portless.Sized := by constructor <;> simp [portless, Settings.none]
  refine ⟨hsized, ?_⟩
  obtain ⟨hlayers, hfiles⟩ :=
    resolve_layers fiveSeconds { Arguments.none with port := some 80 }
  obtain ⟨hdecodes, hread⟩ := hfiles portless hsized
  refine (hlayers _ _).2 ⟨hdecodes, ?_, ?_, ?_⟩
  · decide
  · rw [hread]
    decide
  · constructor <;> decide

/-- A number that cannot be read is not forgiven, though the command line replaces it. -/
example : resolve .absent (fun name => if name = "EDITOR_BRIDGE_PORT" then some "x" else none)
    { Arguments.none with port := some 80 } =
      .error (.invalid "EDITOR_BRIDGE_PORT is not a valid number: x") := by rfl

end EditorBridge.Config
