import SerialPlatform.ControlState
import SerialPlatform.ExceptBind
import SerialPlatform.TextFields

/-!
# The daemon configuration

The values which the daemon persists and the checks which every configuration
passes before it takes effect.
-/

namespace SerialPlatform

def configSchemaVersion : ℕ := 3

/-- Bound for one active configuration and for the port identities of one epoch. -/
def maxPortIdentitiesPerDaemon : ℕ := 128

def maxModelProfiles : ℕ := 128
def maxTransportProfiles : ℕ := 128
def maxModelFamilies : ℕ := 128
def maxModelNamesPerFamily : ℕ := 128
def maxPortNameBytes : ℕ := 512
def maxProfileNameBytes : ℕ := 64
def maxModelNameBytes : ℕ := 128
def maxPromptBytes : ℕ := 4 * 1024

structure LoggingConfig where
  maxTotalBytes : ℕ
  retentionTargetPercent : ℕ
  segmentMaxBytes : ℕ
  deriving DecidableEq

structure ControlConfig where
  maxTtlMs : ℕ
  waitTimeoutMs : ℕ
  maxWaiters : ℕ
  deriving DecidableEq

/-- A family of devices and the concrete models in it. -/
structure ModelFamily where
  name : String
  modelNames : List String
  deriving DecidableEq

structure SocketAddr where
  ip : String
  port : ℕ
  deriving DecidableEq

structure DaemonConfig where
  schemaVersion : ℕ
  configRevision : ℕ
  serverId : Uuid
  bind : SocketAddr
  logging : LoggingConfig
  control : ControlConfig
  ports : List SlotConfig
  transportProfiles : List TransportProfile
  modelProfiles : List ModelProfile
  modelFamilies : List ModelFamily
  deriving DecidableEq

inductive ConfigValidationError where
  | unsupportedSchemaVersion (version : ℕ)
  | nilServerId
  | invalidBindPort
  | revisionExhausted
  | invalidLogCapacity
  | invalidRetentionTarget
  | invalidSegmentSize
  | controlMaxTtlTooLarge (actual limit : ℕ)
  | controlWaitTimeoutTooLarge (actual limit : ℕ)
  | invalidPort (index : ℕ) (field reason : String)
  | duplicatePort (first second : ℕ)
  | tooManyPorts (actual limit : ℕ)
  | invalidModelProfile (index : ℕ) (field reason : String)
  | duplicateModelProfileName (first second : ℕ)
  | tooManyModelProfiles (actual limit : ℕ)
  | invalidModelFamily (index : ℕ) (field reason : String)
  | duplicateModelFamilyName (first second : ℕ)
  | tooManyModelFamilies (actual limit : ℕ)
  | invalidTransportProfile (index : ℕ) (field reason : String)
  | duplicateTransportProfileName (first second : ℕ)
  | tooManyTransportProfiles (actual limit : ℕ)
  | unknownTransportProfile (port name available : String)
  | unknownModelProfile (port name available : String)
  | incompleteModelIdentity (port : String)
  | unknownModelFamily (port name available : String)
  | unknownModelName (port family name available : String)
  deriving DecidableEq

/-! ## Catalogs -/

def validateLogging (logging : LoggingConfig) : Except ConfigValidationError Unit :=
  if logging.maxTotalBytes = 0 then .error .invalidLogCapacity
  else if ¬(1 ≤ logging.retentionTargetPercent ∧ logging.retentionTargetPercent ≤ 99) then
    .error .invalidRetentionTarget
  else if logging.segmentMaxBytes = 0 ∨ logging.maxTotalBytes < logging.segmentMaxBytes then
    .error .invalidSegmentSize
  else .ok ()

def validateControl (control : ControlConfig) : Except ConfigValidationError Unit :=
  let waitLimitMs := maxControlWaitTimeout / 1000000
  if maxControlTtlMs < control.maxTtlMs then
    .error (.controlMaxTtlTooLarge control.maxTtlMs maxControlTtlMs)
  else if waitLimitMs < control.waitTimeoutMs then
    .error (.controlWaitTimeoutTooLarge control.waitTimeoutMs waitLimitMs)
  else .ok ()

/-- The loop over a catalog: `check` each item at its index, where `seen` gives
the indexes of the names before it. -/
def validateEach {α : Type} (name : α → String)
    (check : ℕ → Option ℕ → α → Except ConfigValidationError Unit) :
    ℕ → List (String × ℕ) → List α → Except ConfigValidationError Unit
  | _, _, [] => .ok ()
  | index, seen, item :: rest => do
      check index (seen.lookup (name item)) item
      validateEach name check (index + 1) ((name item, index) :: seen) rest

def validateTransportProfile (index : ℕ) (first : Option ℕ) (profile : TransportProfile) :
    Except ConfigValidationError Unit :=
  if isBadText maxProfileNameBytes profile.name then
    .error (.invalidTransportProfile index "name"
      "must be a non-empty, trimmed name of at most 64 bytes")
  else
    match first with
    | some first => .error (.duplicateTransportProfileName first index)
    | none =>
        if ¬(50 ≤ profile.baudRate ∧ profile.baudRate ≤ 12000000) then
          .error (.invalidTransportProfile index "baud_rate" "must be between 50 and 12000000")
        else if profile.flowControl = .hardware ∧ profile.rts then
          .error (.invalidTransportProfile index "rts"
            "must be false when hardware flow control owns RTS")
        else .ok ()

def validateTransportProfiles (profiles : List TransportProfile) :
    Except ConfigValidationError Unit :=
  if maxTransportProfiles < profiles.length then
    .error (.tooManyTransportProfiles profiles.length maxTransportProfiles)
  else validateEach TransportProfile.name validateTransportProfile 0 [] profiles

def badPrompt (pattern : Option String) : Bool :=
  pattern.any fun pattern =>
    pattern.isEmpty || maxPromptBytes < pattern.utf8ByteSize || pattern.toList.contains '\x00'

def validateModelProfile (index : ℕ) (first : Option ℕ) (profile : ModelProfile) :
    Except ConfigValidationError Unit :=
  if isBadText maxProfileNameBytes profile.name then
    .error (.invalidModelProfile index "name"
      "must be a non-empty, trimmed name of at most 64 bytes")
  else
    match first with
    | some first => .error (.duplicateModelProfileName first index)
    | none =>
        if badPrompt profile.shellPrompt then
          .error (.invalidModelProfile index "shell_prompt"
            "must be non-empty, at most 4096 bytes, and contain no NUL")
        else if badPrompt profile.ubootPrompt then
          .error (.invalidModelProfile index "uboot_prompt"
            "must be non-empty, at most 4096 bytes, and contain no NUL")
        else if profile.writeEol.any fun eol => decide (eol ∉ ["", "\r", "\n", "\r\n"]) then
          .error (.invalidModelProfile index "write_eol" "must be empty, CR, LF, or CRLF")
        else if profile.writeChunkSize = some 0 then
          .error (.invalidModelProfile index "write_chunk_size"
            "must be greater than zero when configured")
        else if profile.writeChunkDelayMs.any fun delay => 10000 < delay then
          .error (.invalidModelProfile index "write_chunk_delay_ms" "must not exceed 10000 ms")
        else .ok ()

def validateModelProfiles (profiles : List ModelProfile) : Except ConfigValidationError Unit :=
  if maxModelProfiles < profiles.length then
    .error (.tooManyModelProfiles profiles.length maxModelProfiles)
  else validateEach ModelProfile.name validateModelProfile 0 [] profiles

def validateModelFamily (index : ℕ) (first : Option ℕ) (family : ModelFamily) :
    Except ConfigValidationError Unit :=
  if isBadText maxModelNameBytes family.name then
    .error (.invalidModelFamily index "name"
      "must be a non-empty, trimmed name of at most 128 bytes")
  else
    match first with
    | some first => .error (.duplicateModelFamilyName first index)
    | none =>
        if maxModelNamesPerFamily < family.modelNames.length then
          .error (.invalidModelFamily index "model_names"
            "must contain at most 128 concrete model names")
        else if family.modelNames.any (isBadText maxModelNameBytes) ∨ ¬family.modelNames.Nodup then
          .error (.invalidModelFamily index "model_names"
            "each model name must be non-empty, trimmed, unique, and at most 128 bytes")
        else .ok ()

def validateModelFamilies (families : List ModelFamily) : Except ConfigValidationError Unit :=
  if maxModelFamilies < families.length then
    .error (.tooManyModelFamilies families.length maxModelFamilies)
  else validateEach ModelFamily.name validateModelFamily 0 [] families

/-! ## Ports -/

def validateProfile (index : ℕ) (profile : String) : Except ConfigValidationError Unit :=
  if isBadText maxProfileNameBytes profile then
    .error (.invalidPort index "profile" "must be a non-empty, trimmed name of at most 64 bytes")
  else .ok ()

def validateTextField (index : ℕ) (field value : String) (maxBytes : ℕ) :
    Except ConfigValidationError Unit :=
  if isBadText maxBytes value then
    .error (.invalidPort index field
      "must be non-empty, trimmed, bounded text without control characters")
  else .ok ()

/-- Two names of one serial port have the same key; Windows ignores their case. -/
def portIdentityKey (windows : Bool) (port : String) : String :=
  if windows then String.ofList (port.toList.map Char.toLower) else port

def catalogSummary (names : List String) : String :=
  if (", ".intercalate names).isEmpty then "(none configured)" else ", ".intercalate names

def validateTransportReference (index : ℕ) (transportProfiles : List TransportProfile)
    (slot : SlotConfig) : Except ConfigValidationError Unit :=
  match slot.transportProfile with
  | none => .ok ()
  | some name => do
      validateProfile index name
      if transportProfiles.any fun profile => profile.name = name then .ok ()
      else
        .error (.unknownTransportProfile slot.port name
          (catalogSummary (transportProfiles.map TransportProfile.name)))

def validateModelReference (modelProfiles : List ModelProfile) (slot : SlotConfig) :
    Except ConfigValidationError Unit :=
  match slot.modelProfile with
  | none => .ok ()
  | some name =>
      if modelProfiles.any fun profile => profile.name = name then .ok ()
      else
        .error (.unknownModelProfile slot.port name
          (catalogSummary (modelProfiles.map ModelProfile.name)))

def validateModelIdentity (index : ℕ) (modelFamilies : List ModelFamily) (slot : SlotConfig) :
    Except ConfigValidationError Unit :=
  match slot.modelFamily, slot.modelName with
  | none, none => .ok ()
  | some _, none => .error (.incompleteModelIdentity slot.port)
  | none, some _ => .error (.incompleteModelIdentity slot.port)
  | some modelFamily, some modelName => do
      validateTextField index "model_family" modelFamily maxModelNameBytes
      validateTextField index "model_name" modelName maxModelNameBytes
      match modelFamilies.find? fun family => family.name = modelFamily with
      | none =>
          .error (.unknownModelFamily slot.port modelFamily
            (catalogSummary (modelFamilies.map ModelFamily.name)))
      | some family =>
          if modelName ∈ family.modelNames then .ok ()
          else
            .error (.unknownModelName slot.port family.name modelName
              (catalogSummary family.modelNames))

def validatePort (transportProfiles : List TransportProfile) (modelProfiles : List ModelProfile)
    (modelFamilies : List ModelFamily) (index : ℕ) (first : Option ℕ) (slot : SlotConfig) :
    Except ConfigValidationError Unit := do
  validateTextField index "port" slot.port maxPortNameBytes
  validateTransportReference index transportProfiles slot
  validateModelReference modelProfiles slot
  validateModelIdentity index modelFamilies slot
  match first with
  | some first => .error (.duplicatePort first index)
  | none => .ok ()

def validatePorts (windows : Bool) (ports : List SlotConfig)
    (transportProfiles : List TransportProfile) (modelProfiles : List ModelProfile)
    (modelFamilies : List ModelFamily) : Except ConfigValidationError Unit :=
  if maxPortIdentitiesPerDaemon < ports.length then
    .error (.tooManyPorts ports.length maxPortIdentitiesPerDaemon)
  else
    validateEach (fun slot => portIdentityKey windows slot.port)
      (validatePort transportProfiles modelProfiles modelFamilies) 0 [] ports

/-! ## The whole configuration -/

namespace DaemonConfig

def validate (windows : Bool) (config : DaemonConfig) : Except ConfigValidationError Unit :=
  if config.schemaVersion ≠ configSchemaVersion then
    .error (.unsupportedSchemaVersion config.schemaVersion)
  else if config.serverId = 0 then .error .nilServerId
  else if config.bind.port = 0 then .error .invalidBindPort
  else do
    validateLogging config.logging
    validateControl config.control
    validateTransportProfiles config.transportProfiles
    validateModelProfiles config.modelProfiles
    validateModelFamilies config.modelFamilies
    validatePorts windows config.ports config.transportProfiles config.modelProfiles
      config.modelFamilies

end DaemonConfig

/-! ## What an accepted configuration satisfies -/

theorem validateEach_ok {α : Type} {name : α → String}
    {check : ℕ → Option ℕ → α → Except ConfigValidationError Unit}
    (hduplicate : ∀ index first item, check index (some first) item ≠ .ok ())
    {index : ℕ} {seen : List (String × ℕ)} {items : List α}
    (hok : validateEach name check index seen items = .ok ()) :
    (items.map name).Nodup ∧ (∀ item ∈ items, seen.lookup (name item) = none) ∧
      ∀ item ∈ items, ∃ index, check index none item = .ok () := by
  induction items generalizing index seen with
  | nil => exact ⟨List.nodup_nil, nofun, nofun⟩
  | cons item rest ih =>
      rw [validateEach] at hok
      cases hcheck : check index (seen.lookup (name item)) item with
      | error error =>
          rw [hcheck] at hok
          cases hok
      | ok value =>
          rw [hcheck] at hok
          obtain ⟨hnodup, hunseen, hchecked⟩ := ih hok
          have hfirst : seen.lookup (name item) = none := by
            cases hlookup : seen.lookup (name item) with
            | none => rfl
            | some first =>
                rw [hlookup] at hcheck
                exact absurd hcheck (hduplicate index first item)
          have hnew : ∀ other ∈ rest, name other ≠ name item := by
            intro other hother hname
            have hlookup := hunseen other hother
            rw [hname, List.lookup_cons_self] at hlookup
            cases hlookup
          refine ⟨?_, ?_, ?_⟩
          · rw [List.map_cons, List.nodup_cons]
            refine ⟨fun hmem => ?_, hnodup⟩
            obtain ⟨other, hother, hname⟩ := List.mem_map.mp hmem
            exact hnew other hother hname
          · intro other hother
            rcases List.mem_cons.mp hother with rfl | hrest
            · exact hfirst
            · have hlookup := hunseen other hrest
              rwa [List.lookup_cons, beq_eq_false_iff_ne.mpr (hnew other hrest)] at hlookup
          · intro other hother
            rcases List.mem_cons.mp hother with rfl | hrest
            · exact ⟨index, hfirst ▸ hcheck⟩
            · exact hchecked other hrest

theorem validateTextField_ok {index maxBytes : ℕ} {field value : String}
    (hok : validateTextField index field value maxBytes = .ok ()) :
    isBadText maxBytes value = false := by
  unfold validateTextField at hok
  split_ifs at hok with hbad
  exact Bool.eq_false_iff.mpr hbad

/-- Accepted ports have distinct keys and well-formed names. -/
theorem validatePorts_ok {windows : Bool} {ports : List SlotConfig}
    {transportProfiles : List TransportProfile} {modelProfiles : List ModelProfile}
    {modelFamilies : List ModelFamily}
    (hok : validatePorts windows ports transportProfiles modelProfiles modelFamilies = .ok ()) :
    (ports.map fun slot => portIdentityKey windows slot.port).Nodup ∧
      ∀ slot ∈ ports, isBadText maxPortNameBytes slot.port = false := by
  unfold validatePorts at hok
  split_ifs at hok
  have hduplicate : ∀ index first (slot : SlotConfig),
      validatePort transportProfiles modelProfiles modelFamilies index (some first) slot ≠
        .ok () := by
    intro index first slot h
    obtain ⟨_, -, h⟩ := Except.exists_of_bind_ok h
    obtain ⟨_, -, h⟩ := Except.exists_of_bind_ok h
    obtain ⟨_, -, h⟩ := Except.exists_of_bind_ok h
    obtain ⟨_, -, h⟩ := Except.exists_of_bind_ok h
    cases h
  obtain ⟨hnodup, -, hchecked⟩ := validateEach_ok hduplicate hok
  refine ⟨hnodup, fun slot hslot => ?_⟩
  obtain ⟨index, hport⟩ := hchecked slot hslot
  obtain ⟨_, htext, -⟩ := Except.exists_of_bind_ok hport
  exact validateTextField_ok htext

theorem DaemonConfig.validate_ports {windows : Bool} {config : DaemonConfig}
    (hok : config.validate windows = .ok ()) :
    validatePorts windows config.ports config.transportProfiles config.modelProfiles
      config.modelFamilies = .ok () := by
  unfold DaemonConfig.validate at hok
  split_ifs at hok
  obtain ⟨_, -, hok⟩ := Except.exists_of_bind_ok hok
  obtain ⟨_, -, hok⟩ := Except.exists_of_bind_ok hok
  obtain ⟨_, -, hok⟩ := Except.exists_of_bind_ok hok
  obtain ⟨_, -, hok⟩ := Except.exists_of_bind_ok hok
  obtain ⟨_, -, hok⟩ := Except.exists_of_bind_ok hok
  exact hok

end SerialPlatform
