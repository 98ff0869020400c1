import ZigbeeRemote.Foundation.Script
import ZigbeeRemote.Sim.Zigbee
import ZigbeeRemote.System.Dialogue

/-!
# The demonstration client

`main` of `zb_rpc/src/client.cpp`, as a script: the calls of namespace `api`, each of which may fail,
and the lines of its log. `rehearse` runs a script on the functions of a server without a connection
between them, every call being answered. `rehearse_clientMain` says what the client logs when it is
rehearsed on the simulated coordinator, from any state of it.
-/

set_option autoImplicit false
set_option relaxedAutoImplicit false

namespace ZigbeeRemote.Sim

open Foundation Rpc Server WireType
open ZigbeeRemote.System (CatalogueCall)

/-! ### The program -/

/-- An argument of `ZB_RPC_LOG`. A temperature is given in hundredths, as it is before
`to_celsius`. -/
inductive LogArgument : Type
  | byte (value : UInt8)
  | word (value : UInt16)
  | text (value : FixedBytes 16)
  | celsius (hundredths : Int16)
  deriving DecidableEq

/-- A line of the log: the format and its arguments. -/
structure LogLine where
  format : String
  arguments : List LogArgument
  deriving DecidableEq

/-- What a function of namespace `api` comes back with; `none` is the result false. -/
abbrev Answer (call : CatalogueCall) : Type := Option (desc call.api).Resp

/-- A program that makes calls of the catalogue and writes a log. -/
abbrev ClientScript (α : Type) := Script CatalogueCall Answer LogLine α

/-- A function of namespace `api`. -/
def ask (api : Api) (request : (desc api).Req) : ClientScript (Option (desc api).Resp) :=
  .ask (⟨api, request⟩ : CatalogueCall)

/-- `ZB_RPC_LOG`. -/
def log (format : String) (arguments : List LogArgument) : ClientScript Unit :=
  .tell ⟨format, arguments⟩

/-- The loop of `main` over the reported temperatures. -/
def reportTemps : ℕ → ClientScript Unit
  | 0 => return ()
  | rounds + 1 => do
    match ← ask .getLastTemp ⟨⟩ with
    | none => return ()
    | some t =>
      log ("ZCL Report Attribute message for endpoint(1) cluster(0x0402) client with " ++
        "status(0x00)") []
      log "Temperature sensor measured value: %.2f degrees Celsius" [.celsius (fromLe16S t.value)]
      reportTemps rounds

/-- The end of `main`, after the loop. -/
def readAttributes (sensor : ZbAddr) : ClientScript ℕ := do
  match ← ask .readTemp sensor with
  | none => return 1
  | some attrs =>
    log "Read Attributes of Temperature Measurement" []
    log ("ZCL Read Attribute Response message for endpoint(1) cluster(0x0402) client with " ++
      "status(0x00)") []
    log "Measured value: %.2f degrees Celsius" [.celsius (fromLe16S attrs.measured)]
    log "Min measured value: %.2f degrees Celsius" [.celsius (fromLe16S attrs.minMeasured)]
    log "Max measured value: %.2f degrees Celsius" [.celsius (fromLe16S attrs.maxMeasured)]
    return 0

/-- `main` once the sensor has been found. The results of `bind_sensor`, `subscribe_sensor` and
`config_report` are ignored. -/
def useSensor (shortAddr panid : UInt16) (duration : UInt8) (sensor : ZbAddr) : ClientScript ℕ := do
  let peer := [LogArgument.word (fromLe16 sensor.shortAddr), .byte sensor.ep]
  log "Attempt to read manuf_code and model_id from device (0x%04x, 0x%02x)" peer
  match ← ask .readBasic sensor with
  | none => return 1
  | some basic =>
    log ("ZCL Read Attribute Response message for endpoint(1) cluster(0x0000) client with " ++
      "status(0x00)") []
    log "Model identifier: %s" [.text basic.model]
    log "Manufacturer name: %s" [.text basic.manufacturer]
    log "Attempt to bind temperature sensor device (0x%04x, 0x%02x) to local" peer
    let _ ← ask .bindSensor sensor
    log "Attempt to subscribe temperature sensor device (0x%04x, 0x%02x) from local" peer
    let _ ← ask .subscribeSensor sensor
    log "Bound HA temperature sensor device (0x%04x, 0x%02x) to local successfully"
      [.word shortAddr, .byte sensor.ep]
    log "Attempt to configure reporting for HA temperature sensor" []
    let _ ← ask .configReport sensor
    log "Network(0x%04x) is open for %u seconds" [.word panid, .byte duration]
    log "Subscribed HA temperature sensor device (0x%04x, 0x%02x) from local successfully" peer
    log ("ZCL Report Config Response message for endpoint(1) cluster(0x0402) client with " ++
      "status(0x00)") []
    reportTemps 5
    readAttributes sensor

/-- `main` once the network is known. -/
def findSensorDevice (shortAddr panid : UInt16) : ClientScript ℕ := do
  let openReq : OpenNetworkReq := ⟨180⟩
  match ← ask .openNetwork openReq with
  | none =>
    log "Failed to open network" []
    return 1
  | some openResp =>
    if fromLe32S openResp.value ≠ 0 then
      log "Failed to open network" []
      return 1
    else
      log "Network(0x%04x) is open for %u seconds" [.word panid, .byte openReq.duration]
      match ← ask .waitAnnce ⟨⟩ with
      | none => return 1
      | some peerResp =>
        let peer := fromLe16 peerResp.value
        log "New device commissioned or rejoined (short: 0x%04x)" [.word peer]
        log "Attempt to find HA temperature sensor device on address(0x%04x)" [.word peer]
        match ← ask .findSensor ⟨toLe16 peer⟩ with
        | none =>
          log "Failed to find HA temperature sensor" []
          return 1
        | some sensor =>
          if fromLe32S sensor.err ≠ 0 then
            log "Failed to find HA temperature sensor" []
            return 1
          else
            useSensor shortAddr panid openReq.duration sensor

/-- `main`, with its exit code. The connection is made after the first line. -/
def clientMain : ClientScript ℕ := do
  log "Start ESP Zigbee Stack" []
  log "Initialize Zigbee stack" []
  log "Deferred driver initialization successful" []
  log "Device started up in non factory-reset mode" []
  log "Device reboot" []
  match ← ask .getShortAddr ⟨⟩ with
  | none => return 1
  | some shortAddrResp =>
    match ← ask .getPanid ⟨⟩ with
    | none => return 1
    | some panidResp =>
      match ← ask .getChannel ⟨⟩ with
      | none => return 1
      | some _ => findSensorDevice (fromLe16 shortAddrResp.value) (fromLe16 panidResp.value)

/-! ### Rehearsals -/

section Rehearsal

variable {σ α β : Type}

/-- A run of a script without a connection: its value and log, the calls it has made, and the state of
the functions afterwards. -/
structure Rehearsal (σ α : Type) where
  value : α
  log : List LogLine
  calls : List CatalogueCall
  state : σ

/-- Run a script on the functions of a server. -/
def rehearse (functions : Functions σ) : ClientScript α → σ → Rehearsal σ α
  | .done value, state => ⟨value, [], [], state⟩
  | .call call next, state =>
    let answer := (functions call.api call.request).run state
    let later := rehearse functions (next (some answer.1)) answer.2
    { later with calls := call :: later.calls }
  | .note line next, state =>
    let later := rehearse functions next state
    { later with log := line :: later.log }

variable {functions : Functions σ} {state after finish : σ} {value : β} {lines : List LogLine}
  {calls : List CatalogueCall}

/-- A call is answered by its function. -/
theorem rehearse_ask {api : Api} {request : (desc api).Req} {response : (desc api).Resp}
    {next : Option (desc api).Resp → ClientScript β}
    (hanswer : (functions api request).run state = (response, after))
    (hnext : rehearse functions (next (some response)) after = ⟨value, lines, calls, finish⟩) :
    rehearse functions (ask api request >>= next) state =
      ⟨value, lines, ⟨api, request⟩ :: calls, finish⟩ := by
  have hcall : rehearse functions (ask api request >>= next) state =
      let answer := (functions api request).run state
      let later := rehearse functions (next (some answer.1)) answer.2
      { later with calls := ⟨api, request⟩ :: later.calls } := rfl
  rw [hcall, hanswer]
  simp only [hnext]

theorem rehearse_log {format : String} {arguments : List LogArgument} {next : Unit → ClientScript β}
    (hnext : rehearse functions (next ()) state = ⟨value, lines, calls, finish⟩) :
    rehearse functions (log format arguments >>= next) state =
      ⟨value, ⟨format, arguments⟩ :: lines, calls, finish⟩ := by
  have hnote : rehearse functions (log format arguments >>= next) state =
      let later := rehearse functions (next ()) state
      { later with log := ⟨format, arguments⟩ :: later.log } := rfl
  rw [hnote]
  simp only [hnext]

/-- A rehearsal goes on where the first part of a script ends. -/
theorem rehearse_bind {script : ClientScript α} {next : α → ClientScript β} {middle : α}
    {earlier : List LogLine} {made : List CatalogueCall}
    (hfirst : rehearse functions script state = ⟨middle, earlier, made, after⟩)
    (hnext : rehearse functions (next middle) after = ⟨value, lines, calls, finish⟩) :
    rehearse functions (script >>= next) state =
      ⟨value, earlier ++ lines, made ++ calls, finish⟩ := by
  induction script generalizing state earlier made with
  | done start =>
    cases hfirst
    exact hnext
  | call call rest ih =>
    cases hfirst
    have hlater := ih _ rfl
    have hcall : rehearse functions (Script.call call rest >>= next) state =
        let answer := (functions call.api call.request).run state
        let later := rehearse functions (rest (some answer.1) >>= next) answer.2
        { later with calls := call :: later.calls } := rfl
    rw [hcall]
    simp only [hlater, List.cons_append]
  | note line rest ih =>
    cases hfirst
    have hlater := ih rfl
    have hnote : rehearse functions (Script.note line rest >>= next) state =
        let later := rehearse functions (rest >>= next) state
        { later with log := line :: later.log } := rfl
    rw [hnote]
    simp only [hlater, List.cons_append]

end Rehearsal

/-! ### The client and the simulated coordinator -/

/-- The lines of the loop for the temperatures it is given. -/
def reportLog (temps : List Int16) : List LogLine :=
  temps.flatMap fun temp ↦
    [⟨"ZCL Report Attribute message for endpoint(1) cluster(0x0402) client with " ++
        "status(0x00)", []⟩,
      ⟨"Temperature sensor measured value: %.2f degrees Celsius", [.celsius temp]⟩]

/-- The temperatures of the first calls of `bump_temp`. -/
def bumps : ℕ → Int16 → List Int16
  | 0, _ => []
  | count + 1, temp => bumped temp :: bumps count (bumped temp)

/-- The loop reports what `bump_temp` makes of the temperature, one step a round. -/
theorem rehearse_reportTemps (rounds : ℕ) (state : SimState) :
    rehearse simFunctions (reportTemps rounds) state =
      ⟨(), reportLog (bumps rounds state.gTemp), List.replicate rounds ⟨.getLastTemp, ⟨⟩⟩,
        { state with gTemp := bumped^[rounds] state.gTemp }⟩ := by
  induction rounds generalizing state with
  | zero => rfl
  | succ rounds ih =>
    have hanswer : (simFunctions .getLastTemp ⟨⟩).run state =
        (⟨toLe16S (bumped state.gTemp)⟩, { state with gTemp := bumped state.gTemp }) := rfl
    refine rehearse_ask hanswer (rehearse_log ?_)
    rw [fromLe16S_toLe16S]
    exact rehearse_log (ih { state with gTemp := bumped state.gTemp })

/-- The sensor of the simulated coordinator. -/
def SimState.sensor (state : SimState) : ZbAddr :=
  ⟨toLe32S 0, toLe16 state.gSensorShort, state.gSensorEp⟩

@[simp] theorem SimState.sensor_shortAddr (state : SimState) :
    fromLe16 state.sensor.shortAddr = state.gSensorShort := fromLe16_toLe16 _

/-- `find_sensor` finds the sensor once it has joined. -/
theorem run_findSensor {state : SimState} (hjoined : state.gJoined = true) :
    (simFunctions .findSensor ⟨toLe16 state.gSensorShort⟩).run state = (state.sensor, state) := by
  show (if !state.gJoined || fromLe16 (toLe16 state.gSensorShort) ≠ state.gSensorShort then _ else _ :
    StateM SimState ZbAddr).run state = _
  rw [if_neg (by simp [hjoined])]
  rfl

theorem run_readBasic (state : SimState) :
    (simFunctions .readBasic state.sensor).run state =
      (⟨toLe32S 0, strncpyField 16 "ESPRESSIF", strncpyField 16 "esp32h2"⟩, state) := by
  show (if fromLe16 state.sensor.shortAddr ≠ state.gSensorShort then _ else _ :
    StateM SimState ZbBasic).run state = _
  rw [if_neg (by simp)]
  rfl

theorem run_checkSensor (state : SimState) :
    (checkSensor state.sensor).run state = (⟨toLe32S 0⟩, state) := by
  show ((⟨toLe32S (if fromLe16 state.sensor.shortAddr = state.gSensorShort then 0 else -1)⟩ :
    I32Resp), state) = _
  rw [if_pos (by simp)]

theorem run_readTemp (state : SimState) (temp : Int16) :
    (simFunctions .readTemp state.sensor).run { state with gTemp := temp } =
      (⟨toLe32S 0, toLe16S (bumped temp), toLe16S (-1000), toLe16S 8000, toLe16S 0⟩,
        { state with gTemp := bumped temp }) := by
  show (if fromLe16 state.sensor.shortAddr ≠ state.gSensorShort then _ else _ :
    StateM SimState ZbTemp).run { state with gTemp := temp } = _
  rw [if_neg (by simp)]
  rfl

/-- The log of the client after the loop. -/
def attributesLog (temp : Int16) : List LogLine :=
  [⟨"Read Attributes of Temperature Measurement", []⟩,
    ⟨"ZCL Read Attribute Response message for endpoint(1) cluster(0x0402) client with " ++
      "status(0x00)", []⟩,
    ⟨"Measured value: %.2f degrees Celsius", [.celsius temp]⟩,
    ⟨"Min measured value: %.2f degrees Celsius", [.celsius (-1000)]⟩,
    ⟨"Max measured value: %.2f degrees Celsius", [.celsius 8000]⟩]

/-- The log of the client from the point on where it has found the sensor. -/
def sensorLog (state : SimState) : List LogLine :=
  let peer := [LogArgument.word state.gSensorShort, .byte state.gSensorEp]
  ⟨"Attempt to read manuf_code and model_id from device (0x%04x, 0x%02x)", peer⟩ ::
    ⟨"ZCL Read Attribute Response message for endpoint(1) cluster(0x0000) client with " ++
      "status(0x00)", []⟩ ::
    ⟨"Model identifier: %s", [.text (strncpyField 16 "esp32h2")]⟩ ::
    ⟨"Manufacturer name: %s", [.text (strncpyField 16 "ESPRESSIF")]⟩ ::
    ⟨"Attempt to bind temperature sensor device (0x%04x, 0x%02x) to local", peer⟩ ::
    ⟨"Attempt to subscribe temperature sensor device (0x%04x, 0x%02x) from local", peer⟩ ::
    ⟨"Bound HA temperature sensor device (0x%04x, 0x%02x) to local successfully",
      [.word state.gShortAddr, .byte state.gSensorEp]⟩ ::
    ⟨"Attempt to configure reporting for HA temperature sensor", []⟩ ::
    ⟨"Network(0x%04x) is open for %u seconds", [.word state.gPanid, .byte 180]⟩ ::
    ⟨"Subscribed HA temperature sensor device (0x%04x, 0x%02x) from local successfully", peer⟩ ::
    ⟨"ZCL Report Config Response message for endpoint(1) cluster(0x0402) client with " ++
      "status(0x00)", []⟩ ::
    (reportLog (bumps 5 state.gTemp) ++ attributesLog (bumped (bumped^[5] state.gTemp)))

/-- The log of the client. -/
def demoLog (state : SimState) : List LogLine :=
  ⟨"Start ESP Zigbee Stack", []⟩ ::
    ⟨"Initialize Zigbee stack", []⟩ ::
    ⟨"Deferred driver initialization successful", []⟩ ::
    ⟨"Device started up in non factory-reset mode", []⟩ ::
    ⟨"Device reboot", []⟩ ::
    ⟨"Network(0x%04x) is open for %u seconds", [.word state.gPanid, .byte 180]⟩ ::
    ⟨"New device commissioned or rejoined (short: 0x%04x)", [.word state.gSensorShort]⟩ ::
    ⟨"Attempt to find HA temperature sensor device on address(0x%04x)",
      [.word state.gSensorShort]⟩ ::
    sensorLog state

/-- The calls of the client from the point on where it has found the sensor. -/
def sensorCalls (state : SimState) : List CatalogueCall :=
  ⟨.readBasic, state.sensor⟩ :: ⟨.bindSensor, state.sensor⟩ :: ⟨.subscribeSensor, state.sensor⟩ ::
    ⟨.configReport, state.sensor⟩ ::
    (List.replicate 5 ⟨.getLastTemp, ⟨⟩⟩ ++ [⟨.readTemp, state.sensor⟩])

/-- The calls of the client, in their order. -/
def demoCalls (state : SimState) : List CatalogueCall :=
  ⟨.getShortAddr, ⟨⟩⟩ :: ⟨.getPanid, ⟨⟩⟩ :: ⟨.getChannel, ⟨⟩⟩ :: ⟨.openNetwork, ⟨180⟩⟩ ::
    ⟨.waitAnnce, ⟨⟩⟩ :: ⟨.findSensor, ⟨toLe16 state.gSensorShort⟩⟩ :: sensorCalls state

/-- The state the client leaves the simulated coordinator in. -/
def SimState.demonstrated (state : SimState) : SimState :=
  { state with gPermitJoin := true, gJoined := true, gTemp := bumped (bumped^[5] state.gTemp) }

theorem rehearse_readAttributes (state : SimState) (temp : Int16) :
    rehearse simFunctions (readAttributes state.sensor) { state with gTemp := temp } =
      ⟨0, attributesLog (bumped temp), [⟨.readTemp, state.sensor⟩],
        { state with gTemp := bumped temp }⟩ := by
  refine rehearse_ask (run_readTemp state temp) ?_
  simp only [fromLe16S_toLe16S]
  exact rehearse_log (rehearse_log (rehearse_log (rehearse_log (rehearse_log rfl))))

/-- The client from the point on where it has found the sensor. -/
theorem rehearse_useSensor (state : SimState) :
    rehearse simFunctions (useSensor state.gShortAddr state.gPanid 180 state.sensor) state =
      ⟨0, sensorLog state, sensorCalls state,
        { state with gTemp := bumped (bumped^[5] state.gTemp) }⟩ := by
  have hattributes := rehearse_readAttributes state (bumped^[5] state.gTemp)
  unfold useSensor
  simp only [SimState.sensor_shortAddr]
  refine rehearse_log (rehearse_ask (run_readBasic state) ?_)
  refine rehearse_log (rehearse_log (rehearse_log (rehearse_log ?_)))
  refine rehearse_ask (run_checkSensor state) (rehearse_log (rehearse_ask (run_checkSensor state) ?_))
  refine rehearse_log (rehearse_log (rehearse_ask (run_checkSensor state) ?_))
  refine rehearse_log (rehearse_log (rehearse_log ?_))
  exact rehearse_bind (rehearse_reportTemps 5 state) hattributes

/-- Rehearsed on the simulated coordinator, the client comes to its end without an error from any state
of it. -/
theorem rehearse_clientMain (state : SimState) :
    rehearse simFunctions clientMain state =
      ⟨0, demoLog state, demoCalls state, state.demonstrated⟩ := by
  let opened : SimState := { state with gPermitJoin := true }
  let joined : SimState := { opened with gJoined := true }
  have hshort : (simFunctions .getShortAddr ⟨⟩).run state = (⟨toLe16 state.gShortAddr⟩, state) := rfl
  have hpanid : (simFunctions .getPanid ⟨⟩).run state = (⟨toLe16 state.gPanid⟩, state) := rfl
  have hchannel : (simFunctions .getChannel ⟨⟩).run state = (⟨state.gChannel⟩, state) := rfl
  have hopen : (simFunctions .openNetwork ⟨180⟩).run state = (⟨toLe32S 0⟩, opened) := rfl
  have hannce : (simFunctions .waitAnnce ⟨⟩).run opened = (⟨toLe16 state.gSensorShort⟩, joined) := rfl
  have hfind : (simFunctions .findSensor ⟨toLe16 state.gSensorShort⟩).run joined =
      (state.sensor, joined) := run_findSensor rfl
  refine rehearse_log (rehearse_log (rehearse_log (rehearse_log (rehearse_log ?_))))
  refine rehearse_ask hshort (rehearse_ask hpanid (rehearse_ask hchannel (rehearse_ask hopen ?_)))
  simp only [fromLe16_toLe16, fromLe32S_toLe32S]
  rw [if_neg (by simp)]
  refine rehearse_log (rehearse_ask hannce ?_)
  simp only [fromLe16_toLe16]
  refine rehearse_log (rehearse_log (rehearse_ask hfind ?_))
  have hfound : ¬ fromLe32S state.sensor.err ≠ 0 := by simp [SimState.sensor]
  simp only [if_neg hfound]
  exact rehearse_useSensor joined

end ZigbeeRemote.Sim
