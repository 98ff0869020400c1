import ZigbeeRemote.Zigbee.Api
import Mathlib.Logic.Function.Basic

/-!
# The Zigbee side of the server

The functions of `zb_rpc_server/main/zigbee_stack.c` behind the Zigbee interface, and the callbacks
through which the Zigbee stack answers them. The callbacks run in the Zigbee task and the functions
in the RPC task. They meet in the static variables of the file: two queues, four binary semaphores
and what is cached beside them. `Firmware` is these variables together with what the functions are
told by the chip.

A callback is the list of its accesses to the variables, in order, so that the other task can run
between any two of them. A function is a program whose nodes are its own accesses. A call that waits
is one node: it finds what it waits for or has timed out, and how long it took is up to the
schedule. The queues and semaphores exist before both tasks, so the tests of their handles are left
out, as are logging, the lock of the stack and the release of memory.
-/

set_option autoImplicit false
set_option relaxedAutoImplicit false

namespace ZigbeeRemote.Server.ZigbeeStack

open Foundation Zigbee

/-! ### Constants of the Zigbee stack -/

/-- `EZB_ERR_NONE`. -/
def ezbErrNone : Int32 := 0

/-- `EZB_ZDP_STATUS_SUCCESS`. -/
def zdpStatusSuccess : UInt8 := 0

/-- `EZB_ZCL_STATUS_SUCCESS`. -/
def zclStatusSuccess : UInt8 := 0

/-- `EZB_AF_HA_PROFILE_ID`. -/
def haProfileId : UInt16 := 0x0104

/-- `EZB_ZCL_CLUSTER_ID_BASIC`. -/
def clusterBasic : UInt16 := 0x0000

/-- `EZB_ZCL_CLUSTER_ID_TEMPERATURE_MEASUREMENT`. -/
def clusterTemperature : UInt16 := 0x0402

/-- `EZB_ZCL_ATTR_BASIC_MANUFACTURER_NAME_ID`. -/
def attrManufacturerName : UInt16 := 0x0004

/-- `EZB_ZCL_ATTR_BASIC_MODEL_IDENTIFIER_ID`. -/
def attrModelIdentifier : UInt16 := 0x0005

/-- `EZB_ZCL_ATTR_TEMPERATURE_MEASUREMENT_MEASURED_VALUE_ID`. -/
def attrMeasuredValue : UInt16 := 0x0000

/-- `EZB_ZCL_ATTR_TEMPERATURE_MEASUREMENT_MIN_MEASURED_VALUE_ID`. -/
def attrMinMeasuredValue : UInt16 := 0x0001

/-- `EZB_ZCL_ATTR_TEMPERATURE_MEASUREMENT_MAX_MEASURED_VALUE_ID`. -/
def attrMaxMeasuredValue : UInt16 := 0x0002

/-- `EZB_ZCL_ATTR_TEMPERATURE_MEASUREMENT_TOLERANCE_ID`. -/
def attrTolerance : UInt16 := 0x0003

/-- `ESP_ZIGBEE_HA_THERMOSTAT_EP_ID`. -/
def thermostatEpId : UInt8 := 1

/-! ### What the stack hands to the callbacks -/

/-- The response in an `ezb_zdo_match_desc_req_result_t`. A list that is there has the length the
response says. -/
structure MatchDescRsp where
  status : UInt8
  nwkAddrOfInterest : UInt16
  matchLength : UInt8
  matchList : Option Bytes
  length_matchList : ∀ list ∈ matchList, list.length = matchLength.toNat
  deriving DecidableEq

/-- `ezb_zdo_match_desc_req_result_t`. -/
structure MatchDescResult where
  error : Int32
  rsp : Option MatchDescRsp
  deriving DecidableEq

/-- `ezb_zdp_bind_req_result_t`; of the response only its status is read. -/
structure BindResult where
  error : Int32
  rsp : Option UInt8
  deriving DecidableEq

/-- `ezb_zcl_read_attr_rsp_variable_t`, with the bytes its value points to. -/
structure ReadAttrVariable where
  status : UInt8
  attrId : UInt16
  attrValue : Option Bytes
  deriving DecidableEq

/-- `ezb_zcl_cmd_read_attr_rsp_message_t`. -/
structure ReadAttrRspMessage where
  clusterId : UInt16
  status : UInt8
  inVariables : List ReadAttrVariable
  deriving DecidableEq

/-- `ezb_zcl_report_attr_variable_t`. -/
structure ReportAttrVariable where
  attrId : UInt16
  attrValue : Option Bytes
  deriving DecidableEq

/-- `ezb_zcl_cmd_report_attr_message_t`. The source address is there when the message has a header
and the header has a short address. -/
structure ReportAttrMessage where
  clusterId : UInt16
  srcShortAddr : Option UInt16
  inVariables : List ReportAttrVariable
  deriving DecidableEq

/-! ### The callbacks -/

/-- The binary semaphores. -/
inductive Semaphore : Type
  | basicDone
  | tempDone
  | bindDone
  | reportDone
  deriving DecidableEq

/-- The accesses of the callbacks to the static variables. `fault` is a read through a null
pointer. -/
inductive Access : Type
  | sendAnnce (shortAddr : UInt16)
  | sendMatch (out : ZigbeeAddr)
  | give (semaphore : Semaphore)
  | setBindErr (err : Int32)
  | setReportErr (err : Int32)
  | clearBasic
  | setBasicErr (err : Int32)
  | setManufacturer (name : FixedBytes 16)
  | setModel (name : FixedBytes 16)
  | clearTemp
  | setTempErr (err : Int32)
  | setMeasured (value : Int16)
  | setMinMeasured (value : Int16)
  | setMaxMeasured (value : Int16)
  | setTolerance (value : Int16)
  | setLastTemp (value : Int16)
  | setLastSensorAddr (shortAddr : UInt16)
  | fault
  deriving DecidableEq

/-- The length `copy_zcl_string` copies: the first byte, cut to leave room for a zero. -/
def zclLength (dstSize : ℕ) (zcl : Bytes) : ℕ :=
  if dstSize ≤ (zcl.headD 0).toNat then dstSize - 1 else (zcl.headD 0).toNat

/-- `copy_zcl_string`, as the contents of the destination after it. -/
def copyZclString (dstSize : ℕ) : Option Bytes → FixedBytes dstSize
  | none => .zero dstSize
  | some zcl =>
    ⟨List.ofFn fun i : Fin dstSize ↦ if i < zclLength dstSize zcl then zcl.getD (i + 1) 0 else 0,
      List.length_ofFn⟩

/-- `*(int16_t *)bytes`. -/
def readInt16 (bytes : Bytes) : Int16 :=
  ((bytes.getD 0 0).toUInt16 ||| ((bytes.getD 1 0).toUInt16 <<< 8)).toInt16

/-- What `zdo_match_result` makes of a result. -/
def matchResultAddr : Option MatchDescResult → ZigbeeAddr
  | none => ⟨-1, 0, 0⟩
  | some ⟨error, none⟩ => ⟨error, 0, 0⟩
  | some ⟨error, some rsp⟩ =>
    match rsp.matchList with
    | none => ⟨error, 0, 0⟩
    | some list =>
      if error = ezbErrNone ∧ rsp.status = zdpStatusSuccess ∧ rsp.matchLength > 0 then
        ⟨0, rsp.nwkAddrOfInterest, list.headD 0⟩
      else ⟨error, 0, 0⟩

/-- `zdo_match_result`. -/
def zdoMatchResult (result : Option MatchDescResult) : List Access :=
  [.sendMatch (matchResultAddr result)]

/-- What `zdo_bind_result` does between its first assignment and its signal. -/
def bindResultErr : Option BindResult → List Access
  | none => []
  | some ⟨error, some status⟩ =>
    if error = ezbErrNone ∧ status = zdpStatusSuccess then [.setBindErr 0]
    else if error = ezbErrNone then [.setBindErr status.toUInt32.toInt32]
    else [.setBindErr error]
  | some ⟨error, none⟩ =>
    if error = ezbErrNone then [.fault] else [.setBindErr error]

/-- `zdo_bind_result`. -/
def zdoBindResult (result : Option BindResult) : List Access :=
  .setBindErr (-1) :: bindResultErr result ++ [.give .bindDone]

/-- The body of the loop of `zcl_read_attr_rsp` for the Basic cluster. -/
def basicVariable (var : ReadAttrVariable) : List Access :=
  if var.status ≠ zclStatusSuccess then []
  else if var.attrId = attrManufacturerName then [.setManufacturer (copyZclString 16 var.attrValue)]
  else if var.attrId = attrModelIdentifier then [.setModel (copyZclString 16 var.attrValue)]
  else []

/-- The body of the loop of `zcl_read_attr_rsp` for the temperature cluster. -/
def tempVariable (var : ReadAttrVariable) : List Access :=
  if var.status ≠ zclStatusSuccess then []
  else
    match var.attrValue with
    | none => [.fault]
    | some bytes =>
      if var.attrId = attrMeasuredValue then
        [.setMeasured (readInt16 bytes), .setLastTemp (readInt16 bytes)]
      else if var.attrId = attrMinMeasuredValue then [.setMinMeasured (readInt16 bytes)]
      else if var.attrId = attrMaxMeasuredValue then [.setMaxMeasured (readInt16 bytes)]
      else if var.attrId = attrTolerance then [.setTolerance (readInt16 bytes)]
      else []

/-- The status of a response as an error code. -/
def zclErr (status : UInt8) : Int32 := if status = zclStatusSuccess then 0 else -1

/-- `zcl_read_attr_rsp`. -/
def zclReadAttrRsp : Option ReadAttrRspMessage → List Access
  | none => []
  | some message =>
    if message.clusterId = clusterBasic then
      .clearBasic :: .setBasicErr (zclErr message.status) :: message.inVariables.flatMap basicVariable
        ++ [.give .basicDone]
    else if message.clusterId = clusterTemperature then
      .clearTemp :: .setTempErr (zclErr message.status) :: message.inVariables.flatMap tempVariable
        ++ [.give .tempDone]
    else []

/-- The body of the loop of `zcl_report_attr`. -/
def reportVariable (var : ReportAttrVariable) : List Access :=
  if var.attrId = attrMeasuredValue then
    match var.attrValue with
    | none => [.fault]
    | some bytes => [.setLastTemp (readInt16 bytes)]
  else []

/-- `zcl_report_attr`. -/
def zclReportAttr : Option ReportAttrMessage → List Access
  | none => []
  | some message =>
    if message.clusterId ≠ clusterTemperature then []
    else
      (message.srcShortAddr.map Access.setLastSensorAddr).toList ++
        message.inVariables.flatMap reportVariable

/-- `zcl_config_report_rsp`; of a message only its status is read. -/
def zclConfigReportRsp (status : Option UInt8) : List Access :=
  .setReportErr (-1) ::
    (if status = some zclStatusSuccess then [.setReportErr 0] else []) ++ [.give .reportDone]

/-- `zigbee_app_signal_handler` on `EZB_ZDO_SIGNAL_DEVICE_ANNCE`. -/
def deviceAnnce (shortAddr : UInt16) : List Access := [.sendAnnce shortAddr]

/-! ### The static variables -/

/-- The requests of the functions. -/
inductive Request : Type
  /-- `ezb_zdo_match_desc_req`. -/
  | matchDesc (dstNwkAddr nwkAddrOfInterest profileId : UInt16) (clusterList : List UInt16)
  /-- `ezb_zcl_read_attr_cmd_req`. -/
  | readAttr (shortAddr : UInt16) (ep : UInt8) (clusterId : UInt16) (attrField : List UInt16)
  /-- `ezb_zdo_bind_req`. -/
  | bind (dstNwkAddr : UInt16) (srcEp dstEp : UInt8) (srcAddr dstAddr : UInt64) (clusterId : UInt16)
  /-- `ezb_zcl_config_report_cmd_req`, sent to no address: to the bound devices. -/
  | configReport (clusterId attrId minInterval maxInterval : UInt16) (reportableChange : Int16)
  deriving DecidableEq

/-- What the functions are told by the chip. -/
structure Surroundings where
  /-- Whether `calloc` succeeds. -/
  memory : Bool
  /-- What a request returns. -/
  requestErr : Int32
  /-- `ezb_bdb_open_network`. -/
  openNetworkErr : UInt8 → Int32
  /-- `ezb_nwk_get_short_address`. -/
  shortAddress : UInt16
  /-- `ezb_nwk_get_panid`. -/
  panid : UInt16
  /-- `ezb_nwk_get_current_channel`. -/
  currentChannel : UInt8
  /-- `ezb_nwk_get_extended_address`. -/
  extendedAddress : UInt64
  /-- `ezb_address_extended_by_short`. -/
  extendedByShort : UInt16 → Option UInt64
  /-- `ppp_uart_is_connected`. -/
  linkUp : Bool
  /-- `client_connected`. -/
  clientConnected : Bool

/-- The static variables, what the functions are told, and the requests that have been accepted,
each with the number of the call that made it. -/
structure Firmware where
  annceQ : List UInt16
  matchQ : List ZigbeeAddr
  given : Semaphore → Bool
  basicCache : ZigbeeBasic
  tempCache : ZigbeeTemp
  lastTemp : Int16
  lastSensorAddr : UInt16
  bindErr : Int32
  reportErr : Int32
  outside : Surroundings
  calls : ℕ
  accepted : List (ℕ × Request)

/-- After `zigbee_stack_start`. -/
def Firmware.initial (outside : Surroundings) : Firmware where
  annceQ := []
  matchQ := []
  given := fun _ ↦ false
  basicCache := ⟨0, .zero 16, .zero 16⟩
  tempCache := ⟨0, 0, 0, 0, 0⟩
  lastTemp := 0
  lastSensorAddr := 0
  bindErr := 0
  reportErr := 0
  outside := outside
  calls := 0
  accepted := []

/-- `xQueueSend` without waiting, to a queue of the given capacity. -/
def xQueueSend {α : Type} (capacity : ℕ) (queue : List α) (item : α) : List α :=
  if queue.length < capacity then queue ++ [item] else queue

/-- The effect of an access. -/
def Firmware.access (firmware : Firmware) : Access → Firmware
  | .sendAnnce shortAddr => { firmware with annceQ := xQueueSend 4 firmware.annceQ shortAddr }
  | .sendMatch out => { firmware with matchQ := xQueueSend 1 firmware.matchQ out }
  | .give semaphore => { firmware with given := Function.update firmware.given semaphore true }
  | .setBindErr err => { firmware with bindErr := err }
  | .setReportErr err => { firmware with reportErr := err }
  | .clearBasic => { firmware with basicCache := ⟨0, .zero 16, .zero 16⟩ }
  | .setBasicErr err => { firmware with basicCache := { firmware.basicCache with err := err } }
  | .setManufacturer name =>
    { firmware with basicCache := { firmware.basicCache with manufacturer := name } }
  | .setModel name => { firmware with basicCache := { firmware.basicCache with model := name } }
  | .clearTemp => { firmware with tempCache := ⟨0, 0, 0, 0, 0⟩ }
  | .setTempErr err => { firmware with tempCache := { firmware.tempCache with err := err } }
  | .setMeasured value =>
    { firmware with tempCache := { firmware.tempCache with measured := value } }
  | .setMinMeasured value =>
    { firmware with tempCache := { firmware.tempCache with minMeasured := value } }
  | .setMaxMeasured value =>
    { firmware with tempCache := { firmware.tempCache with maxMeasured := value } }
  | .setTolerance value =>
    { firmware with tempCache := { firmware.tempCache with tolerance := value } }
  | .setLastTemp value => { firmware with lastTemp := value }
  | .setLastSensorAddr shortAddr => { firmware with lastSensorAddr := shortAddr }
  | .fault => firmware

/-- The effect of a list of accesses. -/
def Firmware.replay (firmware : Firmware) (accesses : List Access) : Firmware :=
  accesses.foldl Firmware.access firmware

/-! ### The functions -/

section Functions

variable {ε β : Type}

/-- Where the answer to a request arrives: in `s_match_q` or with a semaphore. -/
inductive Channel : Type
  | matchQ
  | semaphore (semaphore : Semaphore)
  deriving DecidableEq

/-- What the waiting call receives: an item of the queue, or the semaphore alone. -/
@[reducible] def Channel.Item : Channel → Type
  | .matchQ => ZigbeeAddr
  | .semaphore _ => Unit

/-- What has arrived. -/
def Firmware.holds (firmware : Firmware) : (channel : Channel) → Option channel.Item
  | .matchQ => firmware.matchQ.head?
  | .semaphore semaphore => if firmware.given semaphore then some () else none

/-- `xQueueReset`, or `xSemaphoreTake` without waiting. -/
def Firmware.drain (firmware : Firmware) : Channel → Firmware
  | .matchQ => { firmware with matchQ := [] }
  | .semaphore semaphore =>
    { firmware with given := Function.update firmware.given semaphore false }

/-- `xQueueReceive`, or `xSemaphoreTake`. -/
def Firmware.take (firmware : Firmware) : Channel → Firmware
  | .matchQ => { firmware with matchQ := firmware.matchQ.tail }
  | .semaphore semaphore =>
    { firmware with given := Function.update firmware.given semaphore false }

/-- A request to the Zigbee stack, which accepts it or returns an error. -/
def ezbRequest (request : Request) : StateM Firmware Int32 := do
  let firmware ← get
  if firmware.outside.requestErr = ezbErrNone then
    set { firmware with accepted := firmware.accepted ++ [(firmware.calls, request)] }
  return firmware.outside.requestErr

theorem ezbRequest_run (request : Request) (f : Firmware) :
    (ezbRequest request).run f = (f.outside.requestErr,
      if f.outside.requestErr = ezbErrNone then
        { f with accepted := f.accepted ++ [(f.calls, request)] }
      else f) := by
  by_cases herr : f.outside.requestErr = ezbErrNone
  · simp [ezbRequest, herr]
    rfl
  · simp [ezbRequest, herr]
    rfl

/-- What the request functions have in common: empty the channel, make the request, wait for the
answer, and collect it. -/
def exchange (channel : Channel) (send : StateM Firmware Int32) (failed : Int32 → β)
    (collect : channel.Item → Prog Firmware ε β) : Prog Firmware ε β := do
  Prog.lift (modify fun firmware ↦ firmware.drain channel)
  let err ← Prog.lift send
  if err ≠ ezbErrNone then
    return failed err
  else
    match ← Prog.lift (modifyGet fun firmware ↦ (firmware.holds channel, firmware.take channel)) with
    | none => return failed (-2)
    | some item => collect item

/-- Read a variable. -/
def readVariable (read : Firmware → β) : Prog Firmware ε β := Prog.lift (do return read (← get))

def zigbeeGetShortAddr : Prog Firmware ε UInt16 := readVariable (·.outside.shortAddress)

def zigbeeGetPanid : Prog Firmware ε UInt16 := readVariable (·.outside.panid)

def zigbeeGetChannel : Prog Firmware ε UInt8 := readVariable (·.outside.currentChannel)

def zigbeeGetSensorAddr : Prog Firmware ε UInt16 := readVariable (·.lastSensorAddr)

def zigbeeOpenNetwork (duration : UInt8) : Prog Firmware ε Int32 := do
  let err ← readVariable (·.outside.openNetworkErr duration)
  return if err = ezbErrNone then 0 else err

def zigbeeWaitAnnce (_timeoutMs : UInt32) : Prog Firmware ε UInt16 :=
  Prog.lift (modifyGet fun firmware ↦
    (firmware.annceQ.headD 0, { firmware with annceQ := firmware.annceQ.tail }))

/-- The part of `zigbee_find_sensor` after the wait. -/
def rememberSensor (out : ZigbeeAddr) : Prog Firmware ε ZigbeeAddr := do
  if out.err = 0 then
    Prog.lift (modify fun firmware ↦ { firmware with lastSensorAddr := out.shortAddr })
  return out

def zigbeeFindSensor (shortAddr : UInt16) (_timeoutMs : UInt32) : Prog Firmware ε ZigbeeAddr :=
  exchange .matchQ
    (ezbRequest (.matchDesc shortAddr shortAddr haProfileId [clusterTemperature]))
    (fun err ↦ ⟨err, 0, 0⟩) rememberSensor

def zigbeeReadBasic (shortAddr : UInt16) (ep : UInt8) (_timeoutMs : UInt32) :
    Prog Firmware ε ZigbeeBasic :=
  exchange (.semaphore .basicDone)
    (ezbRequest (.readAttr shortAddr ep clusterBasic [attrManufacturerName, attrModelIdentifier]))
    (fun err ↦ ⟨err, .zero 16, .zero 16⟩) fun _ ↦ readVariable (·.basicCache)

/-- The part of `zigbee_bind_common` under the lock of the stack. -/
def bindRequest (remoteShort : UInt16) (remoteEp : UInt8) (toLocal : Bool) :
    StateM Firmware Int32 := do
  let outside := (← get).outside
  match outside.extendedByShort remoteShort with
  | none => return -1
  | some remote =>
    if toLocal then
      ezbRequest (.bind outside.shortAddress thermostatEpId remoteEp outside.extendedAddress remote
        clusterTemperature)
    else
      ezbRequest (.bind remoteShort remoteEp thermostatEpId remote outside.extendedAddress
        clusterTemperature)

theorem bindRequest_cases (remoteShort : UInt16) (remoteEp : UInt8) (toLocal : Bool)
    (f : Firmware) :
    (bindRequest remoteShort remoteEp toLocal).run f = (-1, f) ∨
      ∃ dst srcEp dstEp srcAddr dstAddr, (bindRequest remoteShort remoteEp toLocal).run f =
        (ezbRequest (.bind dst srcEp dstEp srcAddr dstAddr clusterTemperature)).run f := by
  cases hremote : f.outside.extendedByShort remoteShort with
  | none =>
    refine Or.inl ?_
    simp [bindRequest, hremote]
    rfl
  | some remote =>
    refine Or.inr ?_
    cases toLocal with
    | true => exact ⟨_, _, _, _, _, by simp [bindRequest, hremote]; rfl⟩
    | false => exact ⟨_, _, _, _, _, by simp [bindRequest, hremote]; rfl⟩

def zigbeeBindCommon (remoteShort : UInt16) (remoteEp : UInt8) (toLocal : Bool)
    (_timeoutMs : UInt32) : Prog Firmware ε Int32 := do
  if !(← readVariable (·.outside.memory)) then
    return -1
  else
    exchange (.semaphore .bindDone) (bindRequest remoteShort remoteEp toLocal) id
      fun _ ↦ readVariable (·.bindErr)

def zigbeeBindSensor (shortAddr : UInt16) (ep : UInt8) (timeoutMs : UInt32) :
    Prog Firmware ε Int32 :=
  zigbeeBindCommon shortAddr ep true timeoutMs

def zigbeeSubscribeSensor (shortAddr : UInt16) (ep : UInt8) (timeoutMs : UInt32) :
    Prog Firmware ε Int32 :=
  zigbeeBindCommon shortAddr ep false timeoutMs

def zigbeeConfigReport (_shortAddr : UInt16) (_ep : UInt8) (_timeoutMs : UInt32) :
    Prog Firmware ε Int32 :=
  exchange (.semaphore .reportDone)
    (ezbRequest (.configReport clusterTemperature attrMeasuredValue 1 10 200)) id
    fun _ ↦ readVariable (·.reportErr)

def zigbeeReadTemp (shortAddr : UInt16) (ep : UInt8) (_timeoutMs : UInt32) :
    Prog Firmware ε ZigbeeTemp :=
  exchange (.semaphore .tempDone)
    (ezbRequest (.readAttr shortAddr ep clusterTemperature
      [attrMeasuredValue, attrMinMeasuredValue, attrMaxMeasuredValue, attrTolerance]))
    (fun err ↦ ⟨err, 0, 0, 0, 0⟩) fun _ ↦ readVariable (·.tempCache)

def zigbeeGetLastTemp : Prog Firmware ε Int16 := readVariable (·.lastTemp)

/-- The Zigbee interface as the firmware implements it. -/
def zigbeeApi : ZigbeeApi (Prog Firmware ε) where
  getShortAddr := zigbeeGetShortAddr
  getPanid := zigbeeGetPanid
  getChannel := zigbeeGetChannel
  getSensorAddr := zigbeeGetSensorAddr
  openNetwork := zigbeeOpenNetwork
  waitAnnce := zigbeeWaitAnnce
  findSensor := zigbeeFindSensor
  readBasic := zigbeeReadBasic
  bindSensor := zigbeeBindSensor
  subscribeSensor := zigbeeSubscribeSensor
  configReport := zigbeeConfigReport
  readTemp := zigbeeReadTemp
  getLastTemp := zigbeeGetLastTemp

end Functions

end ZigbeeRemote.Server.ZigbeeStack
