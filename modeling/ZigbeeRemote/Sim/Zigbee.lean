import ZigbeeRemote.Server.AutoRpc

/-!
# The simulated coordinator

`zb_rpc/src/sim_zigbee.cpp`: the functions behind the demonstration server, over the variables of the
file. `simNamespace` is the namespace as `server.cpp` sees it, the twelve declarations of
`sim_zigbee.hpp`, and `dispatchNs_simNamespace` says what `dispatch_ns` expands to for it: the chain of
handlers in the order of the declarations. Logging is left out.
-/

set_option autoImplicit false
set_option relaxedAutoImplicit false

namespace ZigbeeRemote.Sim

open Foundation Rpc Server

/-! ### The functions -/

/-- The variables of `sim_zigbee.cpp`. -/
structure SimState where
  gShortAddr : UInt16
  gPanid : UInt16
  gChannel : UInt8
  gSensorShort : UInt16
  gSensorEp : UInt8
  gTemp : Int16
  gPermitJoin : Bool
  gJoined : Bool
  deriving DecidableEq

/-- Their initializers. -/
def SimState.initial : SimState where
  gShortAddr := 0x0000
  gPanid := 0x4c19
  gChannel := 13
  gSensorShort := 0x1956
  gSensorEp := 0x0a
  gTemp := 1300
  gPermitJoin := false
  gJoined := false

/-- The temperature after `bump_temp`. -/
def bumped (temp : Int16) : Int16 := if temp < 1800 then temp + 100 else temp

/-- `bump_temp`. -/
def bumpTemp : StateM SimState Unit := modify fun state ↦ { state with gTemp := bumped state.gTemp }

/-- `strncpy` of a text into a field of zeros, with the size of the field less one. -/
def strncpyField (size : ℕ) (text : String) : FixedBytes size :=
  let bytes : Bytes := (text.toList.map fun char ↦ UInt8.ofNat char.toNat).take (size - 1)
  ⟨bytes ++ List.replicate (size - bytes.length) 0, by
    rw [List.length_append, List.length_replicate]
    have hbytes : bytes.length ≤ size := (List.length_take_le _ _).trans (Nat.sub_le _ _)
    omega⟩

/-- `get_short_addr`. -/
def getShortAddr (_ : EmptyReq) : StateM SimState U16Resp :=
  return ⟨toLe16 (← get).gShortAddr⟩

/-- `get_panid`. -/
def getPanid (_ : EmptyReq) : StateM SimState U16Resp :=
  return ⟨toLe16 (← get).gPanid⟩

/-- `get_channel`. -/
def getChannel (_ : EmptyReq) : StateM SimState U8Resp :=
  return ⟨(← get).gChannel⟩

/-- `open_network`. -/
def openNetwork (request : OpenNetworkReq) : StateM SimState I32Resp := do
  modify fun state ↦ { state with gPermitJoin := decide (request.duration ≠ 0) }
  return ⟨toLe32S 0⟩

/-- `wait_annce`. -/
def waitAnnce (_ : EmptyReq) : StateM SimState U16Resp := do
  modify fun state ↦ { state with gJoined := true }
  return ⟨toLe16 (← get).gSensorShort⟩

/-- `find_sensor`. -/
def findSensor (request : FindSensorReq) : StateM SimState ZbAddr := do
  let state ← get
  if !state.gJoined || fromLe16 request.shortAddr ≠ state.gSensorShort then
    return { WireType.init ZbAddr with err := toLe32S (-1) }
  else
    return ⟨toLe32S 0, toLe16 state.gSensorShort, state.gSensorEp⟩

/-- `read_basic`. -/
def readBasic (addr : ZbAddr) : StateM SimState ZbBasic := do
  if fromLe16 addr.shortAddr ≠ (← get).gSensorShort then
    return { WireType.init ZbBasic with err := toLe32S (-1) }
  else
    return ⟨toLe32S 0, strncpyField 16 "ESPRESSIF", strncpyField 16 "esp32h2"⟩

/-- The functions that only look at the address: `bind_sensor`, `subscribe_sensor` and
`config_report`. -/
def checkSensor (addr : ZbAddr) : StateM SimState I32Resp :=
  return ⟨toLe32S (if fromLe16 addr.shortAddr = (← get).gSensorShort then 0 else -1)⟩

/-- `bind_sensor`. -/
def bindSensor (addr : ZbAddr) : StateM SimState I32Resp := checkSensor addr

/-- `subscribe_sensor`. -/
def subscribeSensor (addr : ZbAddr) : StateM SimState I32Resp := checkSensor addr

/-- `config_report`. -/
def configReport (addr : ZbAddr) : StateM SimState I32Resp := checkSensor addr

/-- `read_temp`. -/
def readTemp (addr : ZbAddr) : StateM SimState ZbTemp := do
  if fromLe16 addr.shortAddr ≠ (← get).gSensorShort then
    return { WireType.init ZbTemp with err := toLe32S (-1) }
  else
    bumpTemp
    return ⟨toLe32S 0, toLe16S (← get).gTemp, toLe16S (-1000), toLe16S 8000, toLe16S 0⟩

/-- `get_last_temp`. -/
def getLastTemp (_ : EmptyReq) : StateM SimState I16Resp := do
  bumpTemp
  return ⟨toLe16S (← get).gTemp⟩

/-! ### The namespace -/

/-- The types in the declarations of the namespace. -/
def wireType (displayString : String) (T : Type) [wire : WireType T] : CppType :=
  ⟨displayString, T, .payload wire⟩

/-- A declaration of `sim_zigbee.hpp`. -/
def simMember (name request response : String) {Req Resp : Type} [WireType Req] [WireType Resp]
    (function : Req → StateM SimState Resp) : Member SimState :=
  .function (some name) [wireType request Req] (wireType response Resp)
    (some fun arguments ↦ .lift (function arguments.1))

/-- Namespace `sim` of `sim_zigbee.hpp`. -/
def simNamespace : List (Member SimState) :=
  [simMember "get_short_addr" "zb_rpc::EmptyReq" "zb_rpc::U16Resp" getShortAddr,
    simMember "get_panid" "zb_rpc::EmptyReq" "zb_rpc::U16Resp" getPanid,
    simMember "get_channel" "zb_rpc::EmptyReq" "zb_rpc::U8Resp" getChannel,
    simMember "open_network" "zb_rpc::OpenNetworkReq" "zb_rpc::I32Resp" openNetwork,
    simMember "wait_annce" "zb_rpc::EmptyReq" "zb_rpc::U16Resp" waitAnnce,
    simMember "find_sensor" "zb_rpc::FindSensorReq" "zb_rpc::zb_addr_t" findSensor,
    simMember "read_basic" "zb_rpc::zb_addr_t" "zb_rpc::zb_basic_t" readBasic,
    simMember "bind_sensor" "zb_rpc::zb_addr_t" "zb_rpc::I32Resp" bindSensor,
    simMember "subscribe_sensor" "zb_rpc::zb_addr_t" "zb_rpc::I32Resp" subscribeSensor,
    simMember "config_report" "zb_rpc::zb_addr_t" "zb_rpc::I32Resp" configReport,
    simMember "read_temp" "zb_rpc::zb_addr_t" "zb_rpc::zb_temp_t" readTemp,
    simMember "get_last_temp" "zb_rpc::EmptyReq" "zb_rpc::I16Resp" getLastTemp]

/-- `enum class api_id` of the demonstration. It has no `get_sensor_addr`. -/
def simApiId : Enumeration where
  enumerators :=
    [("error", 0), ("get_short_addr", 1), ("get_panid", 2), ("get_channel", 3), ("open_network", 4),
      ("wait_annce", 5), ("find_sensor", 6), ("read_basic", 7), ("bind_sensor", 8),
      ("subscribe_sensor", 9), ("config_report", 10), ("read_temp", 11), ("get_last_temp", 12)]
  nodup_names := by decide

/-- The calls the namespace serves, in the order of its declarations. -/
def simOrder : List Api :=
  [.getShortAddr, .getPanid, .getChannel, .openNetwork, .waitAnnce, .findSensor, .readBasic,
    .bindSensor, .subscribeSensor, .configReport, .readTemp, .getLastTemp]

/-- The functions by call. `get_sensor_addr` is not in `simOrder`, and its entry is never used. -/
def simFunctions : Functions SimState
  | .getShortAddr => getShortAddr
  | .getPanid => getPanid
  | .getChannel => getChannel
  | .openNetwork => openNetwork
  | .waitAnnce => waitAnnce
  | .findSensor => findSensor
  | .readBasic => readBasic
  | .bindSensor => bindSensor
  | .subscribeSensor => subscribeSensor
  | .configReport => configReport
  | .readTemp => readTemp
  | .getLastTemp => getLastTemp
  | .getSensorAddr => fun _ ↦ return WireType.init U16Resp

theorem rpcHandlers_simNamespace :
    rpcHandlers simApiId simNamespace = some (handlersOf simFunctions simOrder) := rfl

/-- What `dispatch_ns` expands to for the namespace. -/
theorem dispatchNs_simNamespace :
    dispatchNs simApiId simNamespace =
      some fun header ↦ invokeFirst (handlersOf simFunctions simOrder) header := by
  rw [dispatchNs_eq_invokeChosen, rpcHandlers_simNamespace]
  simp only [invokeFirst_eq_invokeChosen]

end ZigbeeRemote.Sim
