import ZigbeeRemote.Rpc.Protocol
import ZigbeeRemote.Zigbee.Api

/-!
# The handlers of the server

The functions `handle_*` of `zb_rpc_server/main/rpc_server.cpp`, over any implementation of the
Zigbee interface in any monad. `handle` is the table `dispatch` works with.
-/

set_option autoImplicit false
set_option relaxedAutoImplicit false

namespace ZigbeeRemote.Server

open Foundation Rpc Zigbee

/-- `k_rpc_timeout_ms`. -/
def kRpcTimeoutMs : UInt32 := 15000

/-- `k_annce_timeout_ms`. -/
def kAnnceTimeoutMs : UInt32 := 180000

/-- `k_annce_slice_ms`. -/
def kAnnceSliceMs : UInt32 := 250

section Handlers

variable {m : Type → Type} [Monad m] (api : ZigbeeApi m)

def handleGetShortAddr : m U16Resp := do
  return ⟨toLe16 (← api.getShortAddr)⟩

def handleGetPanid : m U16Resp := do
  return ⟨toLe16 (← api.getPanid)⟩

def handleGetChannel : m U8Resp := do
  return ⟨← api.getChannel⟩

def handleOpenNetwork (request : OpenNetworkReq) : m I32Resp := do
  return ⟨toLe32S (← api.openNetwork request.duration)⟩

/-- The time `handle_wait_annce` waits in one call. -/
def annceSlice (remaining : UInt32) : UInt32 :=
  if remaining < kAnnceSliceMs then remaining else kAnnceSliceMs

theorem annceSlice_le (remaining : UInt32) : annceSlice remaining ≤ remaining := by
  unfold annceSlice
  split_ifs with hlast
  · exact UInt32.le_refl remaining
  · exact UInt32.not_lt.mp hlast

theorem annceSlice_pos {remaining : UInt32} (hremaining : 0 < remaining) :
    0 < (annceSlice remaining).toNat := by
  unfold annceSlice
  split_ifs
  · exact UInt32.lt_iff_toNat_lt.mp hremaining
  · decide

/-- The loop of `handle_wait_annce`. -/
def waitAnnceLoop (pppUartIsConnected clientConnected : m Bool) (remaining : UInt32) :
    m U16Resp := do
  if _hremaining : remaining > 0 then
    if !(← pppUartIsConnected) then
      return ⟨toLe16 0⟩
    else if !(← clientConnected) then
      return ⟨toLe16 0⟩
    else
      let shortAddr ← api.waitAnnce (annceSlice remaining)
      if shortAddr ≠ 0 then
        return ⟨toLe16 shortAddr⟩
      else
        waitAnnceLoop pppUartIsConnected clientConnected (remaining - annceSlice remaining)
  else
    return ⟨toLe16 0⟩
termination_by remaining.toNat
decreasing_by
  have hpos := annceSlice_pos _hremaining
  have hle := UInt32.le_iff_toNat_le.mp (annceSlice_le remaining)
  rw [UInt32.toNat_sub_of_le _ _ (annceSlice_le remaining)]
  omega

def handleWaitAnnce (pppUartIsConnected clientConnected : m Bool) : m U16Resp :=
  waitAnnceLoop api pppUartIsConnected clientConnected kAnnceTimeoutMs

def handleGetSensorAddr : m U16Resp := do
  return ⟨toLe16 (← api.getSensorAddr)⟩

def handleFindSensor (request : FindSensorReq) : m ZbAddr := do
  let found ← api.findSensor (fromLe16 request.shortAddr) kRpcTimeoutMs
  return ⟨toLe32S found.err, toLe16 found.shortAddr, found.ep⟩

def handleReadBasic (request : ZbAddr) : m ZbBasic := do
  let basic ← api.readBasic (fromLe16 request.shortAddr) request.ep kRpcTimeoutMs
  return ⟨toLe32S basic.err, basic.manufacturer, basic.model⟩

def handleBindSensor (request : ZbAddr) : m I32Resp := do
  return ⟨toLe32S (← api.bindSensor (fromLe16 request.shortAddr) request.ep kRpcTimeoutMs)⟩

def handleSubscribeSensor (request : ZbAddr) : m I32Resp := do
  return ⟨toLe32S (← api.subscribeSensor (fromLe16 request.shortAddr) request.ep kRpcTimeoutMs)⟩

def handleConfigReport (request : ZbAddr) : m I32Resp := do
  return ⟨toLe32S (← api.configReport (fromLe16 request.shortAddr) request.ep kRpcTimeoutMs)⟩

def handleReadTemp (request : ZbAddr) : m ZbTemp := do
  let temp ← api.readTemp (fromLe16 request.shortAddr) request.ep kRpcTimeoutMs
  return ⟨toLe32S temp.err, toLe16S temp.measured, toLe16S temp.minMeasured,
    toLe16S temp.maxMeasured, toLe16S temp.tolerance⟩

def handleGetLastTemp : m I16Resp := do
  return ⟨toLe16S (← api.getLastTemp)⟩

/-- The handler `dispatch` pairs with each call of the catalogue. -/
def handle (pppUartIsConnected clientConnected : m Bool) :
    (call : Api) → (desc call).Req → m (desc call).Resp
  | .getShortAddr, _ => handleGetShortAddr api
  | .getPanid, _ => handleGetPanid api
  | .getChannel, _ => handleGetChannel api
  | .openNetwork, request => handleOpenNetwork api request
  | .waitAnnce, _ => handleWaitAnnce api pppUartIsConnected clientConnected
  | .findSensor, request => handleFindSensor api request
  | .readBasic, request => handleReadBasic api request
  | .bindSensor, request => handleBindSensor api request
  | .subscribeSensor, request => handleSubscribeSensor api request
  | .configReport, request => handleConfigReport api request
  | .readTemp, request => handleReadTemp api request
  | .getLastTemp, _ => handleGetLastTemp api
  | .getSensorAddr, _ => handleGetSensorAddr api

end Handlers

end ZigbeeRemote.Server
