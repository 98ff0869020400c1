import ZigbeeRemote.Foundation.PackedLayout

/-!
# The Zigbee interface

The functions of `zigbee_api.h`. The server's copy of the header declares them for the firmware, the
client's copy implements them over the connection, with the same names, arguments and results.
`ZigbeeApi m` is an implementation in the monad `m`.
-/

set_option autoImplicit false
set_option relaxedAutoImplicit false

namespace ZigbeeRemote.Zigbee

open Foundation

/-- `zigbee_addr_t`. -/
structure ZigbeeAddr where
  err : Int32
  shortAddr : UInt16
  ep : UInt8
  deriving DecidableEq

/-- `zigbee_basic_t`. -/
structure ZigbeeBasic where
  err : Int32
  manufacturer : FixedBytes 16
  model : FixedBytes 16
  deriving DecidableEq

/-- `zigbee_temp_t`. -/
structure ZigbeeTemp where
  err : Int32
  measured : Int16
  minMeasured : Int16
  maxMeasured : Int16
  tolerance : Int16
  deriving DecidableEq

/-- An implementation of the interface. -/
structure ZigbeeApi (m : Type → Type) where
  getShortAddr : m UInt16
  getPanid : m UInt16
  getChannel : m UInt8
  getSensorAddr : m UInt16
  openNetwork (duration : UInt8) : m Int32
  waitAnnce (timeoutMs : UInt32) : m UInt16
  findSensor (shortAddr : UInt16) (timeoutMs : UInt32) : m ZigbeeAddr
  readBasic (shortAddr : UInt16) (ep : UInt8) (timeoutMs : UInt32) : m ZigbeeBasic
  bindSensor (shortAddr : UInt16) (ep : UInt8) (timeoutMs : UInt32) : m Int32
  subscribeSensor (shortAddr : UInt16) (ep : UInt8) (timeoutMs : UInt32) : m Int32
  configReport (shortAddr : UInt16) (ep : UInt8) (timeoutMs : UInt32) : m Int32
  readTemp (shortAddr : UInt16) (ep : UInt8) (timeoutMs : UInt32) : m ZigbeeTemp
  getLastTemp : m Int16

/-- A call of one of the functions with its arguments. -/
inductive ApiCall : Type
  | getShortAddr
  | getPanid
  | getChannel
  | getSensorAddr
  | openNetwork (duration : UInt8)
  | waitAnnce (timeoutMs : UInt32)
  | findSensor (shortAddr : UInt16) (timeoutMs : UInt32)
  | readBasic (shortAddr : UInt16) (ep : UInt8) (timeoutMs : UInt32)
  | bindSensor (shortAddr : UInt16) (ep : UInt8) (timeoutMs : UInt32)
  | subscribeSensor (shortAddr : UInt16) (ep : UInt8) (timeoutMs : UInt32)
  | configReport (shortAddr : UInt16) (ep : UInt8) (timeoutMs : UInt32)
  | readTemp (shortAddr : UInt16) (ep : UInt8) (timeoutMs : UInt32)
  | getLastTemp
  deriving DecidableEq

/-- The type of the result of a call. -/
@[reducible] def ApiCall.Result : ApiCall → Type
  | .getShortAddr => UInt16
  | .getPanid => UInt16
  | .getChannel => UInt8
  | .getSensorAddr => UInt16
  | .openNetwork _ => Int32
  | .waitAnnce _ => UInt16
  | .findSensor _ _ => ZigbeeAddr
  | .readBasic _ _ _ => ZigbeeBasic
  | .bindSensor _ _ _ => Int32
  | .subscribeSensor _ _ _ => Int32
  | .configReport _ _ _ => Int32
  | .readTemp _ _ _ => ZigbeeTemp
  | .getLastTemp => Int16

/-- Make a call with an implementation. -/
def ZigbeeApi.ask {m : Type → Type} (api : ZigbeeApi m) : (call : ApiCall) → m call.Result
  | .getShortAddr => api.getShortAddr
  | .getPanid => api.getPanid
  | .getChannel => api.getChannel
  | .getSensorAddr => api.getSensorAddr
  | .openNetwork duration => api.openNetwork duration
  | .waitAnnce timeoutMs => api.waitAnnce timeoutMs
  | .findSensor shortAddr timeoutMs => api.findSensor shortAddr timeoutMs
  | .readBasic shortAddr ep timeoutMs => api.readBasic shortAddr ep timeoutMs
  | .bindSensor shortAddr ep timeoutMs => api.bindSensor shortAddr ep timeoutMs
  | .subscribeSensor shortAddr ep timeoutMs => api.subscribeSensor shortAddr ep timeoutMs
  | .configReport shortAddr ep timeoutMs => api.configReport shortAddr ep timeoutMs
  | .readTemp shortAddr ep timeoutMs => api.readTemp shortAddr ep timeoutMs
  | .getLastTemp => api.getLastTemp

/-- A result of one of the functions. -/
inductive ApiValue : Type
  | u8 (value : UInt8)
  | u16 (value : UInt16)
  | i16 (value : Int16)
  | i32 (value : Int32)
  | addr (value : ZigbeeAddr)
  | basic (value : ZigbeeBasic)
  | temp (value : ZigbeeTemp)
  deriving DecidableEq

/-- The result of a call, without the call. -/
def ApiCall.wrap : (call : ApiCall) → call.Result → ApiValue
  | .getShortAddr => .u16
  | .getPanid => .u16
  | .getChannel => .u8
  | .getSensorAddr => .u16
  | .openNetwork _ => .i32
  | .waitAnnce _ => .u16
  | .findSensor _ _ => .addr
  | .readBasic _ _ _ => .basic
  | .bindSensor _ _ _ => .i32
  | .subscribeSensor _ _ _ => .i32
  | .configReport _ _ _ => .i32
  | .readTemp _ _ _ => .temp
  | .getLastTemp => .i16

/-- The result of a call can be told from what `perform` returns. -/
theorem ApiCall.wrap_injective (call : ApiCall) : Function.Injective call.wrap := by
  intro first second h
  cases call <;> simpa [wrap] using h

/-- Perform a call with an implementation. -/
def ZigbeeApi.perform {m : Type → Type} [Monad m] (api : ZigbeeApi m) : ApiCall → m ApiValue
  | .getShortAddr => ApiValue.u16 <$> api.getShortAddr
  | .getPanid => ApiValue.u16 <$> api.getPanid
  | .getChannel => ApiValue.u8 <$> api.getChannel
  | .getSensorAddr => ApiValue.u16 <$> api.getSensorAddr
  | .openNetwork duration => ApiValue.i32 <$> api.openNetwork duration
  | .waitAnnce timeoutMs => ApiValue.u16 <$> api.waitAnnce timeoutMs
  | .findSensor shortAddr timeoutMs => ApiValue.addr <$> api.findSensor shortAddr timeoutMs
  | .readBasic shortAddr ep timeoutMs => ApiValue.basic <$> api.readBasic shortAddr ep timeoutMs
  | .bindSensor shortAddr ep timeoutMs => ApiValue.i32 <$> api.bindSensor shortAddr ep timeoutMs
  | .subscribeSensor shortAddr ep timeoutMs =>
    ApiValue.i32 <$> api.subscribeSensor shortAddr ep timeoutMs
  | .configReport shortAddr ep timeoutMs =>
    ApiValue.i32 <$> api.configReport shortAddr ep timeoutMs
  | .readTemp shortAddr ep timeoutMs => ApiValue.temp <$> api.readTemp shortAddr ep timeoutMs
  | .getLastTemp => ApiValue.i16 <$> api.getLastTemp

/-- Both ways of making a call make the same one. -/
theorem ZigbeeApi.perform_eq_map_ask {m : Type → Type} [Monad m] (api : ZigbeeApi m)
    (call : ApiCall) : api.perform call = call.wrap <$> api.ask call := by
  cases call <;> rfl

end ZigbeeRemote.Zigbee
