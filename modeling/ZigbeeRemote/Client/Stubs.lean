import ZigbeeRemote.Rpc.Engine
import ZigbeeRemote.Zigbee.Api

/-!
# The client's implementation of the Zigbee interface

The functions of `zb_rpc_client/include/zigbee_api.h`. All of them have one shape: when no
connection is attached or the call fails, a fixed value is returned; otherwise the response is
converted. `stub` is that shape, and each function is `stub` with its own descriptor, request,
fixed value and conversion. `rpcApi` collects them into an implementation of the interface.
-/

set_option autoImplicit false
set_option relaxedAutoImplicit false

namespace ZigbeeRemote.Client

open Foundation Rpc Zigbee WireType

/-- The globals of namespace `zigbee_rpc`. -/
structure ClientState where
  gFd : Int
  deriving DecidableEq

/-- `zigbee_rpc::attached`. -/
def ClientState.attached (client : ClientState) : Bool := decide (client.gFd ≥ 0)

/-- `zigbee_rpc::k_invalid_short_addr`. -/
def kInvalidShortAddr : UInt16 := 0xFFFF

/-- `zigbee_rpc::to_wire`. -/
def toWire (shortAddr : UInt16) (ep : UInt8) : ZbAddr := ⟨toLe32S 0, toLe16 shortAddr, ep⟩

section Stubs

variable {μ α : Type}

/-- The common shape: `call<Desc>` with a new engine on the attached descriptor. -/
def stub (d : RpcDesc) (request : d.Req) (otherwise : α) (convert : d.Resp → α) :
    Prog ClientState μ α := do
  if !(← Prog.lift (ClientState.attached <$> get)) then
    return otherwise
  else
    match (← (call d request).run .none).1 with
    | none => return otherwise
    | some response => return convert response

def zigbeeGetShortAddr : Prog ClientState μ UInt16 :=
  stub (desc .getShortAddr) ⟨⟩ 0 fun response ↦ fromLe16 response.value

def zigbeeGetPanid : Prog ClientState μ UInt16 :=
  stub (desc .getPanid) ⟨⟩ 0 fun response ↦ fromLe16 response.value

def zigbeeGetChannel : Prog ClientState μ UInt8 :=
  stub (desc .getChannel) ⟨⟩ 0 fun response ↦ response.value

def zigbeeGetSensorAddr : Prog ClientState μ UInt16 :=
  stub (desc .getSensorAddr) ⟨⟩ kInvalidShortAddr fun response ↦ fromLe16 response.value

def zigbeeOpenNetwork (duration : UInt8) : Prog ClientState μ Int32 :=
  stub (desc .openNetwork) ⟨duration⟩ (-1) fun response ↦ fromLe32S response.value

/-- The timeout is not sent, here and below: the server applies its own. -/
def zigbeeWaitAnnce (_timeoutMs : UInt32) : Prog ClientState μ UInt16 :=
  stub (desc .waitAnnce) ⟨⟩ 0 fun response ↦ fromLe16 response.value

def zigbeeFindSensor (shortAddr : UInt16) (_timeoutMs : UInt32) : Prog ClientState μ ZigbeeAddr :=
  stub (desc .findSensor) ⟨toLe16 shortAddr⟩ ⟨-1, 0, 0⟩ fun response ↦
    ⟨fromLe32S response.err, fromLe16 response.shortAddr, response.ep⟩

def zigbeeReadBasic (shortAddr : UInt16) (ep : UInt8) (_timeoutMs : UInt32) :
    Prog ClientState μ ZigbeeBasic :=
  stub (desc .readBasic) (toWire shortAddr ep) ⟨-1, .zero 16, .zero 16⟩ fun response ↦
    ⟨fromLe32S response.err, response.manufacturer, response.model⟩

def zigbeeBindSensor (shortAddr : UInt16) (ep : UInt8) (_timeoutMs : UInt32) :
    Prog ClientState μ Int32 :=
  stub (desc .bindSensor) (toWire shortAddr ep) (-1) fun response ↦ fromLe32S response.value

def zigbeeSubscribeSensor (shortAddr : UInt16) (ep : UInt8) (_timeoutMs : UInt32) :
    Prog ClientState μ Int32 :=
  stub (desc .subscribeSensor) (toWire shortAddr ep) (-1) fun response ↦ fromLe32S response.value

def zigbeeConfigReport (shortAddr : UInt16) (ep : UInt8) (_timeoutMs : UInt32) :
    Prog ClientState μ Int32 :=
  stub (desc .configReport) (toWire shortAddr ep) (-1) fun response ↦ fromLe32S response.value

def zigbeeReadTemp (shortAddr : UInt16) (ep : UInt8) (_timeoutMs : UInt32) :
    Prog ClientState μ ZigbeeTemp :=
  stub (desc .readTemp) (toWire shortAddr ep) ⟨-1, 0, 0, 0, 0⟩ fun response ↦
    ⟨fromLe32S response.err, fromLe16S response.measured, fromLe16S response.minMeasured,
      fromLe16S response.maxMeasured, fromLe16S response.tolerance⟩

def zigbeeGetLastTemp : Prog ClientState μ Int16 :=
  stub (desc .getLastTemp) ⟨⟩ 0 fun response ↦ fromLe16S response.value

/-- The client's implementation of the interface. -/
def rpcApi : ZigbeeApi (Prog ClientState μ) where
  getShortAddr := zigbeeGetShortAddr
  getPanid := zigbeeGetPanid
  getChannel := zigbeeGetChannel
  getSensorAddr := zigbeeGetSensorAddr
  openNetwork := zigbeeOpenNetwork
  waitAnnce := zigbeeWaitAnnce
  findSensor := zigbeeFindSensor
  readBasic := zigbeeReadBasic
  bindSensor := zigbeeBindSensor
  subscribeSensor := zigbeeSubscribeSensor
  configReport := zigbeeConfigReport
  readTemp := zigbeeReadTemp
  getLastTemp := zigbeeGetLastTemp

end Stubs

/-! ### What the stubs do on an attached connection -/

section Behaviour

variable {μ α : Type} (eof : Bool) {client : ClientState} (d : RpcDesc) (request : d.Req)
  (otherwise : α) (convert : d.Resp → α)

/-- The value a stub makes of the result of its call. -/
def stubValue (otherwise : α) (convert : d.Resp → α) : Option d.Resp → α
  | none => otherwise
  | some response => convert response

/-- A stub asks whether a connection is attached, writes its request and goes on to the reply. -/
theorem behave_stub (hattached : client.attached = true) (input : Bytes) :
    behave eof (stub d request otherwise convert : Prog ClientState μ α) client input =
      ((behave eof ((callReply d : EngineM ClientState μ _).run .none) client input).andThen
        fun result later rest ↦
          ⟨[], [], 0, later, .finished (stubValue d otherwise convert result.1) rest⟩).after
        (frame d.id (wireBytes request)) [] (1 + sendCost d.Req) := by
  have hquery : ((ClientState.attached <$> get : StateM ClientState Bool).run client) =
      (true, client) := by
    rw [← hattached]
    rfl
  simp only [stub, Prog.bind_eq_bind, behave_bind, behave_lift, hquery,
    Behaviour.andThen_finished, Bool.not_true, Bool.false_eq_true, if_false, behave_call,
    Behaviour.after_andThen, Behaviour.after_after, List.nil_append]
  congr 2
  funext result later rest
  cases hresult : result.1 <;> rfl

end Behaviour

end ZigbeeRemote.Client
