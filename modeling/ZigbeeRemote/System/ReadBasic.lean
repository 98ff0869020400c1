import ZigbeeRemote.Server.DeviceStrings
import ZigbeeRemote.System.Transparency

/-!
# The strings of a device at the client

`zigbee_read_basic` on the Linux client, from the response of the Zigbee device to the two fields the
application prints: through `zcl_read_attr_rsp` and `s_basic_cache`, the firmware's
`zigbee_read_basic`, `handle_read_basic`, the connection and the client's own copy.

`answeredApi` is the firmware as the server sees it while the Zigbee task makes its accesses.
`device_strings_intact` is the result for every response, every interleaving of client and server
and every fragmentation of the bytes between them.
-/

set_option autoImplicit false
set_option relaxedAutoImplicit false

namespace ZigbeeRemote.System

open Foundation Rpc Zigbee Client Server ZigbeeStack

/-- A function of the firmware while the Zigbee task makes accesses of its own, as one step of the
server. When one of these faults the board restarts; the value is then of no use. -/
def answered {β : Type} (others : List (List Access)) (useless : β)
    (function : Prog Firmware Empty β) : StateM Firmware β := fun firmware ↦
  (runCall function others firmware).getD (useless, firmware)

/-- The firmware's implementation of the interface, each function with these accesses. -/
def answeredApi (others : List (List Access)) : ZigbeeApi (StateM Firmware) where
  getShortAddr := answered others 0 zigbeeApi.getShortAddr
  getPanid := answered others 0 zigbeeApi.getPanid
  getChannel := answered others 0 zigbeeApi.getChannel
  getSensorAddr := answered others 0 zigbeeApi.getSensorAddr
  openNetwork := fun duration ↦ answered others 0 (zigbeeApi.openNetwork duration)
  waitAnnce := fun timeoutMs ↦ answered others 0 (zigbeeApi.waitAnnce timeoutMs)
  findSensor := fun shortAddr timeoutMs ↦
    answered others ⟨0, 0, 0⟩ (zigbeeApi.findSensor shortAddr timeoutMs)
  readBasic := fun shortAddr ep timeoutMs ↦
    answered others ⟨0, .zero 16, .zero 16⟩ (zigbeeApi.readBasic shortAddr ep timeoutMs)
  bindSensor := fun shortAddr ep timeoutMs ↦
    answered others 0 (zigbeeApi.bindSensor shortAddr ep timeoutMs)
  subscribeSensor := fun shortAddr ep timeoutMs ↦
    answered others 0 (zigbeeApi.subscribeSensor shortAddr ep timeoutMs)
  configReport := fun shortAddr ep timeoutMs ↦
    answered others 0 (zigbeeApi.configReport shortAddr ep timeoutMs)
  readTemp := fun shortAddr ep timeoutMs ↦
    answered others ⟨0, 0, 0, 0, 0⟩ (zigbeeApi.readTemp shortAddr ep timeoutMs)
  getLastTemp := answered others 0 zigbeeApi.getLastTemp

section Answered

variable (status : UInt8) (records : List ReadAttrVariable) (shortAddr : UInt16) (ep : UInt8)
  (timeoutMs : UInt32) (meanwhile : Meanwhile (.semaphore .basicDone)) {firmware : Firmware}
  (pppUartIsConnected clientConnected : StateM Firmware Bool) {client : ClientState}

/-- The accesses of the Zigbee task while it answers a read request. -/
def answering : List (List Access) :=
  meanwhile.accesses (zclReadAttrRsp (some (basicResponse status records)))

/-- What the server's own call returns. -/
theorem nativeResults_readBasic (haccepted : firmware.outside.requestErr = ezbErrNone) :
    nativeResults (servedApi (answeredApi (answering status records meanwhile)) pppUartIsConnected
      clientConnected) [.readBasic shortAddr ep timeoutMs] firmware =
        [.basic (basicOf status records)] := by
  obtain ⟨final, hcall⟩ := runCall_readBasic status records shortAddr ep kRpcTimeoutMs meanwhile
    haccepted
  have hrun : ((answeredApi (answering status records meanwhile)).readBasic shortAddr ep
      kRpcTimeoutMs).run firmware = (basicOf status records, final) :=
    congrArg (fun result ↦ result.getD (⟨0, .zero 16, .zero 16⟩, firmware)) hcall
  exact congrArg (fun result ↦ [ApiValue.basic result.1]) hrun

/-- The strings of a device arrive intact and terminated. `zigbee_read_basic` on the client returns
fields that are the text of the last successful records as far as it fits, and zeros, in any
interleaving with the server and any fragmentation of the bytes between them; it returns after
boundedly many steps, and there is always one to make before. And `copy_zcl_string`, with a
destination of any size but zero, writes inside the destination and reads no more of the string than
it copies, whatever the length byte says; what it leaves there is what the first part is about.
Assumes: the last successful records hold a length byte and as much text as is copied; the request is
accepted, and answered before the call times out; the client is attached and the link stays up. -/
theorem device_strings_intact
    (hmanufacturer : HoldsText (lastString attrManufacturerName records))
    (hmodel : HoldsText (lastString attrModelIdentifier records))
    (haccepted : firmware.outside.requestErr = ezbErrNone)
    (hlink : ∀ state, pppUartIsConnected.run state = (true, state))
    (hattached : client.attached = true) :
    (∃ (out : ZigbeeBasic) (bound : ℕ),
      Intact (lastString attrManufacturerName records) out.manufacturer ∧
      Intact (lastString attrModelIdentifier records) out.model ∧
      ∀ (labels : List Foundation.Happening)
        (connection : Connection ClientState ApiValue Unit Firmware ServerMark (Bool × ErrorCode)),
        Run (Connection.Step (serveAgain pppUartIsConnected (handlersOf
            (handle (answeredApi (answering status records meanwhile)) pppUartIsConnected
              clientConnected) dispatchOrder)))
          (Connection.start (performAll [.readBasic shortAddr ep timeoutMs]) client
            (serveClient pppUartIsConnected (handlersOf
              (handle (answeredApi (answering status records meanwhile)) pppUartIsConnected
                clientConnected) dispatchOrder)) firmware)
          labels connection →
        connection.clientOpen = true →
        connection.client.marks <+: [.basic out] ∧
          (connection.client.prog = .done () → connection.client.marks = [.basic out]) ∧
          labels.countP Foundation.Happening.productive ≤ bound ∧
          ((∃ label after, Connection.Step (serveAgain pppUartIsConnected (handlersOf
              (handle (answeredApi (answering status records meanwhile)) pppUartIsConnected
                clientConnected) dispatchOrder)) connection label after ∧
              label.productive = true) ∨ connection.client.prog = .done ())) ∧
    ∀ (dstSize : ℕ) (zcl : Option (ℕ → UInt8)), 1 ≤ dstSize →
      Within dstSize (copyZclStringTouches dstSize zcl).stores ∧
        (∀ offset ∈ (copyZclStringTouches dstSize zcl).loads,
          ∃ source, zcl = some source ∧ offset < 1 + min (source 0).toNat (dstSize - 1)) ∧
        ∀ (cells source : ℕ → UInt8) (first : UInt8) (text : Bytes), zcl = some source →
          window source (text.length + 1) = first :: text →
          min first.toNat (dstSize - 1) ≤ text.length →
          window (written cells (copyZclStringTouches dstSize zcl).stores) dstSize =
            (copyZclString dstSize (some (first :: text))).bytes := by
  constructor
  swap
  · intro dstSize zcl hsize
    obtain ⟨hwithin, hloads⟩ := copyZclString_touches hsize zcl
    refine ⟨hwithin, hloads, ?_⟩
    rintro cells source first text rfl hstring henough
    exact window_copyZclString hsize cells hstring henough
  obtain ⟨clientAll, serverAll, hmatched, hblocked, hresults, -⟩ := matched_session
    (answeredApi (answering status records meanwhile)) pppUartIsConnected clientConnected hlink
    hattached [.readBasic shortAddr ep timeoutMs] firmware
  rw [nativeResults_readBasic status records shortAddr ep timeoutMs meanwhile pppUartIsConnected
    clientConnected haccepted] at hresults
  refine ⟨basicOf status records, clientAll.cost + serverAll.cost +
    2 * (clientAll.output.length + serverAll.output.length), intact_fieldOf hmanufacturer,
    intact_fieldOf hmodel, fun labels connection hrun hopen ↦ ?_⟩
  obtain ⟨hmarks, -, hcount⟩ := Connection.marks_prefix hmatched hblocked hrun hopen
  refine ⟨hresults ▸ hmarks, fun hdone ↦ ?_, hcount, ?_⟩
  · rw [← hresults]
    exact Connection.client_done hmatched hblocked hrun hopen hdone
  · exact (productive_or_complete _ pppUartIsConnected clientConnected hlink hattached _ _ hrun
      hopen).imp_right And.left

end Answered

/-- A response with a model name that is too long for its field, after a shorter one, and no name of
a manufacturer. -/
def longName : List ReadAttrVariable :=
  [⟨zclStatusSuccess, attrModelIdentifier, some [2, 0x41, 0x42]⟩, ⟨0x86, attrManufacturerName, none⟩,
    ⟨zclStatusSuccess, attrModelIdentifier, some (200 :: List.replicate 40 0x5A)⟩]

theorem device_strings_intact_long :
    ∃ out : ZigbeeBasic, out.manufacturer.bytes = List.replicate 16 0 ∧
      out.model.bytes = List.replicate 15 0x5A ++ [0] ∧
      ∃ bound : ℕ, ∀ (labels : List Foundation.Happening)
        (connection : Connection ClientState ApiValue Unit Firmware ServerMark (Bool × ErrorCode)),
        Run (Connection.Step (serveAgain (pure true) (handlersOf
            (handle (answeredApi (answering zclStatusSuccess longName (.nothing _))) (pure true)
              (pure true)) dispatchOrder)))
          (Connection.start (performAll [.readBasic 0x1956 10 15000]) ⟨3⟩
            (serveClient (pure true) (handlersOf
              (handle (answeredApi (answering zclStatusSuccess longName (.nothing _))) (pure true)
                (pure true)) dispatchOrder)) Firmware.blank)
          labels connection →
        connection.clientOpen = true →
        labels.countP Foundation.Happening.productive ≤ bound ∧
          (connection.client.prog = .done () → connection.client.marks = [.basic out]) := by
  have hmanufacturer : lastString attrManufacturerName longName = none := by decide
  have hmodel : lastString attrModelIdentifier longName =
      some (some (200 :: List.replicate 40 0x5A)) := by decide
  obtain ⟨⟨out, bound, hfirst, hsecond, hall⟩, -⟩ := device_strings_intact zclStatusSuccess longName
    0x1956 10 15000 (.nothing _) (pure true) (pure true)
    (by rw [hmanufacturer]; exact fun _ h ↦ absurd h (by simp))
    (by rw [hmodel]; exact fun _ h ↦ ⟨200, _, (Option.some.inj h).symm, by decide⟩)
    (show Firmware.blank.outside.requestErr = ezbErrNone from rfl) (fun _ ↦ rfl) attached_three
  refine ⟨out, hfirst.absent hmanufacturer, hsecond.text _ _ hmodel, bound,
    fun labels connection hrun hopen ↦ ?_⟩
  obtain ⟨-, hdone, hcount, -⟩ := hall labels connection hrun hopen
  exact ⟨hcount, hdone⟩

end ZigbeeRemote.System
