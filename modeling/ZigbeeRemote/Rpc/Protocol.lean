import ZigbeeRemote.Foundation.PackedLayout

/-!
# The wire format

The types of `zb_rpc_shared/include/zb_rpc/protocol.hpp`: the little-endian wrappers `le16` and
`le32` with their conversions, the numbers of `api_id` and `error_code`, the frame header, the
packed request and response structures, and the catalogue `desc` of the thirteen calls.

`WireType` is what the engine asks of a payload type: it is `EmptyReq`, which is never put on the
wire, or a type of at most `k_max_payload` bytes whose object representation is. `sizeof EmptyReq`
is one, as in C++; `wireSize` is the number of bytes a payload takes on the wire, and
`wireBytes` those bytes. The round trips `fromLe16_toLe16`, `fromLe32_toLe32` and `ofWire_wireBytes`
are what every later result about values rests on.
-/

set_option autoImplicit false
set_option relaxedAutoImplicit false

namespace ZigbeeRemote.Rpc

open Foundation

/-! ### Constants -/

/-- `k_magic`, the letters `RPC2` in little-endian order. -/
def kMagic : UInt32 := 0x32435052

/-- `k_max_payload`. -/
def kMaxPayload : UInt32 := 64

/-! ### Little-endian wrappers -/

/-- `struct le16`. -/
structure Le16 where
  byte0 : UInt8
  byte1 : UInt8
  deriving DecidableEq

/-- `struct le32`. -/
structure Le32 where
  byte0 : UInt8
  byte1 : UInt8
  byte2 : UInt8
  byte3 : UInt8
  deriving DecidableEq

instance : Packed Le16 := Packed.ofEquiv
  { toFun := fun value ↦ (value.byte0, value.byte1)
    invFun := fun bytes ↦ ⟨bytes.1, bytes.2⟩
    left_inv := fun _ ↦ rfl
    right_inv := fun _ ↦ rfl }

instance : Packed Le32 := Packed.ofEquiv
  { toFun := fun value ↦ (value.byte0, value.byte1, value.byte2, value.byte3)
    invFun := fun bytes ↦ ⟨bytes.1, bytes.2.1, bytes.2.2.1, bytes.2.2.2⟩
    left_inv := fun _ ↦ rfl
    right_inv := fun _ ↦ rfl }

def toLe16 (value : UInt16) : Le16 := ⟨value.toUInt8, (value >>> 8).toUInt8⟩

def fromLe16 (value : Le16) : UInt16 := value.byte0.toUInt16 ||| (value.byte1.toUInt16 <<< 8)

def toLe16S (value : Int16) : Le16 := toLe16 value.toUInt16

def fromLe16S (value : Le16) : Int16 := (fromLe16 value).toInt16

def toLe32 (value : UInt32) : Le32 :=
  ⟨value.toUInt8, (value >>> 8).toUInt8, (value >>> 16).toUInt8, (value >>> 24).toUInt8⟩

def fromLe32 (value : Le32) : UInt32 :=
  value.byte0.toUInt32 ||| (value.byte1.toUInt32 <<< 8) ||| (value.byte2.toUInt32 <<< 16) |||
    (value.byte3.toUInt32 <<< 24)

def toLe32S (value : Int32) : Le32 := toLe32 value.toUInt32

def fromLe32S (value : Le32) : Int32 := (fromLe32 value).toInt32

@[simp] theorem fromLe16_toLe16 (value : UInt16) : fromLe16 (toLe16 value) = value := by
  apply UInt16.eq_of_toBitVec_eq
  ext i hi
  simp only [fromLe16, toLe16, UInt16.toBitVec_or, UInt16.toBitVec_shiftLeft,
    UInt16.toBitVec_shiftRight, UInt8.toBitVec_toUInt16, UInt16.toBitVec_toUInt8]
  simp
  grind

@[simp] theorem fromLe32_toLe32 (value : UInt32) : fromLe32 (toLe32 value) = value := by
  apply UInt32.eq_of_toBitVec_eq
  ext i hi
  simp only [fromLe32, toLe32, UInt32.toBitVec_or, UInt32.toBitVec_shiftLeft,
    UInt32.toBitVec_shiftRight, UInt8.toBitVec_toUInt32, UInt32.toBitVec_toUInt8]
  simp
  grind

@[simp] theorem toLe32_fromLe32 (value : Le32) : toLe32 (fromLe32 value) = value := by
  obtain ⟨byte0, byte1, byte2, byte3⟩ := value
  simp only [fromLe32, toLe32, Le32.mk.injEq]
  refine ⟨?_, ?_, ?_, ?_⟩
  all_goals
    apply UInt8.eq_of_toBitVec_eq
    ext i hi
    simp only [UInt32.toBitVec_or, UInt32.toBitVec_shiftLeft, UInt32.toBitVec_shiftRight,
      UInt8.toBitVec_toUInt32, UInt32.toBitVec_toUInt8]
    simp <;> grind

@[simp] theorem fromLe16S_toLe16S (value : Int16) : fromLe16S (toLe16S value) = value := by
  simp [fromLe16S, toLe16S]

@[simp] theorem fromLe32S_toLe32S (value : Int32) : fromLe32S (toLe32S value) = value := by
  simp [fromLe32S, toLe32S]

/-! ### Payload types -/

/-- A type the engine accepts as a payload: `EmptyReq`, or a type of at most `k_max_payload` bytes
with its object representation. -/
class WireType (T : Type) where
  /-- `std::is_same_v<T, EmptyReq>`. -/
  emptyReq : Bool
  sizeof : ℕ
  toBytes : T → Bytes
  ofBytes : Bytes → T
  sizeof_pos : 0 < sizeof
  sizeof_le : sizeof ≤ kMaxPayload.toNat
  length_toBytes : ∀ value, (toBytes value).length = sizeof
  ofBytes_toBytes : ∀ value, ofBytes (toBytes value) = value
  toBytes_ofBytes : emptyReq = false → ∀ bytes, bytes.length = sizeof →
    toBytes (ofBytes bytes) = bytes
  eq_of_emptyReq : emptyReq = true → ∀ value other : T, value = other

namespace WireType

variable {T : Type} [WireType T]

/-- The value-initialised object `T{}`. -/
def init (T : Type) [WireType T] : T := ofBytes (List.replicate (sizeof T) 0)

/-- The number of bytes a payload of this type takes on the wire. -/
def wireSize (T : Type) [WireType T] : ℕ := if emptyReq T then 0 else sizeof T

/-- The bytes of a payload on the wire. -/
def wireBytes (value : T) : Bytes := if emptyReq T then [] else toBytes value

/-- The payload that given bytes on the wire stand for. -/
def ofWire (T : Type) [WireType T] (bytes : Bytes) : T :=
  if emptyReq T then init T else ofBytes bytes

theorem wireSize_le : wireSize T ≤ kMaxPayload.toNat := by
  unfold wireSize
  split_ifs
  · exact Nat.zero_le _
  · exact sizeof_le

@[simp] theorem length_wireBytes (value : T) : (wireBytes value).length = wireSize T := by
  unfold wireBytes wireSize
  split_ifs
  · rfl
  · exact length_toBytes value

@[simp] theorem ofWire_wireBytes (value : T) : ofWire T (wireBytes value) = value := by
  unfold wireBytes ofWire
  split_ifs with hempty
  · exact eq_of_emptyReq hempty _ _
  · exact ofBytes_toBytes value

theorem wireBytes_ofWire {bytes : Bytes} (hlength : bytes.length = wireSize T) :
    wireBytes (ofWire T bytes) = bytes := by
  unfold wireBytes ofWire
  unfold wireSize at hlength
  split_ifs at hlength ⊢ with hempty
  · exact (List.length_eq_zero_iff.mp hlength).symm
  · exact toBytes_ofBytes (by simpa using hempty) bytes hlength

/-- A packed structure of at most `k_max_payload` bytes is a payload type. -/
@[reducible] def ofPacked (T : Type) [Packed T] (hpos : 0 < Packed.size T)
    (hle : Packed.size T ≤ kMaxPayload.toNat) : WireType T where
  emptyReq := false
  sizeof := Packed.size T
  toBytes := Packed.toBytes
  ofBytes := Packed.ofBytes
  sizeof_pos := hpos
  sizeof_le := hle
  length_toBytes := Packed.length_toBytes
  ofBytes_toBytes := Packed.ofBytes_toBytes
  toBytes_ofBytes := fun _ ↦ Packed.toBytes_ofBytes
  eq_of_emptyReq := fun hempty ↦ Bool.noConfusion hempty

end WireType

/-! ### Headers -/

/-- `enum class api_id : uint32_t`. Any 32-bit number can arrive in a header. -/
abbrev ApiId := UInt32

/-- `api_id::error`. -/
def ApiId.error : ApiId := 0

/-- `enum class error_code : uint32_t`. -/
inductive ErrorCode : Type
  | none
  | badMagic
  | oversizedPayload
  | unknownApi
  | payloadMismatch
  deriving DecidableEq

/-- The number of an error code on the wire. -/
def ErrorCode.code : ErrorCode → UInt32
  | .none => 0
  | .badMagic => 1
  | .oversizedPayload => 2
  | .unknownApi => 3
  | .payloadMismatch => 4

/-- `struct WireHeader`. -/
structure WireHeader where
  magic : Le32
  id : Le32
  size : Le32
  deriving DecidableEq

instance : Packed WireHeader := Packed.ofEquiv
  { toFun := fun header ↦ (header.magic, header.id, header.size)
    invFun := fun members ↦ ⟨members.1, members.2.1, members.2.2⟩
    left_inv := fun _ ↦ rfl
    right_inv := fun _ ↦ rfl }

/-- `struct FrameHeader`. -/
structure FrameHeader where
  id : ApiId
  size : UInt32
  deriving DecidableEq

/-- The twelve bytes of a header. -/
def headerBytes (magic id size : UInt32) : Bytes :=
  Packed.toBytes (⟨toLe32 magic, toLe32 id, toLe32 size⟩ : WireHeader)

@[simp] theorem length_headerBytes (magic id size : UInt32) :
    (headerBytes magic id size).length = 12 :=
  Packed.length_toBytes _

/-- Every run of twelve bytes is a header. -/
theorem exists_headerBytes {bytes : Bytes} (hlength : bytes.length = 12) :
    ∃ magic id size, bytes = headerBytes magic id size := by
  have hbytes := Packed.toBytes_ofBytes (T := WireHeader) bytes hlength
  refine ⟨fromLe32 (Packed.ofBytes bytes : WireHeader).magic,
    fromLe32 (Packed.ofBytes bytes : WireHeader).id,
    fromLe32 (Packed.ofBytes bytes : WireHeader).size, ?_⟩
  simp only [headerBytes, toLe32_fromLe32]
  exact hbytes.symm

theorem headerBytes_inj {magic id size magic' id' size' : UInt32}
    (hequal : headerBytes magic id size = headerBytes magic' id' size') :
    magic = magic' ∧ id = id' ∧ size = size' := by
  have hwire := congrArg (Packed.ofBytes (T := WireHeader)) hequal
  simp only [headerBytes, Packed.ofBytes_toBytes, WireHeader.mk.injEq] at hwire
  obtain ⟨hmagic, hid, hsize⟩ := hwire
  refine ⟨?_, ?_, ?_⟩
  · simpa using congrArg fromLe32 hmagic
  · simpa using congrArg fromLe32 hid
  · simpa using congrArg fromLe32 hsize

/-- A frame: a header with the right magic, followed by a payload. -/
def frame (id : ApiId) (payload : Bytes) : Bytes :=
  headerBytes kMagic id (UInt32.ofNat payload.length) ++ payload

@[simp] theorem length_frame (id : ApiId) (payload : Bytes) :
    (frame id payload).length = 12 + payload.length := by
  rw [frame, List.length_append, length_headerBytes]

/-- A payload the protocol allows has its length in the size field. -/
theorem toNat_ofNat_of_le {length : ℕ} (hle : length ≤ kMaxPayload.toNat) :
    (UInt32.ofNat length).toNat = length := by
  have hmax : kMaxPayload.toNat = 64 := rfl
  rw [UInt32.toNat_ofNat']
  omega

theorem ofNat_le_kMaxPayload {length : ℕ} (hle : length ≤ kMaxPayload.toNat) :
    UInt32.ofNat length ≤ kMaxPayload := by
  rw [UInt32.le_iff_toNat_le, toNat_ofNat_of_le hle]
  exact hle

/-! ### Requests and responses -/

structure ErrorResp where
  code : Le32
  deriving DecidableEq

structure EmptyReq where
  deriving DecidableEq

structure U8Resp where
  value : UInt8
  deriving DecidableEq

structure U16Resp where
  value : Le16
  deriving DecidableEq

structure I16Resp where
  value : Le16
  deriving DecidableEq

structure I32Resp where
  value : Le32
  deriving DecidableEq

structure OpenNetworkReq where
  duration : UInt8
  deriving DecidableEq

structure FindSensorReq where
  shortAddr : Le16
  deriving DecidableEq

/-- `zb_addr_t`. -/
structure ZbAddr where
  err : Le32
  shortAddr : Le16
  ep : UInt8
  deriving DecidableEq

/-- `zb_basic_t`. -/
structure ZbBasic where
  err : Le32
  manufacturer : FixedBytes 16
  model : FixedBytes 16
  deriving DecidableEq

/-- `zb_temp_t`. -/
structure ZbTemp where
  err : Le32
  measured : Le16
  minMeasured : Le16
  maxMeasured : Le16
  tolerance : Le16
  deriving DecidableEq

instance : Packed ErrorResp := Packed.ofEquiv
  ⟨ErrorResp.code, ErrorResp.mk, fun _ ↦ rfl, fun _ ↦ rfl⟩

instance : Packed U8Resp := Packed.ofEquiv
  ⟨U8Resp.value, U8Resp.mk, fun _ ↦ rfl, fun _ ↦ rfl⟩

instance : Packed U16Resp := Packed.ofEquiv
  ⟨U16Resp.value, U16Resp.mk, fun _ ↦ rfl, fun _ ↦ rfl⟩

instance : Packed I16Resp := Packed.ofEquiv
  ⟨I16Resp.value, I16Resp.mk, fun _ ↦ rfl, fun _ ↦ rfl⟩

instance : Packed I32Resp := Packed.ofEquiv
  ⟨I32Resp.value, I32Resp.mk, fun _ ↦ rfl, fun _ ↦ rfl⟩

instance : Packed OpenNetworkReq := Packed.ofEquiv
  ⟨OpenNetworkReq.duration, OpenNetworkReq.mk, fun _ ↦ rfl, fun _ ↦ rfl⟩

instance : Packed FindSensorReq := Packed.ofEquiv
  ⟨FindSensorReq.shortAddr, FindSensorReq.mk, fun _ ↦ rfl, fun _ ↦ rfl⟩

instance : Packed ZbAddr := Packed.ofEquiv
  { toFun := fun value ↦ (value.err, value.shortAddr, value.ep)
    invFun := fun members ↦ ⟨members.1, members.2.1, members.2.2⟩
    left_inv := fun _ ↦ rfl
    right_inv := fun _ ↦ rfl }

instance : Packed ZbBasic := Packed.ofEquiv
  { toFun := fun value ↦ (value.err, value.manufacturer, value.model)
    invFun := fun members ↦ ⟨members.1, members.2.1, members.2.2⟩
    left_inv := fun _ ↦ rfl
    right_inv := fun _ ↦ rfl }

instance : Packed ZbTemp := Packed.ofEquiv
  { toFun := fun value ↦
      (value.err, value.measured, value.minMeasured, value.maxMeasured, value.tolerance)
    invFun := fun members ↦
      ⟨members.1, members.2.1, members.2.2.1, members.2.2.2.1, members.2.2.2.2⟩
    left_inv := fun _ ↦ rfl
    right_inv := fun _ ↦ rfl }

/-- An empty class has size one in C++. -/
instance : WireType EmptyReq where
  emptyReq := true
  sizeof := 1
  toBytes := fun _ ↦ [0]
  ofBytes := fun _ ↦ ⟨⟩
  sizeof_pos := Nat.one_pos
  sizeof_le := by decide
  length_toBytes := fun _ ↦ rfl
  ofBytes_toBytes := fun _ ↦ rfl
  toBytes_ofBytes := fun hempty ↦ Bool.noConfusion hempty
  eq_of_emptyReq := fun _ _ _ ↦ rfl

instance : WireType ErrorResp := .ofPacked ErrorResp (by decide) (by decide)
instance : WireType U8Resp := .ofPacked U8Resp (by decide) (by decide)
instance : WireType U16Resp := .ofPacked U16Resp (by decide) (by decide)
instance : WireType I16Resp := .ofPacked I16Resp (by decide) (by decide)
instance : WireType I32Resp := .ofPacked I32Resp (by decide) (by decide)
instance : WireType OpenNetworkReq := .ofPacked OpenNetworkReq (by decide) (by decide)
instance : WireType FindSensorReq := .ofPacked FindSensorReq (by decide) (by decide)
instance : WireType ZbAddr := .ofPacked ZbAddr (by decide) (by decide)
instance : WireType ZbBasic := .ofPacked ZbBasic (by decide) (by decide)
instance : WireType ZbTemp := .ofPacked ZbTemp (by decide) (by decide)

/-! ### The catalogue -/

/-- `rpc_desc<Id, Req, Resp>`. -/
structure RpcDesc where
  id : ApiId
  Req : Type
  Resp : Type
  [wireReq : WireType Req]
  [wireResp : WireType Resp]

attribute [instance] RpcDesc.wireReq RpcDesc.wireResp

/-- The calls of the catalogue, by name. -/
inductive Api : Type
  | getShortAddr
  | getPanid
  | getChannel
  | openNetwork
  | waitAnnce
  | findSensor
  | readBasic
  | bindSensor
  | subscribeSensor
  | configReport
  | readTemp
  | getLastTemp
  | getSensorAddr
  deriving DecidableEq

/-- The enumerators of `api_id` other than `error`. -/
def Api.id : Api → ApiId
  | .getShortAddr => 1
  | .getPanid => 2
  | .getChannel => 3
  | .openNetwork => 4
  | .waitAnnce => 5
  | .findSensor => 6
  | .readBasic => 7
  | .bindSensor => 8
  | .subscribeSensor => 9
  | .configReport => 10
  | .readTemp => 11
  | .getLastTemp => 12
  | .getSensorAddr => 13

/-- The aliases of namespace `desc`. -/
@[reducible] def desc : Api → RpcDesc
  | .getShortAddr => ⟨Api.id .getShortAddr, EmptyReq, U16Resp⟩
  | .getPanid => ⟨Api.id .getPanid, EmptyReq, U16Resp⟩
  | .getChannel => ⟨Api.id .getChannel, EmptyReq, U8Resp⟩
  | .openNetwork => ⟨Api.id .openNetwork, OpenNetworkReq, I32Resp⟩
  | .waitAnnce => ⟨Api.id .waitAnnce, EmptyReq, U16Resp⟩
  | .findSensor => ⟨Api.id .findSensor, FindSensorReq, ZbAddr⟩
  | .readBasic => ⟨Api.id .readBasic, ZbAddr, ZbBasic⟩
  | .bindSensor => ⟨Api.id .bindSensor, ZbAddr, I32Resp⟩
  | .subscribeSensor => ⟨Api.id .subscribeSensor, ZbAddr, I32Resp⟩
  | .configReport => ⟨Api.id .configReport, ZbAddr, I32Resp⟩
  | .readTemp => ⟨Api.id .readTemp, ZbAddr, ZbTemp⟩
  | .getLastTemp => ⟨Api.id .getLastTemp, EmptyReq, I16Resp⟩
  | .getSensorAddr => ⟨Api.id .getSensorAddr, EmptyReq, U16Resp⟩

@[simp] theorem desc_id (api : Api) : (desc api).id = api.id := by
  cases api <;> rfl

theorem Api.id_injective : Function.Injective Api.id := by
  intro first second h
  cases first <;> cases second <;> first | rfl | exact absurd h (by decide)

theorem Api.id_ne_error (api : Api) : api.id ≠ ApiId.error := by
  cases api <;> decide

end ZigbeeRemote.Rpc
