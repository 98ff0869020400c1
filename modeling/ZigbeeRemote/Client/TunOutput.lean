import ZigbeeRemote.Foundation.BufferWrites
import ZigbeeRemote.Foundation.PackedLayout
import Mathlib.Algebra.GroupWithZero.Nat
import Mathlib.Data.Nat.Basic

/-!
# Packets to the TUN device

`tun_output` of `zb_rpc_client/ppp_lwip.c` and its two callers `ip4_input` and `ip6_input`. A packet
comes as a chain of buffers of the network stack and is gathered behind a header of four bytes in
`in_buf`, from where it is written to the device. `in_buf` is an array of `BUF_SIZE` bytes of
`struct ppp_link` in `ppp_link.c`. Memory goes on behind it, with `out_buf` first, so a packet that is
too long is written all the same.

`insideBuffer_iff` is the exact condition under which a packet stays inside the buffer.
-/

set_option autoImplicit false
set_option relaxedAutoImplicit false

namespace ZigbeeRemote.Client

open Foundation

/-- `BUF_SIZE`. -/
def bufSize : ℕ := 1518

/-- A `struct pbuf` of a chain: its payload, of a length that has 16 bits. -/
structure Pbuf where
  payload : Bytes
  length_lt : payload.length < 2 ^ 16
  deriving DecidableEq

/-- `ip6_header`. -/
def ip6Header : FixedBytes 4 := ⟨[0, 0, 0x86, 0xdd], rfl⟩

/-- `ip4_header`. -/
def ip4Header : FixedBytes 4 := ⟨[0, 0, 0x08, 0], rfl⟩

/-- The values of `err_t` that `tun_output` returns. -/
inductive ErrT : Type
  | ok
  | arg
  | abrt
  deriving DecidableEq

/-- What `tun_output` does: the values of its variable `offset`, its writes to memory from `in_buf`
on, what it hands to `write`, and what it returns. -/
structure TunOutput where
  offsets : List ℕ
  stores : List (Store UInt8)
  handed : Option Bytes
  err : ErrT

/-- The values of `offset`, a `size_t`, along the loop. -/
def runningOffsets : ℕ → List Pbuf → List ℕ
  | offset, [] => [offset]
  | offset, n :: chain => offset :: runningOffsets ((offset + n.payload.length) % 2 ^ 64) chain

/-- The writes of the loop. -/
def gather : ℕ → List Pbuf → List (Store UInt8)
  | _, [] => []
  | offset, n :: chain =>
    storeAt offset n.payload ++ gather ((offset + n.payload.length) % 2 ^ 64) chain

/-- `tun_output`. `tunFd` is `s_io->tun_fd`, if there is an `s_io`; `cells` is memory from `in_buf`
on, and `write` what the system returns for the bytes handed to it. -/
def tunOutput (tunFd : Option Int) (cells : ℕ → UInt8) (write : Bytes → Int) (p : List Pbuf)
    (tunHeader : FixedBytes 4) : TunOutput :=
  match tunFd with
  | none => ⟨[], [], none, .arg⟩
  | some fd =>
    if fd < 0 then ⟨[], [], none, .ok⟩
    else
      let offsets := runningOffsets 4 p
      let stores := storeAt 0 tunHeader.bytes ++ gather 4 p
      let offset := offsets.getLastD 4
      let handed := window (written cells stores) offset
      ⟨offsets, stores, some handed, if write handed ≠ offset then .abrt else .ok⟩

/-- `ip6_input`. -/
def ip6Input (tunFd : Option Int) (cells : ℕ → UInt8) (write : Bytes → Int) (p : List Pbuf) :
    TunOutput :=
  tunOutput tunFd cells write p ip6Header

/-- `ip4_input`; a packet that is forwarded goes to `lwip_ip4_input`. -/
def ip4Input (netdevFwdEnabled : Bool) (tunFd : Option Int) (cells : ℕ → UInt8)
    (write : Bytes → Int) (p : List Pbuf) : Option TunOutput :=
  if netdevFwdEnabled then none else some (tunOutput tunFd cells write p ip4Header)

/-! ### The bound -/

section Bound

/-- The number of bytes of a packet. -/
def totalLength (chain : List Pbuf) : ℕ := (chain.map fun n ↦ n.payload.length).sum

/-- A packet stays inside the buffer: the offset does not pass its end, no write is behind it, and
the header and the segments in order are handed to `write`. -/
structure InsideBuffer (tunHeader : FixedBytes 4) (chain : List Pbuf) (output : TunOutput) : Prop where
  offsets_le : ∀ offset ∈ output.offsets, offset ≤ bufSize
  within : Within bufSize output.stores
  handed : output.handed = some (tunHeader.bytes ++ chain.flatMap Pbuf.payload)

theorem totalLength_cons (n : Pbuf) (chain : List Pbuf) :
    totalLength (n :: chain) = n.payload.length + totalLength chain := by
  simp [totalLength]

/-- The offset does not wrap before it has passed the end of the buffer. -/
theorem offset_step {offset : ℕ} (hoffset : offset ≤ bufSize) (n : Pbuf) :
    (offset + n.payload.length) % 2 ^ 64 = offset + n.payload.length := by
  have hlength := n.length_lt
  have hsize : bufSize = 1518 := rfl
  exact Nat.mod_eq_of_lt (by omega)

theorem offset_mem_runningOffsets (offset : ℕ) (chain : List Pbuf) :
    offset ∈ runningOffsets offset chain := by
  cases chain <;> simp [runningOffsets]

/-- The offset stays inside the buffer exactly when the whole chain fits. -/
theorem runningOffsets_le_iff {offset : ℕ} (hoffset : offset ≤ bufSize) (chain : List Pbuf) :
    (∀ value ∈ runningOffsets offset chain, value ≤ bufSize) ↔
      offset + totalLength chain ≤ bufSize := by
  induction chain generalizing offset with
  | nil => simp [runningOffsets, totalLength, hoffset]
  | cons n chain ih =>
    rw [runningOffsets, List.forall_mem_cons, offset_step hoffset, totalLength_cons]
    by_cases hnext : offset + n.payload.length ≤ bufSize
    · rw [ih hnext, Nat.add_assoc]
      exact and_iff_right hoffset
    · refine iff_of_false (fun hall ↦ ?_) (by omega)
      exact hnext (hall.2 _ (offset_mem_runningOffsets _ chain))

/-- The loop on a chain that fits: where it ends, that it writes inside the buffer, and what the
buffer then holds. -/
theorem gather_fits {offset : ℕ} {chain : List Pbuf}
    (hfits : offset + totalLength chain ≤ bufSize) (cells : ℕ → UInt8) :
    (∀ start, (runningOffsets offset chain).getLastD start = offset + totalLength chain) ∧
      Within bufSize (gather offset chain) ∧
      window (written cells (gather offset chain)) (offset + totalLength chain) =
        window cells offset ++ chain.flatMap Pbuf.payload := by
  induction chain generalizing offset cells with
  | nil => exact ⟨fun _ ↦ by simp [runningOffsets, totalLength], by simp [gather, Within],
      by simp [gather, written, totalLength]⟩
  | cons n chain ih =>
    rw [totalLength_cons] at hfits
    have hoffset : offset ≤ bufSize := by omega
    rw [runningOffsets, gather, offset_step hoffset, totalLength_cons, ← Nat.add_assoc,
      written_append]
    obtain ⟨hlast, hwithin, hwindow⟩ := ih
      (by omega : offset + n.payload.length + totalLength chain ≤ bufSize)
      (written cells (storeAt offset n.payload))
    refine ⟨fun start ↦ ?_, within_append.mpr ⟨within_storeAt (by omega), hwithin⟩, ?_⟩
    · rw [List.getLastD_cons]
      exact hlast offset
    · rw [hwindow, window_written_storeAt_end, List.flatMap_cons, List.append_assoc]

/-- `tun_output` with an open descriptor stays inside the buffer exactly when header and packet fit. -/
theorem insideBuffer_tunOutput_iff {fd : Int} (hopen : 0 ≤ fd) (cells : ℕ → UInt8)
    (write : Bytes → Int) (chain : List Pbuf) (tunHeader : FixedBytes 4) :
    InsideBuffer tunHeader chain (tunOutput (some fd) cells write chain tunHeader) ↔
      4 + totalLength chain ≤ bufSize := by
  have hfour : 4 ≤ bufSize := by decide
  have hheader : tunHeader.bytes.length = 4 := tunHeader.length_eq
  rw [tunOutput, if_neg (Int.not_lt.mpr hopen)]
  constructor
  · intro hinside
    exact (runningOffsets_le_iff hfour chain).mp hinside.offsets_le
  · intro hfits
    obtain ⟨hlast, hwithin, hwindow⟩ := gather_fits hfits (written cells (storeAt 0 tunHeader.bytes))
    refine ⟨(runningOffsets_le_iff hfour chain).mpr hfits,
      within_append.mpr ⟨within_storeAt (by omega), hwithin⟩, ?_⟩
    have hstart : window (written cells (storeAt 0 tunHeader.bytes)) 4 = tunHeader.bytes := by
      have hend : window (written cells (storeAt 0 tunHeader.bytes)) (0 + tunHeader.bytes.length) =
          window cells 0 ++ tunHeader.bytes := window_written_storeAt_end
      rw [hheader] at hend
      exact hend
    dsimp only
    rw [hlast, written_append, hwindow, hstart]

/-- A packet for the TUN device stays inside the buffer, and is written to the device as the header
and all its segments in order, exactly when it has at most 1514 bytes. Assumes: the descriptor is
open; for an IPv4 packet, nothing is forwarded. -/
theorem insideBuffer_iff {fd : Int} (hopen : 0 ≤ fd) (cells : ℕ → UInt8) (write : Bytes → Int)
    (chain : List Pbuf) :
    (InsideBuffer ip6Header chain (ip6Input (some fd) cells write chain) ↔
        totalLength chain ≤ 1514) ∧
      ∃ output, ip4Input false (some fd) cells write chain = some output ∧
        (InsideBuffer ip4Header chain output ↔ totalLength chain ≤ 1514) := by
  have hcondition : 4 + totalLength chain ≤ bufSize ↔ totalLength chain ≤ 1514 := by
    unfold bufSize
    omega
  refine ⟨?_, _, rfl, ?_⟩
  · rw [ip6Input, insideBuffer_tunOutput_iff hopen, hcondition]
  · rw [insideBuffer_tunOutput_iff hopen, hcondition]

/-- A segment in which all bytes are the same. -/
def Pbuf.filled (length : Fin (2 ^ 16)) (value : UInt8) : Pbuf :=
  ⟨List.replicate length value, by rw [List.length_replicate]; exact length.isLt⟩

/-- Two segments of 700 bytes. -/
def shortPacket : List Pbuf := [.filled 700 0xAA, .filled 700 0xBB]

theorem insideBuffer_short :
    InsideBuffer ip6Header shortPacket (ip6Input (some 3) (fun _ ↦ 0) (fun _ ↦ 1404) shortPacket) ∧
      ∃ output, ip4Input false (some 3) (fun _ ↦ 0) (fun _ ↦ 1404) shortPacket = some output ∧
        InsideBuffer ip4Header shortPacket output := by
  have hlength : totalLength shortPacket ≤ 1514 := by decide +kernel
  obtain ⟨hip6, output, houtput, hip4⟩ := insideBuffer_iff
    (by decide : (0 : Int) ≤ 3) (fun _ ↦ 0) (fun _ ↦ 1404) shortPacket
  exact ⟨hip6.mpr hlength, output, houtput, hip4.mpr hlength⟩

/-- A packet of 1536 bytes, in six segments as the pool of the network stack has them. -/
def longPacket : List Pbuf := List.replicate 6 (.filled 256 0xCC)

/-- The offset runs to 1540, past the end of the buffer. -/
theorem outside_buffer :
    ∃ output, ip4Input false (some 3) (fun _ ↦ 0) (fun _ ↦ 1540) longPacket = some output ∧
      output.offsets = [4, 260, 516, 772, 1028, 1284, 1540] ∧ bufSize = 1518 ∧
      ¬ InsideBuffer ip4Header longPacket output := by
  have hoffsets : runningOffsets 4 longPacket = [4, 260, 516, 772, 1028, 1284, 1540] := by
    decide +kernel
  have hmem : 1540 ∈ runningOffsets 4 longPacket := by
    rw [hoffsets]
    decide
  refine ⟨_, rfl, hoffsets, rfl, fun hinside ↦ ?_⟩
  exact absurd (hinside.offsets_le 1540 hmem) (by decide)

end Bound

end ZigbeeRemote.Client
