import Mathlib.Data.Nat.Bitwise
import Srtla.Lib.Bytes

/-!
# Packet classification (`src/common.h`, `src/common.c`)

Constants of the SRT and SRTLA packet formats and the functions both programs
use to classify a packet. A packet is memory `pkt : Mem` together with the
number `n : ℤ` of bytes received, as the C functions take it (`recvfrom` may
return `-1`). The receiver, which works on whole datagrams, calls them on
`mem b` and `b.length`.

`padSendto.h` is here too: `padWire` is what reaches the wire and `padRet` the
value returned to the caller.
-/

namespace Srtla

open Lib

/-! ## Constants (`src/common.h:28-58`) -/

def mtu : ℕ := 1500

def srtTypeHandshake : ℕ := 0x8000
def srtTypeAck : ℕ := 0x8002
def srtTypeNak : ℕ := 0x8003
def srtTypeShutdown : ℕ := 0x8005

def srtlaTypeKeepalive : ℕ := 0x9000
def srtlaTypeAck : ℕ := 0x9100
def srtlaTypeReg1 : ℕ := 0x9200
def srtlaTypeReg2 : ℕ := 0x9201
def srtlaTypeReg3 : ℕ := 0x9202
def srtlaTypeRegErr : ℕ := 0x9210
def srtlaTypeRegNgp : ℕ := 0x9211
def srtlaTypeRegNak : ℕ := 0x9212

def srtlaKeepaliveMagic : ℕ := 0xC01F
def srtlaKeepaliveExtLen : ℕ := 38
def srtlaKeepaliveExtVersion : ℕ := 0x0001

def srtMinLen : ℕ := 16

def srtlaIdLen : ℕ := 256
def srtlaTypeReg1Len : ℕ := 2 + srtlaIdLen
def srtlaTypeReg2Len : ℕ := 2 + srtlaIdLen
def srtlaTypeReg3Len : ℕ := 2

/-- `sizeof(srt_header_t)`. -/
def sizeofSrtHeader : ℕ := 16

/-- `sizeof(srt_handshake_t)`: the header, eight fields and `peer_ip`. -/
def sizeofSrtHandshake : ℕ := 64

/-- `SRT_REJECTION_CODE_BASE`. -/
def srtRejectionCodeBase : ℕ := 1000

/-- A group id: `std::array<char, SRTLA_ID_LEN>` in the receiver and
    `char srtla_id[SRTLA_ID_LEN]` in the sender. -/
abbrev SrtlaId := Block 256

/-- Half of an id, as generated by one of the two parties. -/
abbrev IdHalf := Block 128

/-- The half chosen by the sender: the first `SRTLA_ID_LEN / 2` bytes. -/
def SrtlaId.firstHalf (id : SrtlaId) : IdHalf := ⟨id.bytes.take 128, by simp [id.length_eq]⟩

/-- The half chosen by the receiver. -/
def SrtlaId.secondHalf (id : SrtlaId) : IdHalf := ⟨id.bytes.drop 128, by simp [id.length_eq]⟩

/-- The id with the two given halves. -/
def SrtlaId.ofHalves (first second : IdHalf) : SrtlaId :=
  ⟨first.bytes ++ second.bytes, by simp [first.length_eq, second.length_eq]⟩

@[simp] theorem SrtlaId.firstHalf_ofHalves (a b : IdHalf) : (SrtlaId.ofHalves a b).firstHalf = a := by
  apply Block.ext
  simp only [SrtlaId.firstHalf, SrtlaId.ofHalves]
  exact List.take_left' a.length_eq

theorem SrtlaId.firstHalf_readBlock (m : Mem) (off : ℕ) :
    SrtlaId.firstHalf (readBlock m off 256) = readBlock m off 128 :=
  Block.ext (take_window m off (by decide : 128 ≤ 256))

@[simp] theorem SrtlaId.secondHalf_ofHalves (a b : IdHalf) :
    (SrtlaId.ofHalves a b).secondHalf = b := by
  apply Block.ext
  simp only [SrtlaId.secondHalf, SrtlaId.ofHalves]
  exact List.drop_left' a.length_eq

/-! ## Classification (`src/common.c:94-153`) -/

/-- `get_srt_sn` (`src/common.c:94-104`): the SRT sequence number, or `-1`. -/
def getSrtSn (pkt : Mem) (n : ℤ) : ℤ :=
  if n < 4 then -1
  else
    let sn := be32 pkt 0
    if sn &&& (1 <<< 31) = 0 then (sn : ℤ) else -1

/-- `get_srt_type` (`src/common.c:106-110`). -/
def getSrtType (pkt : Mem) (n : ℤ) : ℕ := if n < 2 then 0 else be16 pkt 0

/-- `is_srt_ack` (`src/common.c:112-114`). -/
def isSrtAck (pkt : Mem) (n : ℤ) : Bool := getSrtType pkt n == srtTypeAck

/-- `is_srt_nak` (`src/common.c:116-118`). -/
def isSrtNak (pkt : Mem) (n : ℤ) : Bool := getSrtType pkt n == srtTypeNak

/-- `is_srtla_keepalive` (`src/common.c:120-122`). -/
def isSrtlaKeepalive (pkt : Mem) (n : ℤ) : Bool := getSrtType pkt n == srtlaTypeKeepalive

/-- `is_srt_shutdown` (`src/common.c:124-126`). -/
def isSrtShutdown (pkt : Mem) (n : ℤ) : Bool := getSrtType pkt n == srtTypeShutdown

/-- `is_srt_handshake_reject` (`src/common.c:128-135`); `handshake_type` is at
    offset 36 of `srt_handshake_t`. -/
def isSrtHandshakeReject (pkt : Mem) (n : ℤ) : Bool :=
  if n < sizeofSrtHandshake then false
  else if getSrtType pkt n ≠ srtTypeHandshake then false
  else
    let hsType := be32 pkt 36
    decide (srtRejectionCodeBase ≤ hsType ∧ hsType < 0x80000000)

/-- `is_srtla_reg1` (`src/common.c:137-141`). -/
def isSrtlaReg1 (pkt : Mem) (len : ℤ) : Bool :=
  if len ≠ srtlaTypeReg1Len then false else getSrtType pkt len == srtlaTypeReg1

/-- `is_srtla_reg2` (`src/common.c:143-147`). -/
def isSrtlaReg2 (pkt : Mem) (len : ℤ) : Bool :=
  if len ≠ srtlaTypeReg2Len then false else getSrtType pkt len == srtlaTypeReg2

/-! ## Extended keepalives (`src/common.c:155-192`) -/

/-- `connection_info_t` (`src/common.h:83-90`). -/
structure ConnectionInfo where
  connId : UInt32
  window : ℤ
  inFlight : ℤ
  rttMs : UInt32
  nakCount : UInt32
  bitrateBytesPerSec : UInt32
deriving DecidableEq

/-- The cast `(int32_t)` of a 32-bit word. -/
def toInt32 (w : ℕ) : ℤ := if w < 2 ^ 31 then (w : ℤ) else (w : ℤ) - 2 ^ 32

/-- `parse_keepalive_conn_info` (`src/common.c:155-192`): `none` when it
    returns 0 and leaves `*info` alone. -/
def parseKeepaliveConnInfo (buf : Mem) (len : ℤ) : Option ConnectionInfo :=
  if len < srtlaKeepaliveExtLen then none
  else if be16 buf 0 ≠ srtlaTypeKeepalive then none
  else if be16 buf 10 ≠ srtlaKeepaliveMagic then none
  else if be16 buf 12 ≠ srtlaKeepaliveExtVersion then none
  else some
    { connId := UInt32.ofNat (be32 buf 14)
      window := toInt32 (be32 buf 18)
      inFlight := toInt32 (be32 buf 22)
      rttMs := UInt32.ofNat (be32 buf 26)
      nakCount := UInt32.ofNat (be32 buf 30)
      bitrateBytesPerSec := UInt32.ofNat (be32 buf 34) }

/-! ## `pad_sendto` (`src/protocol/pad_sendto.h:5-13`) -/

/-- The bytes `pad_sendto` passes to `sendto`: buffers below 32 bytes are
    filled up with zeros. -/
def padWire (buf : Bytes) : Bytes :=
  if buf.length ≥ 32 then buf else buf ++ List.replicate (32 - buf.length) 0

/-- What `pad_sendto` returns when `sendto` returns `ret`. -/
def padRet (len : ℕ) (ret : ℤ) : ℤ := if len ≥ 32 then ret else if ret = 32 then (len : ℤ) else ret

/-! ## Sequence numbers -/

theorem toInt32_of_lt {w : ℕ} (h : w < 2 ^ 31) : toInt32 w = w := by
  unfold toInt32
  rw [if_pos h]

theorem and_top_bit_eq_zero_iff {sn : ℕ} (h : sn < 2 ^ 32) : sn &&& (1 <<< 31) = 0 ↔ sn < 2 ^ 31 := by
  rw [Nat.shiftLeft_eq, one_mul, Nat.and_two_pow, Nat.testBit_eq_decide_div_mod_eq]
  by_cases h0 : sn / 2 ^ 31 % 2 = 1
  · rw [decide_eq_true h0, Bool.toNat_true]
    omega
  · rw [decide_eq_false h0, Bool.toNat_false]
    omega

/-- A data packet of at least four bytes: its sequence number is the first word. -/
theorem getSrtSn_eq {pkt : Mem} {n : ℤ} (hn : 4 ≤ n) :
    getSrtSn pkt n = if be32 pkt 0 < 2 ^ 31 then (be32 pkt 0 : ℤ) else -1 := by
  unfold getSrtSn
  rw [if_neg (by omega)]
  simp only [and_top_bit_eq_zero_iff (be32_lt pkt 0)]

theorem getSrtSn_nonneg_iff {pkt : Mem} {n : ℤ} (hn : 4 ≤ n) :
    0 ≤ getSrtSn pkt n ↔ be32 pkt 0 < 2 ^ 31 := by
  rw [getSrtSn_eq hn]
  split_ifs with h
  · simpa using h
  · simpa using h

/-! ## Registration frames -/

/-- A frame of the given type that carries an id. -/
def regFrame (type : ℕ) (id : SrtlaId) : Bytes := putBe16 type ++ id.bytes

/-- The REG1 frame a sender builds. -/
def reg1Frame (id : SrtlaId) : Bytes := regFrame srtlaTypeReg1 id

/-- The REG2 frame: the receiver's reply to a REG1, and a sender's request to
    join the group. -/
def reg2Frame (id : SrtlaId) : Bytes := regFrame srtlaTypeReg2 id

theorem length_regFrame (type : ℕ) (id : SrtlaId) : (regFrame type id).length = 258 := by
  rw [regFrame, List.length_append, length_putBe16, id.length_eq]

theorem getSrtType_regFrame {type : ℕ} (h : type < 65536) (id : SrtlaId) :
    getSrtType (mem (regFrame type id)) (regFrame type id).length = type := by
  unfold getSrtType
  rw [length_regFrame, if_neg (by decide)]
  exact be16_putBe16 h id.bytes

/-- The id is read back from offset 2. -/
theorem readBlock_regFrame (type : ℕ) (id : SrtlaId) :
    readBlock (mem (regFrame type id)) 2 256 = id := by
  apply Block.ext
  have h := window_append (putBe16 type) id.bytes []
  rw [id.length_eq, List.append_nil] at h
  exact h

theorem readBlock_regFrame_half (type : ℕ) (id : SrtlaId) :
    readBlock (mem (regFrame type id)) 2 128 = id.firstHalf := by
  apply Block.ext
  have h := congrArg (fun b => b.bytes.take 128) (readBlock_regFrame type id)
  simp only [readBlock] at h
  rw [take_window _ _ (by decide)] at h
  exact h

theorem isSrtlaReg1_reg1Frame (id : SrtlaId) :
    isSrtlaReg1 (mem (reg1Frame id)) (reg1Frame id).length = true := by
  unfold isSrtlaReg1 reg1Frame
  rw [getSrtType_regFrame (by decide), length_regFrame]
  rfl

theorem isSrtlaReg2_reg2Frame (id : SrtlaId) :
    isSrtlaReg2 (mem (reg2Frame id)) (reg2Frame id).length = true := by
  unfold isSrtlaReg2 reg2Frame
  rw [getSrtType_regFrame (by decide), length_regFrame]
  rfl

end Srtla
