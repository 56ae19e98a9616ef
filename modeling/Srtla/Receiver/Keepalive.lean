import Srtla.Lib.Agree
import Srtla.Lib.Store
import Srtla.Receiver.Ownership

/-!
# Extended keepalives on the wire

A sender with telemetry puts a `connection_info_t` into its keepalives, as 38 bytes at
fixed offsets. `build_ext_ka` (`tests/test_extended_keepalive.cpp:57-68`, and in the same
words `tests/compat/ext-ka-probe/main.cpp:213-223`) writes them and
`parse_keepalive_conn_info` (`src/common.c:155-192`) reads them back. The receiver echoes
every keepalive through `pad_sendto`, which fills up short frames with zeros.

* `parse_buildExtKa`: every field comes back, whatever stands between and after them.
* `parse_padWire`: padding makes no frame long enough to be an extended keepalive.
* `extended_keepalive_exact`: the round trip, what is refused, and the echo.
-/

namespace Srtla

open Lib

/-! ## The encoder -/

/-- The cast `static_cast<uint32_t>` of an `int32_t`. -/
def ofInt32 (w : ℤ) : ℕ := (w % 2 ^ 32).toNat

/-- The values of an `int32_t`. -/
def Int32Range (w : ℤ) : Prop := -2 ^ 31 ≤ w ∧ w < 2 ^ 31

/-- `window` and `in_flight` are of type `int32_t`. -/
structure ConnectionInfo.InRange (info : ConnectionInfo) : Prop where
  window : Int32Range info.window
  inFlight : Int32Range info.inFlight

/-- `build_ext_ka`, on the buffer `out`: the bytes 2 to 9, which have room for a
    timestamp, are left as they are. -/
def buildExtKa (out : Mem) (info : ConnectionInfo) : Mem :=
  let out := store out 0 (putBe16 srtlaTypeKeepalive)
  let out := store out 10 (putBe16 srtlaKeepaliveMagic)
  let out := store out 12 (putBe16 srtlaKeepaliveExtVersion)
  let out := store out 14 (putBe32 info.connId.toNat)
  let out := store out 18 (putBe32 (ofInt32 info.window))
  let out := store out 22 (putBe32 (ofInt32 info.inFlight))
  let out := store out 26 (putBe32 info.rttMs.toNat)
  let out := store out 30 (putBe32 info.nakCount.toNat)
  store out 34 (putBe32 info.bitrateBytesPerSec.toNat)

/-- The extended keepalive as a datagram. -/
def extKeepalive (out : Mem) (info : ConnectionInfo) : Bytes :=
  window (buildExtKa out info) 0 srtlaKeepaliveExtLen

/-- The call `parse_keepalive_conn_info(buf, len, &info)`: what it returns, and `info`
    after it. -/
def parseCall (buf : Bytes) (info : ConnectionInfo) : ℤ × ConnectionInfo :=
  match parseKeepaliveConnInfo (mem buf) buf.length with
  | some parsed => (1, parsed)
  | none => (0, info)

/-! ## The round trip -/

variable {info : ConnectionInfo}

theorem ofInt32_lt (w : ℤ) : ofInt32 w < 4294967296 := by
  unfold ofInt32
  omega

theorem toInt32_ofInt32 {w : ℤ} (h : Int32Range w) : toInt32 (ofInt32 w) = w := by
  obtain ⟨hlo, hhi⟩ := h
  unfold toInt32 ofInt32
  split_ifs <;> omega

/-- The six words of an extended keepalive. -/
theorem be32_buildExtKa (out : Mem) (info : ConnectionInfo) :
    be32 (buildExtKa out info) 14 = info.connId.toNat ∧
    be32 (buildExtKa out info) 18 = ofInt32 info.window ∧
    be32 (buildExtKa out info) 22 = ofInt32 info.inFlight ∧
    be32 (buildExtKa out info) 26 = info.rttMs.toNat ∧
    be32 (buildExtKa out info) 30 = info.nakCount.toNat ∧
    be32 (buildExtKa out info) 34 = info.bitrateBytesPerSec.toNat := by
  unfold buildExtKa
  simp (disch := first | exact UInt32.toNat_lt _ | exact ofInt32_lt _ | (simp only [length_putBe32]; omega)) only
    [be32_store_self, be32_store_apart, and_self]

theorem be16_buildExtKa (out : Mem) (info : ConnectionInfo) :
    be16 (buildExtKa out info) 0 = srtlaTypeKeepalive ∧
    be16 (buildExtKa out info) 10 = srtlaKeepaliveMagic ∧
    be16 (buildExtKa out info) 12 = srtlaKeepaliveExtVersion := by
  unfold buildExtKa
  simp (disch := first | decide | (simp only [length_putBe32, length_putBe16]; omega)) only
    [be16_store_self, be16_store_apart, and_self]

/-- Reading the fields back from the buffer. -/
theorem parse_buildExtKa (h : info.InRange) (out : Mem) {len : ℤ} (hlen : srtlaKeepaliveExtLen ≤ len) :
    parseKeepaliveConnInfo (buildExtKa out info) len = some info := by
  obtain ⟨htype, hmagic, hversion⟩ := be16_buildExtKa out info
  obtain ⟨hconn, hwindow, hflight, hrtt, hnak, hbitrate⟩ := be32_buildExtKa out info
  unfold parseKeepaliveConnInfo
  rw [if_neg (not_lt.mpr hlen), if_neg (not_not_intro htype), if_neg (not_not_intro hmagic),
    if_neg (not_not_intro hversion), hconn, hwindow, hflight, hrtt, hnak, hbitrate, toInt32_ofInt32 h.window,
    toInt32_ofInt32 h.inFlight]
  simp only [UInt32.ofNat_toNat]

/-- The parser looks at the first 38 bytes only. -/
theorem parse_of_agree {m m' : Mem} {len : ℤ} (h : Agree srtlaKeepaliveExtLen m m')
    (hlen : srtlaKeepaliveExtLen ≤ len) :
    parseKeepaliveConnInfo m len = parseKeepaliveConnInfo m' len := by
  unfold parseKeepaliveConnInfo
  rw [if_neg (not_lt.mpr hlen), if_neg (not_lt.mpr hlen), h.be16 0 (by decide), h.be16 10 (by decide),
    h.be16 12 (by decide), h.be32 14 (by decide), h.be32 18 (by decide), h.be32 22 (by decide),
    h.be32 26 (by decide), h.be32 30 (by decide), h.be32 34 (by decide)]

theorem parse_extKeepalive (h : info.InRange) (out : Mem) (trailing : Bytes) :
    parseKeepaliveConnInfo (mem (extKeepalive out info ++ trailing)) (extKeepalive out info ++ trailing).length =
      some info := by
  have hsize : (extKeepalive out info).length = srtlaKeepaliveExtLen := length_window _ _ _
  have hlen : (srtlaKeepaliveExtLen : ℤ) ≤ (extKeepalive out info ++ trailing).length := by
    rw [List.length_append, hsize]
    omega
  have hagree : Agree srtlaKeepaliveExtLen (mem (extKeepalive out info ++ trailing)) (buildExtKa out info) := by
    intro i hi
    have hi' : i < srtlaKeepaliveExtLen := by exact_mod_cast hi
    rw [mem_append_left _ (hsize ▸ hi'), extKeepalive, mem_window hi', Nat.zero_add]
  rw [parse_of_agree hagree hlen, parse_buildExtKa h out hlen]

/-! ## What is refused -/

theorem parse_eq_none_of_short {m : Mem} {len : ℤ} (h : len < srtlaKeepaliveExtLen) :
    parseKeepaliveConnInfo m len = none := if_pos h

theorem parse_eq_none {m : Mem} {len : ℤ}
    (h : len < srtlaKeepaliveExtLen ∨ be16 m 0 ≠ srtlaTypeKeepalive ∨ be16 m 10 ≠ srtlaKeepaliveMagic ∨
      be16 m 12 ≠ srtlaKeepaliveExtVersion) : parseKeepaliveConnInfo m len = none := by
  unfold parseKeepaliveConnInfo
  split_ifs with hshort htype hmagic hversion
  · rfl
  · rfl
  · rfl
  · rfl
  · rcases h with h | h | h | h
    · exact absurd h hshort
    · exact absurd h htype
    · exact absurd h hmagic
    · exact absurd h hversion

/-- Padding leaves frames of 32 bytes and more alone, and shorter ones too short. -/
theorem parse_padWire (b : Bytes) :
    parseKeepaliveConnInfo (mem (padWire b)) (padWire b).length = parseKeepaliveConnInfo (mem b) b.length := by
  unfold padWire
  split_ifs with hlong
  · rfl
  · have hpadded : (b ++ List.replicate (32 - b.length) 0).length = 32 := by
      rw [List.length_append, List.length_replicate]
      omega
    have hshort : (b.length : ℤ) < srtlaKeepaliveExtLen := by
      have : srtlaKeepaliveExtLen = 38 := rfl
      omega
    rw [hpadded, parse_eq_none_of_short hshort, parse_eq_none_of_short (by decide)]

theorem parseCall_some {b : Bytes} {parsed : ConnectionInfo}
    (h : parseKeepaliveConnInfo (mem b) b.length = some parsed) (old : ConnectionInfo) :
    parseCall b old = (1, parsed) := by
  unfold parseCall
  rw [h]

theorem parseCall_none {b : Bytes} (h : parseKeepaliveConnInfo (mem b) b.length = none) (old : ConnectionInfo) :
    parseCall b old = (0, old) := by
  unfold parseCall
  rw [h]

theorem parseCall_padWire (b : Bytes) (old : ConnectionInfo) : parseCall (padWire b) old = parseCall b old := by
  unfold parseCall
  rw [parse_padWire]

/-! ## The echo -/

namespace Receiver

theorem not_isSrtlaReg_of_keepalive {b : Bytes} (h : isSrtlaKeepalive (mem b) b.length = true) :
    isSrtlaReg1 (mem b) b.length = false ∧ isSrtlaReg2 (mem b) b.length = false := by
  have htype : getSrtType (mem b) b.length = srtlaTypeKeepalive := by simpa [isSrtlaKeepalive] using h
  unfold isSrtlaReg1 isSrtlaReg2
  rw [htype]
  constructor <;> split_ifs <;> rfl

/-- A keepalive on a registered connection is echoed to its address, and that is all. -/
theorem step_keepalive {s : State} (h : Inv s) {g : ConnectionGroup} {c : Connection} (hg : g ∈ s.groups)
    (hc : c ∈ g.conns) {b : Bytes} (hb : isSrtlaKeepalive (mem b) b.length = true) (ts : ℤ) (env : PacketEnv) :
    (step s (.packet b c.addr ts env)).2 = [.padSendto .keepaliveEcho c.addr b env.sendtoRet] := by
  obtain ⟨hreg1, hreg2⟩ := not_isSrtlaReg_of_keepalive hb
  have hrelays : relays g b env = false := by
    rw [← onPacket_forward g c b c.addr ts env, onPacket_of_keepalive hb]
  rw [step, processSinglePacket_conn_effects hreg1 hreg2 (findByAddress_registered h hg hc), hrelays,
    Bool.false_and, if_neg (by decide), List.append_nil, onPacket_effects (h.wf g hg).connRefs hc, if_pos hb]

/-- **Extended keepalives survive the wire and the echo.** Whatever the buffer held
    before and whatever follows the frame, the parser returns 1 and the info that was
    written. It returns 0 and leaves `info` alone if the frame is too short or has
    another type, magic or version. And a keepalive that the receiver echoes is parsed
    as the keepalive itself. -/
theorem extended_keepalive_exact :
    (∀ (out : Mem) (info old : ConnectionInfo) (trailing : Bytes), info.InRange →
      parseCall (extKeepalive out info ++ trailing) old = (1, info)) ∧
    (∀ (b : Bytes) (old : ConnectionInfo),
      b.length < 38 ∨ be16 (mem b) 0 ≠ 0x9000 ∨ be16 (mem b) 10 ≠ 0xC01F ∨ be16 (mem b) 12 ≠ 0x0001 →
      parseCall b old = (0, old)) ∧
    ∀ b : Bytes, isSrtlaKeepalive (mem b) b.length = true →
      (∀ old, parseCall (padWire b) old = parseCall b old) ∧
      ∀ s, Reachable s → ∀ g ∈ s.groups, ∀ c ∈ g.conns, ∀ ts env,
        (step s (.packet b c.addr ts env)).2 = [.padSendto .keepaliveEcho c.addr b env.sendtoRet] := by
  refine ⟨fun out info old trailing hrange => ?_, fun b old hbad => ?_, fun b hb => ⟨?_, ?_⟩⟩
  · exact parseCall_some (parse_extKeepalive hrange out trailing) old
  · refine parseCall_none (parse_eq_none (hbad.imp_left fun hshort => ?_)) old
    exact_mod_cast hshort
  · exact parseCall_padWire b
  · intro s hs g hg c hc ts env
    exact step_keepalive (reachable_inv hs) hg hc hb ts env

/-- The smallest `in_flight` and a negative window come back. -/
theorem extended_keepalive_negative :
    parseCall (extKeepalive (fun _ => 0xFF) ⟨7, -1, -2147483648, 30, 2, 250000⟩ ++ [1, 2, 3]) ⟨0, 0, 0, 0, 0, 0⟩ =
      (1, ⟨7, -1, -2147483648, 30, 2, 250000⟩) :=
  extended_keepalive_exact.1 _ _ _ _ ⟨⟨by decide, by decide⟩, ⟨by decide, by decide⟩⟩

end Receiver

end Srtla
