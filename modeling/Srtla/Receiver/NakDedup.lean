import Mathlib.Data.List.AList
import Srtla.Lib.Bytes

/-!
# NAK deduplication (`src/utils/nak_dedup.cpp`)

A group remembers the NAKs it has accepted by a 64-bit FNV hash of the first
bytes of their payload. The `unordered_map` is an `AList`.
-/

namespace Srtla.Receiver

open Lib

/-- `struct NakHashEntry` (`src/utils/nak_dedup.h:9-12`). -/
structure NakHashEntry where
  timestampMs : UInt64 := 0
  repeatCount : ℤ := 0
deriving DecidableEq

/-- `std::unordered_map<uint64_t, NakHashEntry>`. -/
abbrev NakCache := AList fun _ : UInt64 => NakHashEntry

def fnvOffsetBasis : UInt64 := 1469598103934665603
def fnvPrime : UInt64 := 1099511628211
def suppressMs : UInt64 := 100
def maxRepeats : ℤ := 1

/-- `hash_nak_payload` (`src/utils/nak_dedup.cpp:5-23`): the hash of the bytes
    from offset 16 on, at most `prefixBytes` of them if that is not negative. -/
def hashNakPayload (buffer : Mem) (length prefixBytes : ℤ) : UInt64 :=
  if length ≤ 16 then 0
  else
    let payloadLength := (length - 16).toNat
    let payloadLength :=
      if 0 ≤ prefixBytes ∧ prefixBytes.toNat < payloadLength then prefixBytes.toNat
      else payloadLength
    (List.range payloadLength).foldl
      (fun hash i => (hash ^^^ (buffer (16 + i)).toUInt64) * fnvPrime) fnvOffsetBasis

/-- `should_accept_nak` (`src/utils/nak_dedup.cpp:25-50`), with the cache it
    leaves behind. -/
def shouldAcceptNak (cache : NakCache) (hash currentTimeMs : UInt64) : Bool × NakCache :=
  match cache.lookup hash with
  | none => (true, cache.insert hash { timestampMs := currentTimeMs, repeatCount := 0 })
  | some e =>
    if currentTimeMs < e.timestampMs then (false, cache)
    else if currentTimeMs - e.timestampMs < suppressMs then (false, cache)
    else if maxRepeats ≤ e.repeatCount then (false, cache)
    else (true, cache.insert hash { timestampMs := currentTimeMs, repeatCount := e.repeatCount + 1 })

end Srtla.Receiver
