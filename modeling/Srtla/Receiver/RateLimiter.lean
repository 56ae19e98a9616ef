import Mathlib.Data.List.AList
import Srtla.Common.Address
import Srtla.Receiver.Config

/-!
# The authentication rate limiter (`src/utils/auth_rate_limiter.cpp`)

Failures are counted per source IP; the port is not part of the key. Times are
`time_t` values, modelled as integers.
-/

namespace Srtla.Receiver

open Lib

/-- `AuthRateLimiter::Entry` (`src/utils/auth_rate_limiter.h:30-34`). -/
structure LimiterEntry where
  failures : ℤ := 0
  windowStart : ℤ := 0
  blockedUntil : ℤ := 0
deriving DecidableEq

/-- The table of entries, keyed by the bytes of the string `key_for` builds. -/
abbrev AuthRateLimiter := AList fun _ : Bytes => LimiterEntry

/-- `key_for` (`src/utils/auth_rate_limiter.cpp:12-22`): `"6:"` or `"4:"`
    followed by the raw address. -/
def keyFor (addr : SockaddrStorage) : Bytes :=
  if addr.ssFamily = afInet6 then [0x36, 0x3A] ++ addr.sin6Addr.bytes
  else [0x34, 0x3A] ++ addr.sinAddr.bytes

namespace AuthRateLimiter

/-- `record_failure` (`src/utils/auth_rate_limiter.cpp:24-41`). -/
def recordFailure (l : AuthRateLimiter) (addr : SockaddrStorage) (now : ℤ) : AuthRateLimiter :=
  let entry := (l.lookup (keyFor addr)).getD {}
  let entry :=
    if entry.windowStart = 0 ∨ now - entry.windowStart > authFailWindow then
      { entry with windowStart := now, failures := 0 }
    else entry
  let entry := { entry with failures := entry.failures + 1 }
  let entry :=
    if entry.failures ≥ authFailThreshold then
      { failures := 0, windowStart := 0, blockedUntil := now + authFailCooldown }
    else entry
  l.insert (keyFor addr) entry

/-- `is_blocked` (`src/utils/auth_rate_limiter.cpp:43-49`). -/
def isBlocked (l : AuthRateLimiter) (addr : SockaddrStorage) (now : ℤ) : Bool :=
  match l.lookup (keyFor addr) with
  | none => false
  | some e => decide (e.blockedUntil > now)

/-- `blocked_count` (`src/utils/auth_rate_limiter.cpp:51-59`). -/
def blockedCount (l : AuthRateLimiter) (now : ℤ) : ℕ :=
  l.entries.countP fun e => decide (e.2.blockedUntil > now)

/-- The entries `cleanup` keeps: blocked, or with a window that is still open. -/
def keepEntry (now : ℤ) (e : LimiterEntry) : Bool :=
  decide (e.blockedUntil > now) ||
    (decide (e.windowStart ≠ 0) && decide (now - e.windowStart ≤ authFailWindow))

/-- `cleanup` (`src/utils/auth_rate_limiter.cpp:61-72`). -/
def cleanup (l : AuthRateLimiter) (now : ℤ) : AuthRateLimiter :=
  ⟨l.entries.filter fun e => keepEntry now e.2, List.NodupKeys.sublist List.filter_sublist l.nodupKeys⟩

end AuthRateLimiter

end Srtla.Receiver
