import Srtla.Lib.Bytes

/-!
# Socket addresses

`struct sockaddr_storage` as the receiver reads it: through `sockaddr_in6` when
`ss_family` is `AF_INET6` and through `sockaddr_in` otherwise. The two views
share the port, and `sin_addr` lies where `sin6_flowinfo` does.

* `addressesEqual` (`src/connection/connection_registry.cpp:21-37`) compares
  address and port with `constant_time_compare`, ignoring flow info and scope.
* `addressesEqual_iff`: it is equality of the endpoints, hence an equivalence.
-/

namespace Srtla

open Lib

/-- The fields of `struct sockaddr_storage` that either view reads. -/
structure SockaddrStorage where
  ssFamily : UInt16
  /-- `sin_port` and `sin6_port`, in network byte order. -/
  port : UInt16
  /-- `sin_addr`, or `sin6_flowinfo`. -/
  sinAddr : Block 4
  sin6Addr : Block 16
  sin6ScopeId : UInt32
deriving DecidableEq, Inhabited

def afInet : UInt16 := 2
def afInet6 : UInt16 := 10

/-- `NetworkUtils::constant_time_compare` (`src/utils/network_utils.cpp:166-174`)
    on two arrays of size `n`. -/
def constantTimeCompare {n : ℕ} (a b : Block n) : ℤ := compareBytes (mem a.bytes) (mem b.bytes) n

/-- `addresses_equal` (`src/connection/connection_registry.cpp:21-37`). -/
def addressesEqual (a b : SockaddrStorage) : Bool :=
  if a.ssFamily ≠ b.ssFamily then false
  else if a.ssFamily = afInet6 then
    constantTimeCompare a.sin6Addr b.sin6Addr == 0 && a.port == b.port
  else constantTimeCompare a.sinAddr b.sinAddr == 0 && a.port == b.port

/-- What `addresses_equal` looks at: family, IP address and port. -/
def SockaddrStorage.endpoint (a : SockaddrStorage) : UInt16 × Bytes × UInt16 :=
  (a.ssFamily, if a.ssFamily = afInet6 then a.sin6Addr.bytes else a.sinAddr.bytes, a.port)

theorem constantTimeCompare_eq_zero_iff {n : ℕ} {a b : Block n} :
    constantTimeCompare a b = 0 ↔ a = b :=
  compareBytes_block a b

/-- `addresses_equal` decides equality of endpoints. -/
theorem addressesEqual_iff {a b : SockaddrStorage} :
    addressesEqual a b = true ↔ a.endpoint = b.endpoint := by
  unfold addressesEqual SockaddrStorage.endpoint
  by_cases hf : a.ssFamily = b.ssFamily
  · rw [if_neg (by simpa using hf), hf]
    by_cases h6 : b.ssFamily = afInet6
    · simp [h6, constantTimeCompare_eq_zero_iff, Block.ext_iff]
    · simp [h6, constantTimeCompare_eq_zero_iff, Block.ext_iff]
  · rw [if_pos hf]
    simp [hf]

theorem addressesEqual_refl (a : SockaddrStorage) : addressesEqual a a = true :=
  addressesEqual_iff.mpr rfl

end Srtla
