import SessionRouter.Crypto.Cipher
import SessionRouter.Lib.Int64

/-!
# Relay contacts

What the network publishes about a relay.  The timestamp comes off the wire as an unsigned 64-bit
number of seconds that nothing checks, and is kept in a signed one: the comparisons of times below
are those of 64-bit words, which wrap.
-/

namespace SessionRouter

open Lib

structure RelayContact where
  routerId : RouterID
  routerVersion : UInt8 × UInt8 × UInt8
  timestamp : Int
  payload : Bytes
  deriving DecidableEq

namespace RelayContact

def lifetime : Int := 30 * 24 * 3600

def minGossipRcAge : Int := 60

/-- The comparison is one in milliseconds, so the sum in seconds is multiplied first. -/
def isExpired (rc : RelayContact) (now : Int) : Bool :=
  int64 ((rc.timestamp + lifetime) * 1000) ≤ now

def newerThan (rc other : RelayContact) (atLeast : Int) : Bool :=
  atLeast ≤ int64 (rc.timestamp - other.timestamp)

def supportsBuildFrameV1 (rc : RelayContact) : Bool :=
  1 < rc.routerVersion.1 || (rc.routerVersion.1 == 1 && 1 ≤ rc.routerVersion.2.1)

end RelayContact
end SessionRouter
