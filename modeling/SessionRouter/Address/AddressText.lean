import SessionRouter.Handlers.SessionTable
import SessionRouter.Lib.DomainName

/-!
# Addresses as text
-/

namespace SessionRouter

open Lib DomainName

def clientTld : Bytes := ascii "sesh"

def relayTld : Bytes := ascii "snode"

def lokiTld : Bytes := ascii "loki"

def base32zDigits : Bytes := ascii "ybndrfg8ejkmcpqxot1uwisza345h769"

def toBase32zSize (bytes : Nat) : Nat :=
  (bytes * 8 + 4) / 5

def toBase32z (bytes : Bytes) : Bytes :=
  let size := toBase32zSize bytes.length
  let value := loadBig bytes * 2 ^ (5 * size - 8 * bytes.length)
  (List.range size).map fun i => base32zDigits.getD (value / 2 ^ (5 * (size - 1 - i)) % 32) 0

def base32zDigit (char : UInt8) : Option Nat :=
  let lower := if 65 ≤ char ∧ char ≤ 90 then char + 32 else char
  if lower ∈ base32zDigits then some (base32zDigits.idxOf lower) else none

def RouterID.fromBase32z (text : Bytes) : Option RouterID :=
  if text.length ≠ toBase32zSize 32 then none
  else (text.mapM base32zDigit).map fun digits =>
    FixedBytes.ofBytes 32
      (storeBig 32 (digits.foldl (fun value digit => value * 32 + digit) 0 / 16))

def RouterID.toText (rid : RouterID) : Bytes :=
  toBase32z rid.data

namespace NetworkAddress

def withoutSuffix (name suffix : Bytes) : Bytes :=
  name.take (name.length - suffix.length)

def ofText (arg : Bytes) : Option NetworkAddress :=
  if (dot :: relayTld).isSuffixOf arg then
    (RouterID.fromBase32z (withoutSuffix arg (dot :: relayTld))).map fun pubkey => ⟨pubkey, false⟩
  else if (dot :: clientTld).isSuffixOf arg then
    (RouterID.fromBase32z (withoutSuffix arg (dot :: clientTld))).map fun pubkey => ⟨pubkey, true⟩
  else if (dot :: lokiTld).isSuffixOf arg then
    (RouterID.fromBase32z (withoutSuffix arg (dot :: lokiTld))).map fun pubkey => ⟨pubkey, true⟩
  else none

def tld (address : NetworkAddress) : Bytes :=
  if address.isClient then clientTld else relayTld

def toText (address : NetworkAddress) : Bytes :=
  RouterID.toText address.pubkey ++ dot :: address.tld

end NetworkAddress
end SessionRouter
