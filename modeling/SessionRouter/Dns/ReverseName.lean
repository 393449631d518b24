import SessionRouter.Lib.Bencode
import SessionRouter.Lib.DomainName

/-!
# Names of addresses
-/

namespace SessionRouter.Dns

open Lib DomainName Bencode

def findText (text : Bytes) : Bytes → Option Nat
  | [] => if text = [] then some 0 else none
  | byte :: rest =>
    if text.isPrefixOf (byte :: rest) then some 0 else (findText text rest).map (· + 1)

def parseUInt8 (text : Bytes) : Option UInt8 :=
  if text = [] ∨ ¬text.all (fun char => 48 ≤ char && char ≤ 57) then none
  else
    let value := text.foldl (fun value char => value * 10 + (char - 48).toNat) 0
    if 255 < value then none else some (UInt8.ofNat value)

def hexValue (char : UInt8) : Option UInt8 :=
  if 48 ≤ char ∧ char ≤ 57 then some (char - 48)
  else if 97 ≤ char ∧ char ≤ 102 then some (char - 87)
  else if 65 ≤ char ∧ char ≤ 70 then some (char - 55)
  else none

/-- An address that a reverse lookup asks for. -/
inductive PtrAddress where
  | v4 (addr : UInt32)
  | v6 (hi lo : UInt64)
deriving DecidableEq

def decodeNybbles : Nat → Bytes → Option Bytes
  | 0, _ => some []
  | count + 1, low :: dotLow :: high :: dotHigh :: rest =>
    if dotLow = dot ∧ dotHigh = dot then do
      let low ← hexValue low
      let high ← hexValue high
      let bytes ← decodeNybbles count rest
      return (high * 16 + low) :: bytes
    else none
  | _ + 1, _ => none

def decodePtr (name : Bytes) : Option PtrAddress := do
  let (pos, isV6) ←
    match findText (ascii ".in-addr.arpa") name with
    | some pos => some (pos, false)
    | none => (findText (ascii ".ip6.arpa") name).map fun pos => (pos, true)
  let name := name.take (pos + 1)
  let numdots := name.count dot
  if numdots = 4 ∧ isV6 = false then
    match name.splitOn dot with
    | [d, c, b, a, _] =>
      let d ← parseUInt8 d
      let c ← parseUInt8 c
      let b ← parseUInt8 b
      let a ← parseUInt8 a
      return .v4 (UInt32.ofNat (loadBig [a, b, c, d]))
    | _ => none
  else if numdots = 32 ∧ name.length = 64 ∧ isV6 = true then
    let bytes ← decodeNybbles 16 name
    return .v6 (UInt64.ofNat (loadBig (bytes.drop 8).reverse))
      (UInt64.ofNat (loadBig (bytes.take 8).reverse))
  else none

def networkBytes : Nat → Nat → Bytes
  | 0, _ => []
  | count + 1, soaAddr => decimal (soaAddr % 256) ++ dot :: networkBytes count (soaAddr / 256)

def authName (mask4 mask6 : UInt8) : PtrAddress → Bytes
  | .v4 addr =>
    let maskUp := (min 32 (max 1 mask4.toNat) + 7) / 8 * 8
    networkBytes (maskUp / 8) (addr.toNat / 2 ^ (32 - maskUp)) ++ ascii ".in-addr.arpa"
  | .v6 hi lo =>
    let maskUp := (min 128 (max 1 mask6.toNat) + 3) / 4 * 4
    let addr := hi.toNat * 2 ^ 64 + lo.toNat
    let full := (List.range 32).map fun i =>
      (ascii "0123456789abcdef").getD (addr / 2 ^ (4 * (31 - i)) % 16) 0
    dotted ((full.take (maskUp / 4)).reverse.map ([·])) ++ ascii ".ip6.arpa"

end SessionRouter.Dns
