import SessionRouter.Dns.Message

/-!
# Requests
-/

namespace SessionRouter.Dns

open Lib DomainName

def loadAt (buf : Bytes) (offset width : Nat) : Nat :=
  loadBig ((buf.drop offset).take width)

structure ParsedRR where
  name : Bytes
  rrType : Nat
  rrClass : Nat
  ttl : Nat
  rdata : Bytes

def ParsedRR.extract (buf : Bytes) : Option (ParsedRR × Bytes) :=
  match extractName buf with
  | none => none
  | some (name, buf) =>
    if buf.length < 2 + 2 + 4 + 2 then none
    else if (buf.drop 10).length < loadAt buf 8 2 then none
    else
      some (⟨name, loadAt buf 0 2, loadAt buf 2 2, loadAt buf 4 4,
        (buf.drop 10).take (loadAt buf 8 2)⟩, (buf.drop 10).drop (loadAt buf 8 2))

def Question.extract (buf : Bytes) : Option (Question × Bytes) :=
  match extractName buf with
  | none => none
  | some (name, buf) =>
    if buf.length < 2 + 2 then none
    else
      some (⟨name, UInt16.ofNat (loadAt buf 0 2), UInt16.ofNat (loadAt buf 2 2)⟩, buf.drop 4)

structure RequestContext where
  clientIp : Bytes
  isIp : clientIp.length = 4 ∨ clientIp.length = 16
  shorthash : Bytes → FixedBytes 8
  now : Int

def makeServerCookie (ctx : RequestContext) (clientCookie : FixedBytes 8) (ts : Int) :
    FixedBytes 24 :=
  let fields := [1, 0, 0, 0] ++ storeBig 4 (ttlWord ts)
  ⟨clientCookie.data ++ fields ++
    (ctx.shorthash (clientCookie.data ++ fields ++ ctx.clientIp)).data, by simp [fields]⟩

def extRcodeBadCookie : Nat := 23

def checkCookie (ctx : RequestContext) (edns : PRREdns) (value : FixedBytes 24) : PRREdns :=
  let clientCookie := FixedBytes.ofBytes 8 value.data
  let ts : Int := loadAt value.data 12 4
  let badCookie := decide (value ≠ makeServerCookie ctx clientCookie ts)
  if !badCookie ∧ ctx.now - 30 * 60 ≤ ts ∧ ts ≤ ctx.now + 5 * 60 then
    { edns with cookie := some value }
  else
    let renewed := { edns with cookie := some (makeServerCookie ctx clientCookie ctx.now) }
    if badCookie ∨ ts < ctx.now - 60 * 60 ∨ ctx.now + 5 * 60 < ts then
      { renewed with
        badCookie := true
        ttl := (extRcodeBadCookie / 2 ^ 4 * 2 ^ 24 : Nat) }
    else renewed

def takeCookie (ctx : RequestContext) (edns : PRREdns) (value : Bytes) : PRREdns :=
  match FixedBytes.ofBytes? 24 value with
  | some value => checkCookie ctx edns value
  | none =>
    match FixedBytes.ofBytes? 8 value with
    | some clientCookie => { edns with cookie := some (makeServerCookie ctx clientCookie ctx.now) }
    | none => edns

def parseOptions (ctx : RequestContext) : Nat → PRREdns → Bytes → PRREdns × Bool
  | 0, edns, _ => (edns, true)
  | fuel + 1, edns, optbuf =>
    if optbuf = [] then (edns, true)
    else if optbuf.length < 4 then (edns, false)
    else if (optbuf.drop 4).length < loadAt optbuf 2 2 then (edns, false)
    else if loadAt optbuf 0 2 ≠ PRREdns.optCookie then
      parseOptions ctx fuel edns ((optbuf.drop 4).drop (loadAt optbuf 2 2))
    else if edns.cookie.isSome then (edns, false)
    else
      parseOptions ctx fuel (takeCookie ctx edns ((optbuf.drop 4).take (loadAt optbuf 2 2)))
        ((optbuf.drop 4).drop (loadAt optbuf 2 2))

def qdCount (request : Bytes) : Nat := loadAt request 4 2
def anCount (request : Bytes) : Nat := loadAt request 6 2
def nsCount (request : Bytes) : Nat := loadAt request 8 2
def arCount (request : Bytes) : Nat := loadAt request 10 2

def parseQuestion (request : Bytes) : Option Question × Option Bytes :=
  if qdCount request = 0 then (none, some (request.drop 12))
  else
    match Question.extract (request.drop 12) with
    | some (question, rest) => (some question, some rest)
    | none => (some ⟨[], 0, 0⟩, none)

def skipRecords : Nat → Bytes → Option Bytes
  | 0, buf => some buf
  | count + 1, buf => (ParsedRR.extract buf).bind fun found => skipRecords count found.2

def parseAdditional (ctx : RequestContext) :
    Nat → Option PRREdns → Bytes → Option PRREdns × Bool
  | 0, edns, _ => (edns, true)
  | count + 1, edns, buf =>
    match ParsedRR.extract buf with
    | none => (edns, false)
    | some (record, rest) =>
      if record.name ≠ [dot] ∨ record.rrType ≠ RRType.OPT.toNat then
        parseAdditional ctx count edns rest
      else if edns.isSome then (edns, false)
      else
        let payload := UInt16.ofNat (min record.rrClass 1232)
        match parseOptions ctx record.rdata.length (PRREdns.make payload record.ttl)
          record.rdata with
        | (made, true) => parseAdditional ctx count (some made) rest
        | (made, false) => (some made, false)

def parseRecords (ctx : RequestContext) (request rest : Bytes) : Option PRREdns × Bool :=
  match (skipRecords (anCount request) rest).bind (skipRecords (nsCount request)) with
  | none => (none, false)
  | some additional => parseAdditional ctx (arCount request) none additional

def extractQuestion (ctx : RequestContext) (request : Bytes) : Option Message :=
  if request.length < 12 then none
  else
    let m : Message :=
      ⟨UInt16.ofNat (loadAt request 0 2), UInt16.ofNat (loadAt request 2 2), none, [], [], none,
        none, false⟩
    if 1 < qdCount request then some { m with badExtract := true }.formerr
    else
      match parseQuestion request with
      | (question, none) => some { m with question := question, badExtract := true }.formerr
      | (question, some rest) =>
        match parseRecords ctx request rest with
        | (edns, true) => some { m with question := question, additionalEdns := edns }
        | (edns, false) =>
          some { m with
            question := question, additionalEdns := edns, badExtract := true }.formerr

def RRType.TSIG : RRType := 250

def flagsRD : UInt16 := 0x0100
def flagsCD : UInt16 := 0x0010

def PRREdns.doBitSet (edns : PRREdns) : Bool :=
  ttlWord edns.ttl &&& doBit ≠ 0

def nameDataSize : Nat → Bytes → Option Nat
  | 0, _ => none
  | _ + 1, [] => none
  | fuel + 1, length :: rest =>
    if 63 < length.toNat then
      if rest = [] then none else some 2
    else if length = 0 then some 1
    else if rest.length ≤ length.toNat then none
    else (nameDataSize fuel (rest.drop length.toNat)).map (1 + length.toNat + ·)

def extractNameData (buf : Bytes) : Option (Bytes × Bytes) :=
  (nameDataSize buf.length buf).map fun size => (buf.take size, buf.drop size)

namespace RawMessage

def parseQuestion (buf : Bytes) : Question × Bytes :=
  match Question.extract buf with
  | some found => found
  | none =>
    match extractName buf with
    | some (_, rest) => (⟨[], 0, 0⟩, rest)
    | none => (⟨[], 0, 0⟩, buf)

def parseQuestions : Nat → Bytes → List Question × Bytes
  | 0, buf => ([], buf)
  | count + 1, buf =>
    let (question, buf) := parseQuestion buf
    let (questions, buf) := parseQuestions count buf
    (question :: questions, buf)

def parseRecord (buf : Bytes) : Option (RawRR × Bytes) :=
  match extractNameData buf with
  | none => none
  | some (name, buf) =>
    if buf.length < 2 + 2 + 4 + 2 then none
    else if (buf.drop 10).length < loadAt buf 8 2 then none
    else
      some (⟨name, UInt16.ofNat (loadAt buf 0 2), UInt16.ofNat (loadAt buf 2 2), loadAt buf 4 4,
        (buf.drop 10).take (loadAt buf 8 2)⟩, (buf.drop 10).drop (loadAt buf 8 2))

def parseSection : Nat → Bytes → Option (List RawRR × Bytes)
  | 0, buf => some ([], buf)
  | count + 1, buf => do
      let (record, buf) ← parseRecord buf
      let (records, buf) ← parseSection count buf
      return (record :: records, buf)

def parse (msg : Bytes) : Option RawMessage :=
  if msg.length < 12 then none
  else do
    let (questions, buf) := parseQuestions (qdCount msg) (msg.drop 12)
    let (answers, buf) ← parseSection (anCount msg) buf
    let (authorities, buf) ← parseSection (nsCount msg) buf
    let (additional, _) ← parseSection (arCount msg) buf
    return {
      hdrId := UInt16.ofNat (loadAt msg 0 2)
      hdrFields := UInt16.ofNat (loadAt msg 2 2)
      questions, answers, authorities, additional
      additionalEdns := none }

def rewrittenFields (fields : UInt16) (orig : Message) : UInt16 :=
  let fields :=
    if orig.additionalEdns.all fun edns => !edns.doBitSet then fields &&& ~~~flagsAD else fields
  let fields := fields &&& ~~~(flagsCD ||| flagsRD ||| flagsTC)
  fields ||| (orig.hdrFields &&& flagsCD) ||| (orig.hdrFields &&& flagsRD)

def rewriteFor (m : RawMessage) (orig : Message) : RawMessage :=
  { m with
    hdrId := orig.hdrId
    hdrFields := rewrittenFields m.hdrFields orig
    additional := m.additional.filter fun rr => ¬(rr.type = RRType.OPT ∨ rr.type = RRType.TSIG)
    additionalEdns := orig.additionalEdns }

end RawMessage
end SessionRouter.Dns
