import SessionRouter.Dns.Record

/-!
# Messages and their encoding
-/

namespace SessionRouter.Dns

open Lib Wire DomainName Encoder

def flagsQR : UInt16 := 0x8000
def flagsAA : UInt16 := 0x0400
def flagsTC : UInt16 := 0x0200
def flagsRA : UInt16 := 0x0080
def flagsAD : UInt16 := 0x0020

def rcodeRefused : UInt16 := 5
def rcodeNxDomain : UInt16 := 3
def rcodeServFail : UInt16 := 2
def rcodeFormErr : UInt16 := 1

def setRcode (flags rcode : UInt16) : UInt16 :=
  (flags &&& ~~~15) ||| rcode

def bufferSize (maxSize : Bool) (edns : Option PRREdns) : Nat :=
  if maxSize then 65535
  else
    match edns with
    | some edns => edns.maxPayload.toNat
    | none => 512

structure Message where
  hdrId : UInt16
  hdrFields : UInt16
  question : Option Question
  answers : List ResourceRecord
  authorities : List ResourceRecord
  additionalEdns : Option PRREdns
  rrNameOverride : Option Bytes
  badExtract : Bool
deriving DecidableEq

namespace Message

def replyFlags : UInt16 :=
  flagsQR ||| flagsAA ||| flagsRA

def getRrName (m : Message) : Bytes :=
  match m.rrNameOverride, m.question with
  | some name, _ => name
  | none, some question => question.qname
  | none, none => []

def makeReply (m : Message) (make : Bytes → ResourceRecord) : Message :=
  if m.question = none then m
  else
    { m with
      hdrFields := m.hdrFields ||| replyFlags
      answers := m.answers ++ [make m.getRrName] }

def applyRcode (m : Message) (rcode : UInt16) (authoritative : Bool) : Message :=
  let fields := setRcode m.hdrFields rcode
  if m.question = none then { m with hdrFields := fields }
  else if authoritative then { m with hdrFields := fields ||| replyFlags ||| flagsAA }
  else { m with hdrFields := (fields ||| replyFlags) &&& ~~~flagsAA }

def fail (m : Message) (rcode : UInt16) : Message :=
  { m with answers := [] }.applyRcode rcode false

def formerr (m : Message) : Message :=
  m.fail rcodeFormErr

inductive Reply where
  | setRrName (name : Option Bytes)
  | nodata
  | a (addr : UInt32) (ttl : Int)
  | aaaa (hi lo : UInt64) (ttl : Int)
  | target (type : TargetType) (name : Bytes) (ttl : Int)
  | srv (priority weight port : UInt16) (target : Bytes) (ttl : Int)
  | txt (value : Bytes) (ttl : Int)
  | authority (record : ResourceRecord)
  | nxdomain (authoritative : Bool)
  | servfail
  | formerr
  | refused
  | badCookie

def addReply (m : Message) : Reply → Message
  | .setRrName name => { m with rrNameOverride := name }
  | .nodata => if m.question = none then m else { m with hdrFields := m.hdrFields ||| replyFlags }
  | .a addr ttl => m.makeReply fun name => rrA name ttl addr
  | .aaaa hi lo ttl => m.makeReply fun name => rrAAAA name ttl hi lo
  | .target type name ttl => m.makeReply fun rrName => rrTarget type rrName ttl name
  | .srv priority weight port host ttl =>
    m.makeReply fun name => rrSRV name ttl priority weight port host
  | .txt value ttl => m.makeReply fun name => rrTXT name ttl value
  | .authority record => { m with authorities := m.authorities ++ [record] }
  | .nxdomain authoritative => m.applyRcode rcodeNxDomain authoritative
  | .servfail => m.fail rcodeServFail
  | .formerr => m.formerr
  | .refused => m.fail rcodeRefused
  | .badCookie => { m with hdrFields := (m.hdrFields ||| 7 ||| flagsQR ||| flagsRA) &&& ~~~flagsAA }

def addReplies (m : Message) (replies : List Reply) : Message :=
  replies.foldl addReply m

def responseFields (m : Message) : UInt16 :=
  (m.hdrFields ||| flagsQR) &&& ~~~flagsAD

def encodeHeader (m : Message) : Encoder :=
  writeInts [(2, m.hdrId.toNat), (2, m.responseFields.toNat),
    (2, if m.question = none then 0 else 1), (2, m.answers.length), (2, m.authorities.length),
    (2, if m.additionalEdns = none then 0 else 1)]

def encodeQuestion (m : Message) : Encoder :=
  m.encodeHeader.andThen
    (match m.question with
    | some question => question.encode
    | none => nothing)

def encodeEdns (m : Message) : Encoder :=
  match m.additionalEdns with
  | some edns => edns.encode
  | none => nothing

def encodeRecords (m : Message) : Encoder :=
  (all (m.answers.map ResourceRecord.encode)).andThen
    ((all (m.authorities.map ResourceRecord.encode)).andThen m.encodeEdns)

def truncate (m : Message) (written : Bytes) (span : Span) : Bytes :=
  let flagged := overwrite written 2 (storeBig 4 (m.responseFields ||| flagsTC).toNat)
  let emptied := overwrite flagged 6 (storeBig 4 0)
  match m.additionalEdns with
  | none => emptied
  | some edns =>
    match edns.encode span with
    | some done => emptied ++ done.1
    | none => overwrite emptied 10 (storeBig 4 0)

def encode (m : Message) (maxSize : Bool) : Option Bytes :=
  (m.encodeQuestion (Span.start (bufferSize maxSize m.additionalEdns))).map fun begun =>
    match m.encodeRecords begun.2 with
    | some done => begun.1 ++ done.1
    | none => m.truncate begun.1 begun.2

end Message

structure RawMessage where
  hdrId : UInt16
  hdrFields : UInt16
  questions : List Question
  answers : List RawRR
  authorities : List RawRR
  additional : List RawRR
  additionalEdns : Option PRREdns
deriving DecidableEq

namespace RawMessage

def encodeHeader (m : RawMessage) : Encoder :=
  writeInts [(2, m.hdrId.toNat), (2, m.hdrFields.toNat), (2, m.questions.length),
    (2, m.answers.length), (2, m.authorities.length),
    (2, m.additional.length + if m.additionalEdns = none then 0 else 1)]

def encodeQuestion (question : Question) : Encoder :=
  (encodeName false question.name).andThen
    (writeInts [(2, question.qtype.toNat), (2, question.qclass.toNat)])

def encodeQuestions (m : RawMessage) : Encoder :=
  all (m.questions.map encodeQuestion)

def encodeRecords (m : RawMessage) : Encoder :=
  all ((m.answers ++ m.authorities ++ m.additional ++
    (m.additionalEdns.map PRREdns.toRaw).toList).map RawRR.writeTo)

def truncate (m : RawMessage) (written : Bytes) (questionsFit : Bool) (span : Span) : Bytes :=
  let flagged := overwrite written 2 (storeBig 4 (m.hdrFields ||| flagsTC).toNat)
  let asked := if questionsFit then flagged else overwrite flagged 4 (storeBig 2 0)
  let emptied := overwrite (overwrite asked 6 (storeBig 2 0)) 8 (storeBig 2 0)
  match m.additionalEdns with
  | none => overwrite emptied 10 (storeBig 2 0)
  | some edns =>
    let counted := overwrite emptied 10 (storeBig 2 1)
    match edns.toRaw.writeTo span with
    | some done => counted ++ done.1
    | none => overwrite counted 10 (storeBig 2 0)

def encode (m : RawMessage) (maxSize : Bool) : Option Bytes :=
  (m.encodeHeader (Span.start (bufferSize maxSize m.additionalEdns))).map fun header =>
    match m.encodeQuestions header.2 with
    | none => m.truncate header.1 false header.2
    | some asked =>
      match m.encodeRecords asked.2 with
      | some done => header.1 ++ asked.1 ++ done.1
      | none => m.truncate (header.1 ++ asked.1) true asked.2

end RawMessage
end SessionRouter.Dns
