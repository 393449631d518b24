import SessionRouter.Dns.Name

/-!
# Questions and resource records
-/

namespace SessionRouter.Dns

open Lib Wire DomainName

abbrev RRType := UInt16

namespace RRType

def A : RRType := 1
def CNAME : RRType := 5
def SOA : RRType := 6
def PTR : RRType := 12
def TXT : RRType := 16
def AAAA : RRType := 28
def SRV : RRType := 33
def OPT : RRType := 41

end RRType

structure ReadQuestion where
  labels : List Bytes
  type : Nat
  cls : Nat
deriving DecidableEq

inductive ReadData where
  | bytes (bytes : Bytes)
  | target (labels : List Bytes)
  | service (priority weight port : Nat) (labels : List Bytes)
deriving DecidableEq

structure ReadRecord where
  owner : List Bytes
  type : Nat
  cls : Nat
  ttl : Int
  data : ReadData
deriving DecidableEq

structure ReadHeader where
  id : Nat
  flags : Nat
  questionCount : Nat
  answerCount : Nat
  authorityCount : Nat
  additionalCount : Nat

structure ReadMessage where
  id : Nat
  flags : Nat
  questions : List ReadQuestion
  answers : List ReadRecord
  authorities : List ReadRecord
  additional : List ReadRecord
deriving DecidableEq

def readQuestion : Parser ReadQuestion := do
  let labels ← readName
  let type ← number 2
  let cls ← number 2
  pure ⟨labels, type, cls⟩

def readData (type length : Nat) : Parser ReadData :=
  if type = RRType.CNAME.toNat ∨ type = RRType.PTR.toNat then do
    let labels ← readName
    pure (.target labels)
  else if type = RRType.SRV.toNat then do
    let priority ← number 2
    let weight ← number 2
    let port ← number 2
    let labels ← readName
    pure (.service priority weight port labels)
  else do
    let bytes ← takeBytes length
    pure (.bytes bytes)

def readSized (parser : Nat → Parser ReadData) : Parser ReadData := do
  let length ← number 2
  let start ← position
  let data ← parser length
  let stop ← position
  if stop = start + length then pure data else reject

def readRecord : Parser ReadRecord := do
  let owner ← readName
  let type ← number 2
  let cls ← number 2
  let ttl ← number 4
  let data ← readSized (readData type)
  pure ⟨owner, type, cls, ttl, data⟩

def readHeader : Parser ReadHeader := do
  let id ← number 2
  let flags ← number 2
  let questionCount ← number 2
  let answerCount ← number 2
  let authorityCount ← number 2
  let additionalCount ← number 2
  pure ⟨id, flags, questionCount, answerCount, authorityCount, additionalCount⟩

def readQuestionSection : Parser (List ReadQuestion) := do
  let header ← readHeader
  many readQuestion header.questionCount

def readSections : Parser ReadMessage := do
  let header ← readHeader
  let questions ← many readQuestion header.questionCount
  let answers ← many readRecord header.answerCount
  let authorities ← many readRecord header.authorityCount
  let additional ← many readRecord header.additionalCount
  pure ⟨header.id, header.flags, questions, answers, authorities, additional⟩

def readMessage (msg : Bytes) : Option ReadMessage :=
  match readSections msg 0 with
  | some (message, next) => if next = msg.length then some message else none
  | none => none

open Encoder

structure Question where
  qname : Bytes
  qtype : RRType
  qclass : UInt16
deriving DecidableEq

def Question.encode (question : Question) : Encoder :=
  (encodeName true question.qname).andThen
    (writeInts [(2, question.qtype.toNat), (2, question.qclass.toNat)])

def Question.name (question : Question) : Bytes :=
  dropDot question.qname

/-- The subclasses of `RR_bytes`. -/
inductive BytesType where
  | A | AAAA | TXT | SOA
deriving DecidableEq

/-- The subclasses of `RR_target`. -/
inductive TargetType where
  | PTR | CNAME
deriving DecidableEq

inductive RRData where
  | bytes (type : BytesType) (rData : Bytes)
  | target (type : TargetType) (name : Bytes)
  | srv (priority weight port : UInt16) (target : Bytes)
deriving DecidableEq

def classIN : UInt16 := 1

structure ResourceRecord where
  rrName : Bytes
  rrClass : UInt16
  ttl : Int
  data : RRData
deriving DecidableEq

def RRData.rrType : RRData → RRType
  | .bytes .A _ => RRType.A
  | .bytes .AAAA _ => RRType.AAAA
  | .bytes .TXT _ => RRType.TXT
  | .bytes .SOA _ => RRType.SOA
  | .target .PTR _ => RRType.PTR
  | .target .CNAME _ => RRType.CNAME
  | .srv .. => RRType.SRV

def ttlWord (ttl : Int) : Nat :=
  (ttl % 2 ^ 32).toNat

def withLength (encodeData : Encoder) : Encoder := fun span =>
  if 2 ≤ span.room then
    (encodeData (span.advance 2)).map fun done => (storeBig 2 done.1.length ++ done.1, done.2)
  else none

def encodeRecord (rrName : Bytes) (rrType rrClass : UInt16) (ttl : Int) (encodeData : Encoder) :
    Encoder :=
  (encodeName true rrName).andThen
    ((writeInts [(2, rrType.toNat), (2, rrClass.toNat), (4, ttlWord ttl)]).andThen
      (withLength encodeData))

def RRData.encodeData : RRData → Encoder
  | .bytes _ rData => put rData
  | .target _ name => encodeName true name
  | .srv priority weight port host =>
    (writeInts [(2, priority.toNat), (2, weight.toNat), (2, port.toNat)]).andThen
      (encodeName true host)

def ResourceRecord.encode (record : ResourceRecord) : Encoder :=
  encodeRecord record.rrName record.data.rrType record.rrClass record.ttl record.data.encodeData

/-! ### The constructors -/

def rrA (rrName : Bytes) (ttl : Int) (addr : UInt32) : ResourceRecord :=
  ⟨rrName, classIN, ttl, .bytes .A (storeBig 4 addr.toNat)⟩

def rrAAAA (rrName : Bytes) (ttl : Int) (hi lo : UInt64) : ResourceRecord :=
  ⟨rrName, classIN, ttl, .bytes .AAAA (storeBig 8 hi.toNat ++ storeBig 8 lo.toNat)⟩

def txtStrings : Nat → Bytes → Bytes
  | 0, _ => []
  | fuel + 1, value =>
    UInt8.ofNat (min 255 value.length) :: value.take 255 ++
      if value.drop 255 = [] then [] else txtStrings fuel (value.drop 255)

theorem length_txtStrings {fuel : Nat} {value : Bytes} (h : value.length < fuel) :
    (txtStrings fuel value).length = value.length + max 1 ((value.length + 254) / 255) := by
  induction fuel generalizing value with
  | zero => omega
  | succ fuel ih =>
    rw [txtStrings]
    split
    · next hdone =>
      have hlength := congrArg List.length hdone
      simp only [List.length_drop, List.length_nil] at hlength
      simp only [List.append_nil, List.length_cons, List.length_take]
      omega
    · next hmore =>
      have hlength : 255 < value.length := by
        rw [← ne_eq, ← List.length_pos_iff, List.length_drop] at hmore
        omega
      have hrest : (txtStrings fuel (value.drop 255)).length = _ :=
        ih (by rw [List.length_drop]; omega)
      rw [List.length_drop] at hrest
      simp only [List.cons_append, List.length_cons, List.length_append, List.length_take,
        hrest]
      omega

def rrTXT (rrName : Bytes) (ttl : Int) (value : Bytes) : ResourceRecord :=
  ⟨rrName, classIN, ttl, .bytes .TXT (txtStrings (value.length + 1) value)⟩

def soaNameSize (name : Bytes) : Nat :=
  name.length + (if name.getLast? = some dot then 0 else 1) + 1

def rrSOA (rrName : Bytes) (ttl : Int) (mname rname : Bytes) (serial : UInt32)
    (minimum refresh retry expire : Int) : Option ResourceRecord :=
  let size := soaNameSize mname + soaNameSize rname + 5 * 4
  (((encodeName false mname).andThen (encodeName false rname)) (Span.start size)).map fun names =>
    ⟨rrName, classIN, ttl, .bytes .SOA
      (names.1 ++ storeBig 4 serial.toNat ++
        [refresh, retry, expire, minimum].flatMap (fun seconds => storeBig 4 (ttlWord seconds)) ++
        List.replicate (names.2.room - 5 * 4) 0)⟩

def rrTarget (type : TargetType) (rrName : Bytes) (ttl : Int) (name : Bytes) : ResourceRecord :=
  ⟨rrName, classIN, ttl, .target type name⟩

def rrSRV (rrName : Bytes) (ttl : Int) (priority weight port : UInt16) (target : Bytes) :
    ResourceRecord :=
  ⟨rrName, classIN, ttl, .srv priority weight port target⟩

structure PRREdns where
  maxPayload : UInt16
  ttl : Int
  cookie : Option (FixedBytes 24)
  badCookie : Bool
deriving DecidableEq

namespace PRREdns

def doBit : Nat := 2 ^ 15

def optCookie : Nat := 10

def make (maxPayload : UInt16) (pttl : Nat) : PRREdns :=
  ⟨maxPayload, if pttl &&& doBit = 0 then 0 else doBit, none, false⟩

def optionBytes (edns : PRREdns) : Bytes :=
  match edns.cookie with
  | some cookie => storeBig 2 optCookie ++ storeBig 2 24 ++ cookie.data
  | none => []

def encode (edns : PRREdns) : Encoder :=
  encodeRecord [] RRType.OPT edns.maxPayload edns.ttl (put edns.optionBytes)

end PRREdns

structure RawRR where
  name : Bytes
  type : RRType
  cls : UInt16
  ttl : Int
  rdata : Bytes
deriving DecidableEq

def RawRR.writeTo (raw : RawRR) : Encoder :=
  put (raw.name ++ storeBig 2 raw.type.toNat ++ storeBig 2 raw.cls.toNat ++
    storeBig 4 (ttlWord raw.ttl) ++ storeBig 2 raw.rdata.length ++ raw.rdata)

def PRREdns.toRaw (edns : PRREdns) : RawRR :=
  ⟨[0], RRType.OPT, edns.maxPayload, edns.ttl, edns.optionBytes⟩

def Question.reading (question : Question) : ReadQuestion :=
  ⟨nameLabels question.qname, question.qtype.toNat, question.qclass.toNat⟩

def RRData.reading : RRData → ReadData
  | .bytes _ rData => .bytes rData
  | .target _ name => .target (nameLabels name)
  | .srv priority weight port host =>
    .service priority.toNat weight.toNat port.toNat (nameLabels host)

def ResourceRecord.reading (record : ResourceRecord) : ReadRecord :=
  ⟨nameLabels record.rrName, record.data.rrType.toNat, record.rrClass.toNat, record.ttl,
    record.data.reading⟩

def PRREdns.reading (edns : PRREdns) : ReadRecord :=
  ⟨[], RRType.OPT.toNat, edns.maxPayload.toNat, ttlWord edns.ttl, .bytes edns.optionBytes⟩

theorem withLength_eq_some_iff {encodeData : Encoder} {span after : Span} {bytes : Bytes} :
    withLength encodeData span = some (bytes, after) ↔
      2 ≤ span.room ∧ ∃ data, encodeData (span.advance 2) = some (data, after) ∧
        bytes = storeBig 2 data.length ++ data := by
  unfold withLength
  split
  · next hfits =>
    rw [Option.map_eq_some_iff]
    constructor
    · rintro ⟨⟨data, last⟩, hdata, heq⟩
      cases heq
      exact ⟨hfits, data, hdata, rfl⟩
    · rintro ⟨-, data, hdata, rfl⟩
      exact ⟨_, hdata, rfl⟩
  · next hlong => simp [hlong]

theorem counts_withLength {encodeData : Encoder} (h : encodeData.Counts) :
    (withLength encodeData).Counts := by
  intro span bytes after hrun
  obtain ⟨hfits, data, hdata, rfl⟩ := withLength_eq_some_iff.mp hrun
  have hlength : Advanced span (storeBig 2 data.length) (span.advance 2) := by
    simpa using advanced_advance (show (storeBig 2 data.length).length ≤ span.room by simpa)
  exact hlength.trans (h _ _ _ hdata)

theorem counts_encodeData (data : RRData) : data.encodeData.Counts := by
  cases data with
  | bytes type rData => exact counts_put rData
  | target type name => exact counts_encodeName true name
  | srv priority weight port host => exact (counts_put _).andThen (counts_encodeName true host)

end SessionRouter.Dns
