import SessionRouter.Address.AddressText
import SessionRouter.Contact.ClientContact
import SessionRouter.Dns.Answer
import SessionRouter.Dns.ReverseName
import SessionRouter.Lib.EventLoop

/-!
# The request handler
-/

namespace SessionRouter.Dns

open Lib DomainName Bencode Encoder EventLoop Message

structure RcInfo where
  version : List UInt8
  addr : Bytes
  timestamp : Nat

structure PathInfo where
  isOutbound : Bool
  relays : List (RouterID × Bytes)
  left : Int
  pingMean : Nat
  pingJitter : Nat
  pingResponses : Nat
  pingTimeouts : Nat
  pingRecentTimeouts : Nat

structure Env where
  id : RouterID
  isServiceNode : Bool
  version : List Nat
  netid : Bytes
  hasUnbound : Bool
  soaSerial : UInt32
  getRandomRc : Option RouterID
  getRc : RouterID → Option RcInfo
  currentPathInfo : NetworkAddress → Option PathInfo
  initiateRemoteSession : NetworkAddress → Bool
  map6 : NetworkAddress → UInt64 × UInt64
  map4 : NetworkAddress → Option UInt32
  reverseLookup : PtrAddress → Option NetworkAddress × Bool
  ipv4Mask : UInt8
  ipv6Mask : UInt8

inductive Lookup where
  | resolveSns (name : Bytes)
  | lookupClientIntro (rid : RouterID)
  | query (name : Bytes) (qtype : RRType) (qclass : UInt16)

structure SnsResult where
  env : Env
  netaddr : Option NetworkAddress
  assertive : Bool
  ttl : Int

def Lookup.Result : Lookup → Type
  | .resolveSns _ => SnsResult
  | .lookupClientIntro _ => Option ClientContact
  | .query .. => Bytes

inductive HandlerEvent where
  | reply (response : Bytes)
  | threw
  | reenter
deriving DecidableEq

abbrev HandlerTask := Task Lookup Lookup.Result HandlerEvent

def respond : Option Bytes → HandlerTask
  | some response => .emit (.reply response) .done
  | none => .emit .threw .done

def reply (m : Message) (tcp : Bool) : HandlerTask :=
  respond (m.encode tcp)

def Question.hasTld (question : Question) (tld : Bytes) : Bool :=
  (dot :: tld).isSuffixOf question.name

def isLocalhost (qname : Bytes) : Bool :=
  qname = ascii "localhost.loki" || (ascii ".localhost.loki").isSuffixOf qname ||
    qname = ascii "localhost.sesh" || (ascii ".localhost.sesh").isSuffixOf qname

def isSnode (name : Bytes) : Option RouterID :=
  if (dot :: relayTld).isSuffixOf name then
    RouterID.fromBase32z (NetworkAddress.withoutSuffix name (dot :: relayTld))
  else none

def randomSnode : Bytes := ascii "random.snode"

def splitName (qname : Bytes) : Option (List Bytes × Bytes × Bytes) :=
  match (qname.splitOn dot).reverse with
  | tld :: hostname :: sub => some (sub.reverse, hostname, tld)
  | _ => none

def below (sub : List Bytes) (host : Bytes) : Bytes :=
  if sub = [] then host else dotted sub ++ dot :: host

structure LocalName where
  qname : Bytes
  sub : List Bytes
  hostname : Bytes
  tld : Bytes
  localhost : Bool

def LocalName.host (name : LocalName) : Bytes :=
  name.hostname ++ dot :: name.tld

def defaultAnswerTtl : Int := 10

def addCname (m : Message) (name : Bytes) (ttl : Int) : Message :=
  m.addReply (.target .CNAME name ttl)

def nxdomain (m : Message) : Message :=
  m.addReply (.nxdomain true)

def addNxSoa (env : Env) (m : Message) (domain : Bytes) (ttl : Int) : Message :=
  match rrSOA domain 600 (ascii "localhost.sesh") (ascii "sr.localhost.sesh") env.soaSerial ttl
    3600 900 1209600 with
  | some record => m.addReply (.authority record)
  | none => m

def handleLocalPtr (env : Env) (m : Message) (question : Question) (tcp : Bool) :
    Option HandlerTask :=
  if question.qtype ≠ RRType.PTR then none
  else
    match decodePtr question.qname with
    | none => none
    | some ip =>
      match env.reverseLookup ip with
      | (_, false) => none
      | (some mapped, true) =>
        some (reply (m.addReply (.target .PTR mapped.toText defaultAnswerTtl)) tcp)
      | (none, true) =>
        some (reply (addNxSoa env (nxdomain m) (authName env.ipv4Mask env.ipv6Mask ip) 5) tcp)

def roundSeconds (ms : Int) : Int :=
  if ms % 1000 < 500 then ms / 1000
  else if ms % 1000 = 500 then ms / 1000 + ms / 1000 % 2
  else ms / 1000 + 1

def decimalInt (i : Int) : Bytes :=
  (if i < 0 then ascii "-" else []) ++ decimal i.natAbs

def threeDigits (n : Nat) : Bytes :=
  List.replicate (3 - (decimal n).length) 48 ++ decimal n

def joinSpaces (texts : List Bytes) : Bytes :=
  (texts.intersperse [32]).flatten

def PathInfo.text (path : PathInfo) : Bytes :=
  ascii "d=" ++ (if path.isOutbound then ascii "out" else ascii "in") ++
    ascii "; path=" ++
      joinSpaces (path.relays.map fun relay => RouterID.toText relay.1 ++ ascii "@" ++ relay.2) ++
    ascii "; ttl=" ++ decimalInt (roundSeconds path.left) ++
    ascii "; p=" ++ decimal path.pingMean ++
    ascii "; pj=" ++ decimal (path.pingJitter / 1000) ++ ascii "." ++
      threeDigits (path.pingJitter % 1000) ++
    ascii "; pr=" ++ decimal path.pingResponses ++
    ascii "; pt=" ++ decimal path.pingTimeouts ++
    ascii "; pT=" ++ decimal path.pingRecentTimeouts

def RcInfo.text (rc : RcInfo) : Bytes :=
  ascii "rc v=" ++ dotted (rc.version.map fun part => decimal part.toNat) ++
    ascii " i=" ++ rc.addr ++ ascii " t=" ++ decimal rc.timestamp

def Env.text (env : Env) : Bytes :=
  ascii "sessionrouter=" ++ (if env.isServiceNode then ascii "relay" else ascii "client") ++
    ascii " v=" ++ dotted (env.version.map decimal) ++ ascii " netid=" ++ env.netid

def answerTxt (env : Env) (m : Message) (name : LocalName) : Message :=
  if name.localhost ∧ name.sub = [] then m.addReply (.txt env.text defaultAnswerTtl)
  else
    match isSnode name.qname with
    | some rid =>
      match env.getRc rid with
      | some rc => m.addReply (.txt rc.text defaultAnswerTtl)
      | none => nxdomain (addNxSoa env m relayTld 5)
    | none =>
      if name.sub = [ascii "path"] then
        match NetworkAddress.ofText name.host with
        | some netaddr =>
          match env.currentPathInfo netaddr with
          | some path => m.addReply (.txt path.text 0)
          | none => m.addReply (.txt (ascii "d=none") defaultAnswerTtl)
        | none => nxdomain (addNxSoa env m name.tld 30)
      else nxdomain (addNxSoa env m name.tld 30)

def answerAddress (env : Env) (m : Message) (name : LocalName) (aaaa : Bool) : Message :=
  match NetworkAddress.ofText name.host with
  | none => nxdomain (addNxSoa env m name.tld 30)
  | some netaddr =>
    if env.initiateRemoteSession netaddr then
      if aaaa then
        m.addReply (.aaaa (env.map6 netaddr).1 (env.map6 netaddr).2 defaultAnswerTtl)
      else if name.sub.getLast? = some (ascii "ipv4") then
        match env.map4 netaddr with
        | some addr => m.addReply (.a addr defaultAnswerTtl)
        | none => m.addReply .servfail
      else addNxSoa env (m.addReply .nodata) name.tld 300
    else nxdomain (addNxSoa env m name.tld 15)

def srvHost (question : Question) (name : LocalName) : Option RouterID :=
  match name.sub with
  | [service, proto] =>
    if question.qtype = RRType.SRV ∧ (name.tld = clientTld ∨ name.tld = lokiTld) ∧
        service.head? = some 95 ∧ proto.head? = some 95 then
      RouterID.fromBase32z name.hostname
    else none
  | _ => none

def answerSrv (m : Message) (sub : List Bytes) : Option ClientContact → Message
  | none => nxdomain m
  | some cc =>
    let found := cc.srv.filter fun srv => sub = [srv.service, srv.proto]
    if found = [] then m.addReply .nodata
    else
      m.addReplies (found.map fun srv =>
        .srv srv.priority srv.weight srv.port srv.target defaultAnswerTtl)

def answerLocal (env : Env) (m : Message) (question : Question) (name : LocalName) (tcp : Bool) :
    HandlerTask :=
  if question.qtype = RRType.TXT then reply (answerTxt env m name) tcp
  else if question.qtype = RRType.AAAA then reply (answerAddress env m name true) tcp
  else if question.qtype = RRType.A then reply (answerAddress env m name false) tcp
  else
    match srvHost question name with
    | some rid =>
      .request (.lookupClientIntro rid)
        (fun (cc : Option ClientContact) => reply (answerSrv m name.sub cc) tcp) .done
    | none => reply (nxdomain (addNxSoa env m name.tld 30)) tcp

def answerLocalhost (env : Env) (m : Message) (question : Question) (sub : List Bytes)
    (tld : Bytes) (tcp : Bool) : HandlerTask :=
  let ourHostname := RouterID.toText env.id
  let ourTld := if env.isServiceNode then relayTld else clientTld
  let ourName := ourHostname ++ dot :: ourTld
  let localName := ascii "localhost." ++ ourTld
  let m :=
    if tld = lokiTld then
      addCname (m.addReply (.setRrName (some (ascii "localhost.loki")))) localName defaultAnswerTtl
    else m
  let m := addCname (m.addReply (.setRrName (some localName))) ourName defaultAnswerTtl
  if question.qtype = RRType.CNAME then reply m tcp
  else
    let qname := below sub ourName
    answerLocal env (m.addReply (.setRrName (some qname))) question
      ⟨qname, sub, ourHostname, ourTld, true⟩ tcp

def answerRandom (env : Env) (m : Message) (question : Question) (sub : List Bytes) (tld : Bytes)
    (tcp : Bool) : HandlerTask :=
  match env.getRandomRc with
  | none => reply (nxdomain m) tcp
  | some rid =>
    let hostname := RouterID.toText rid
    let qname := hostname ++ dot :: relayTld
    let m := addCname m qname 1
    if question.qtype = RRType.CNAME then reply m tcp
    else
      answerLocal env (m.addReply (.setRrName (some qname))) question
        ⟨qname, sub, hostname, tld, false⟩ tcp

def hasLokiTld (qname : Bytes) : Bool :=
  match splitName qname with
  | some (_, _, tld) => tld = lokiTld
  | none => false

variable (sub : List Bytes) (events : List HandlerEvent)

theorem splitName_below (host : Bytes) {tld : Bytes} (hdot : dot ∉ tld) :
    ∃ rest hostname, splitName (below sub (host ++ dot :: tld)) = some (rest, hostname, tld) := by
  obtain ⟨front, hfront⟩ : ∃ front, below sub (host ++ dot :: tld) = front ++ dot :: tld := by
    unfold below
    split_ifs
    · exact ⟨host, rfl⟩
    · exact ⟨dotted sub ++ dot :: host, by simp⟩
  obtain ⟨rest, hostname, hsome⟩ : ∃ rest hostname, front.splitOn dot = rest ++ [hostname] :=
    ⟨_, _, (List.dropLast_append_getLast (List.splitOnP_ne_nil _ front)).symm⟩
  refine ⟨rest, hostname, ?_⟩
  rw [splitName, hfront, splitOn_dot_append front hdot, hsome]
  simp

theorem hasLokiTld_below (netaddr : NetworkAddress) :
    hasLokiTld (below sub netaddr.toText) = false := by
  have htld : dot ∉ netaddr.tld ∧ netaddr.tld ≠ lokiTld := by
    unfold NetworkAddress.tld
    split_ifs <;> decide +kernel
  obtain ⟨rest, hostname, hsplit⟩ := splitName_below sub (RouterID.toText netaddr.pubkey) htld.1
  rw [hasLokiTld, NetworkAddress.toText, hsplit]
  exact decide_eq_false htld.2

theorem hasLokiTld_lt {qname hostname : Bytes} {sub : List Bytes}
    (h : splitName qname = some (sub, hostname, lokiTld)) (rest : List Bytes)
    (netaddr : NetworkAddress) :
    (hasLokiTld (below rest netaddr.toText)).toNat < (hasLokiTld qname).toNat := by
  have hname : hasLokiTld qname = true := by
    rw [hasLokiTld, h]
    exact decide_eq_true rfl
  rw [hname, hasLokiTld_below]
  exact Nat.zero_lt_one

def handleLocal (env : Env) (m : Message) (question : Question) (qname : Bytes) (tcp : Bool) :
    Option HandlerTask :=
  match handleLocalPtr env m question tcp with
  | some task => some task
  | none =>
    if ¬(question.hasTld clientTld ∨ question.hasTld relayTld ∨ question.hasTld lokiTld) then none
    else
      match hsplit : splitName qname with
      | none => some (reply (m.addReply .formerr) tcp)
      | some (sub, hostname, tld) =>
        if isLocalhost qname then some (answerLocalhost env m question sub tld tcp)
        else if qname = randomSnode then some (answerRandom env m question sub tld tcp)
        else if hloki : tld = lokiTld ∧ hostname.length ≠ toBase32zSize 32 then
          let lookup := hostname ++ dot :: lokiTld
          some (.request (.resolveSns lookup) (fun (result : SnsResult) =>
            let m := m.addReply (.setRrName (some lookup))
            match result.netaddr with
            | some netaddr =>
              let target := netaddr.toText
              let m := addCname m target (result.ttl / 1000)
              if question.qtype = RRType.CNAME then reply m tcp
              else
                let newName := below sub target
                have := hasLokiTld_lt (hloki.1 ▸ hsplit) sub netaddr
                let m := m.addReply (.setRrName (some newName))
                .emit .reenter
                  (match handleLocal result.env m question newName tcp with
                  | some task => task
                  | none => reply (m.addReply .servfail) tcp)
            | none =>
              let m :=
                if result.assertive then addNxSoa result.env m lokiTld (result.ttl / 1000)
                else m
              reply (nxdomain m) tcp) .done)
        else some (answerLocal env m question ⟨qname, sub, hostname, tld, false⟩ tcp)
termination_by (hasLokiTld qname).toNat

namespace Message

def clone (m : Message) : Message :=
  { m with answers := [], authorities := [], rrNameOverride := none, badExtract := false }

end Message

def forwarded (orig : Message) (tcp : Bool) (response : Bytes) : HandlerTask :=
  if response = [] then reply (orig.addReply .servfail) tcp
  else
    match RawMessage.parse response with
    | none => reply (orig.addReply .servfail) tcp
    | some m => respond ((m.rewriteFor orig).encode tcp)

def forward (env : Env) (m : Message) (question : Question) (tcp : Bool) : HandlerTask :=
  if env.hasUnbound then
    .request (.query question.name question.qtype question.qclass)
      (fun (response : Bytes) => forwarded m.clone tcp response) .done
  else reply (m.addReply .refused) tcp

def dohCanary : Bytes := ascii "use-application-dns.net"

def handleMessage (env : Env) (m : Message) (tcp : Bool) : HandlerTask :=
  if m.badExtract then reply m tcp
  else if (m.additionalEdns.map PRREdns.badCookie).getD false then reply (m.addReply .badCookie) tcp
  else
    match m.question with
    | none => reply m tcp
    | some question =>
      match handleLocal env m question question.name tcp with
      | some task => task
      | none =>
        if question.name = dohCanary then reply (nxdomain (addNxSoa env m dohCanary 30)) tcp
        else forward env m question tcp

def handle (ctx : RequestContext) (env : Env) (request : Bytes) (tcp : Bool) : HandlerTask :=
  match extractQuestion ctx request with
  | none => .done
  | some m => handleMessage env m tcp

def HandlerEvent.isReply : HandlerEvent → Bool
  | .reply _ => true
  | _ => false

def HandlerEvent.isOutcome : HandlerEvent → Bool
  | .reenter => false
  | _ => true

def HandlerEvent.isReenter : HandlerEvent → Bool
  | .reenter => true
  | _ => false

theorem countP_isReply_le :
    events.countP HandlerEvent.isReply ≤ events.countP HandlerEvent.isOutcome := by
  apply List.countP_mono_left
  intro event _ hreply
  cases event with
  | reply response => rfl
  | threw => cases hreply
  | reenter => cases hreply

theorem countP_isReply_of_not_threw {events : List HandlerEvent} (h : .threw ∉ events) :
    events.countP HandlerEvent.isReply = events.countP HandlerEvent.isOutcome := by
  apply List.countP_congr
  intro event hmem
  cases event with
  | reply response => exact Iff.rfl
  | threw => exact absurd hmem h
  | reenter => exact Iff.rfl

theorem countP_isReenter : events.countP HandlerEvent.isReenter = events.count .reenter := by
  rw [List.count_eq_countP]
  apply List.countP_congr
  intro event _
  cases event with
  | reply response => exact Iff.rfl
  | threw => exact Iff.rfl
  | reenter => exact Iff.rfl

def Resolved : ∀ lookup : Lookup, lookup.Result → Prop
  | .resolveSns _, result => result.netaddr ≠ none
  | _, _ => False

structure Settles (task : HandlerTask) (reentries steps : ℕ∞) : Prop where
  le_one : task.most (counting HandlerEvent.isOutcome) ≤ 1
  one_le : 1 ≤ task.least (counting HandlerEvent.isOutcome)
  reenters : task.most (counting HandlerEvent.isReenter) ≤ reentries
  ends : task.most (fun _ => 1) ≤ steps

namespace Settles

variable {task : HandlerTask} {reentries steps : ℕ∞}

theorem mono {reentries' steps' : ℕ∞} (h : Settles task reentries steps)
    (hreentries : reentries ≤ reentries') (hsteps : steps ≤ steps') :
    Settles task reentries' steps' :=
  { h with
    reenters := h.reenters.trans hreentries
    ends := h.ends.trans hsteps }

theorem guarded (h : Settles task 0 steps) :
    task.Guarded Resolved fun event => event.isReenter = true :=
  guarded_of_most_eq_zero (nonpos_iff_eq_zero.mp h.reenters)

theorem reenter (h : Settles task reentries steps) :
    Settles (.emit .reenter task) (1 + reentries) (1 + steps) where
  le_one := by simpa [HandlerEvent.isOutcome] using h.le_one
  one_le := by simpa [HandlerEvent.isOutcome] using h.one_le
  reenters := by simpa [HandlerEvent.isReenter] using add_le_add_right h.reenters 1
  ends := by simpa using add_le_add_right h.ends 1

theorem request {lookup : Lookup} {callback : lookup.Result → HandlerTask}
    (h : ∀ result, Settles (callback result) reentries steps) :
    Settles (.request lookup callback .done) reentries (1 + (1 + steps) + 1) where
  le_one := most_counting_request_le fun result => (h result).le_one
  one_le := le_least_counting_request fun result => (h result).one_le
  reenters := most_counting_request_le fun result => (h result).reenters
  ends := most_request_le fun result => add_le_add_right (h result).ends 1

end Settles

theorem settles_respond (encoded : Option Bytes) : Settles (respond encoded) 0 2 := by
  cases encoded <;>
    constructor <;>
      simp [respond, HandlerEvent.isOutcome, HandlerEvent.isReenter, one_add_one_eq_two]

theorem settles_reply (m : Message) (tcp : Bool) : Settles (reply m tcp) 0 5 :=
  (settles_respond (m.encode tcp)).mono le_rfl (by norm_num)

section

variable (env : Env) (m : Message) (question : Question) (tcp : Bool)

variable {task : HandlerTask}

theorem settles_handleLocalPtr (h : handleLocalPtr env m question tcp = some task) :
    Settles task 0 5 := by
  unfold handleLocalPtr at h
  split_ifs at h
  split at h
  · cases h
  · split at h
    · cases h
    · cases h
      exact settles_reply _ tcp
    · cases h
      exact settles_reply _ tcp

theorem settles_answerLocal (name : LocalName) :
    Settles (answerLocal env m question name tcp) 0 5 := by
  unfold answerLocal
  split_ifs
  · exact settles_reply _ tcp
  · exact settles_reply _ tcp
  · exact settles_reply _ tcp
  · split
    · exact (Settles.request fun cc => settles_respond _).mono le_rfl (by norm_num)
    · exact settles_reply _ tcp

variable (sub : List Bytes) {qname : Bytes}

theorem settles_answerLocalhost (tld : Bytes) :
    Settles (answerLocalhost env m question sub tld tcp) 0 5 := by
  unfold answerLocalhost
  dsimp only
  split_ifs <;>
    first
    | exact settles_reply _ tcp
    | exact settles_answerLocal ..

theorem settles_answerRandom (tld : Bytes) :
    Settles (answerRandom env m question sub tld tcp) 0 5 := by
  unfold answerRandom
  dsimp only
  split
  · exact settles_reply _ tcp
  · split_ifs
    · exact settles_reply _ tcp
    · exact settles_answerLocal ..

def Reentered (inner : HandlerTask) : Prop :=
  (∃ m, inner = reply m tcp) ∨
    ∃ env m qname, hasLokiTld qname = false ∧ handleLocal env m question qname tcp = some inner

theorem handleLocal_cases (h : handleLocal env m question qname tcp = some task) :
    Settles task 0 5 ∨
      hasLokiTld qname = true ∧ ∃ lookup callback,
        task = .request (.resolveSns lookup) callback .done ∧
          ∀ result : SnsResult, (∃ m, callback result = reply m tcp) ∨
            result.netaddr ≠ none ∧ ∃ inner, callback result = .emit .reenter inner ∧
              Reentered question tcp inner := by
  -- the cases are those of the source, in its order: a PTR question, a name of somebody else, a
  -- name without a hostname, `localhost`, `random`, a name to resolve, and an address
  rw [handleLocal] at h
  split at h
  · next heq =>
    cases h
    exact .inl (settles_handleLocalPtr env m question tcp heq)
  · split at h
    · cases h
    · split at h
      · cases h
        exact .inl (settles_reply _ tcp)
      · next sub hostname tld hsplit =>
        split at h
        · cases h
          exact .inl (settles_answerLocalhost ..)
        · split at h
          · cases h
            exact .inl (settles_answerRandom ..)
          · split at h
            · next hloki =>
              cases h
              have hname : hasLokiTld qname = true := by
                rw [hasLokiTld, hsplit]
                exact decide_eq_true hloki.1
              refine .inr ⟨hname, _, _, rfl, fun result => ?_⟩
              dsimp only
              cases hnetaddr : result.netaddr with
              | none => exact .inl ⟨_, rfl⟩
              | some netaddr =>
                dsimp only
                split
                · exact .inl ⟨_, rfl⟩
                · refine .inr ⟨Option.some_ne_none netaddr, _, rfl, ?_⟩
                  split
                  · next heq => exact .inr ⟨_, _, _, hasLokiTld_below sub netaddr, heq⟩
                  · exact .inl ⟨_, rfl⟩
            · cases h
              exact .inl (settles_answerLocal ..)

theorem settles_of_reentered {inner : HandlerTask} (h : Reentered question tcp inner) :
    Settles inner 0 5 := by
  rcases h with ⟨m, rfl⟩ | ⟨env, m, qname, hname, hinner⟩
  · exact settles_reply m tcp
  · rcases handleLocal_cases env m question tcp hinner with hsettles | ⟨hloki, -⟩
    · exact hsettles
    · exact absurd (hname.symm.trans hloki) Bool.false_ne_true

section

variable (h : handleLocal env m question qname tcp = some task)

include h

theorem settles_handleLocal : Settles task 1 9 := by
  rcases handleLocal_cases env m question tcp h with
    hsettles | ⟨-, lookup, callback, rfl, hcallback⟩
  · exact hsettles.mono zero_le_one (by norm_num)
  · have hanswered (result : (Lookup.resolveSns lookup).Result) :
        Settles (callback result) 1 6 := by
      rcases hcallback result with ⟨m, heq⟩ | ⟨-, inner, heq, hinner⟩
      · rw [heq]
        exact (settles_reply m tcp).mono zero_le_one (by norm_num)
      · rw [heq]
        exact (settles_of_reentered question tcp hinner).reenter.mono (by norm_num) (by norm_num)
    exact (Settles.request hanswered).mono le_rfl (by norm_num)

theorem guarded_handleLocal : task.Guarded Resolved fun event => event.isReenter = true := by
  rcases handleLocal_cases env m question tcp h with
    hsettles | ⟨-, lookup, callback, rfl, hcallback⟩
  · exact hsettles.guarded
  · refine ⟨fun result => ?_, trivial⟩
    rcases hcallback result with ⟨m, heq⟩ | ⟨hresolved, -⟩
    · rw [heq]
      exact .inr (settles_reply m tcp).guarded
    · exact .inl hresolved

end

theorem settles_forwarded (response : Bytes) : Settles (forwarded m tcp response) 0 2 := by
  unfold forwarded
  split
  · exact settles_respond _
  · split
    · exact settles_respond _
    · exact settles_respond _

theorem settles_forward : Settles (forward env m question tcp) 0 5 := by
  unfold forward
  split
  · have hanswered (response : (Lookup.query question.name question.qtype question.qclass).Result) :
        Settles (forwarded m.clone tcp response) 0 2 :=
      settles_forwarded m.clone tcp response
    exact (Settles.request hanswered).mono le_rfl (by norm_num)
  · exact settles_reply _ tcp

theorem handleMessage_cases : Settles (handleMessage env m tcp) 0 5 ∨
      ∃ question,
        handleLocal env m question question.name tcp = some (handleMessage env m tcp) := by
  unfold handleMessage
  split
  · exact .inl (settles_reply _ tcp)
  · split
    · exact .inl (settles_reply _ tcp)
    · split
      · exact .inl (settles_reply _ tcp)
      · next question _ =>
        cases hlocal : handleLocal env m question question.name tcp with
        | some task => exact .inr ⟨question, hlocal⟩
        | none =>
          left
          dsimp only
          split
          · exact settles_reply _ tcp
          · exact settles_forward ..

theorem settles_handleMessage : Settles (handleMessage env m tcp) 1 9 := by
  rcases handleMessage_cases env m tcp with hsettles | ⟨question, hlocal⟩
  · exact hsettles.mono zero_le_one (by norm_num)
  · exact settles_handleLocal env m question tcp hlocal

theorem guarded_handleMessage :
    (handleMessage env m tcp).Guarded Resolved fun event => event.isReenter = true := by
  rcases handleMessage_cases env m tcp with hsettles | ⟨question, hlocal⟩
  · exact hsettles.guarded
  · exact guarded_handleLocal env m question tcp hlocal

end

theorem nonempty_result (env : Env) (lookup : Lookup) : Nonempty lookup.Result := by
  cases lookup with
  | resolveSns name => exact ⟨(⟨env, none, false, 0⟩ : SnsResult)⟩
  | lookupClientIntro rid => exact ⟨(none : Option ClientContact)⟩
  | query name qtype qclass => exact ⟨([] : Bytes)⟩

abbrev HandlerLoop := Loop Lookup Lookup.Result HandlerEvent

structure OneReply (loop : HandlerLoop) : Prop where
  atMostOne : loop.events.countP HandlerEvent.isReply ≤ 1
  atLeastOne : loop.Complete → .threw ∉ loop.events → loop.events.countP HandlerEvent.isReply = 1
  reenters : loop.events.count .reenter ≤ 1
  resolved : ∀ before, Did.emitted HandlerEvent.reenter :: before <:+ loop.log →
    Caused Resolved before
  goesOn : ¬loop.Complete → ∃ next, Step loop next
  ends : loop.log.length ≤ 9

/-- In every run of a request that can be parsed, one reply is sent. -/
theorem handle_oneReply (ctx : RequestContext) (env : Env) (request : Bytes) (tcp : Bool)
    (loop : HandlerLoop) (hparsed : extractQuestion ctx request ≠ none)
    (hrun : Relation.ReflTransGen Step (Loop.start (handle ctx env request tcp)) loop) :
    OneReply loop := by
  obtain ⟨m, hm⟩ := Option.ne_none_iff_exists'.mp hparsed
  have htask : handle ctx env request tcp = handleMessage env m tcp := by rw [handle, hm]
  rw [htask] at hrun
  obtain ⟨hle, hge, hreenters, hends⟩ := settles_handleMessage env m tcp
  have houtcomes : loop.events.countP HandlerEvent.isOutcome ≤ 1 :=
    countP_le_of_most_le hrun (by exact_mod_cast hle)
  refine ⟨(countP_isReply_le _).trans houtcomes, fun hcomplete hencodes => ?_, ?_, ?_, ?_, ?_⟩
  · have houtcome : 1 ≤ loop.events.countP HandlerEvent.isOutcome :=
      le_countP_of_le_least hrun hcomplete (by exact_mod_cast hge)
    rw [countP_isReply_of_not_threw hencodes]
    exact le_antisymm houtcomes houtcome
  · rw [← countP_isReenter]
    exact countP_le_of_most_le hrun (by exact_mod_cast hreenters)
  · intro before hlog
    exact caused_of_emitted (guarded_handleMessage env m tcp) hrun hlog rfl
  · have := nonempty_result env
    exact exists_step
  · exact length_le_of_most_le hrun (by exact_mod_cast hends)

def loneEnv : Env where
  id := .filled 32 1
  isServiceNode := false
  version := [1, 0, 0]
  netid := ascii "mainnet"
  hasUnbound := false
  soaSerial := 1
  getRandomRc := none
  getRc _ := none
  currentPathInfo _ := none
  initiateRemoteSession _ := false
  map6 _ := (0, 0)
  map4 _ := none
  reverseLookup _ := (none, false)
  ipv4Mask := 16
  ipv6Mask := 64

def servedEnv : Env :=
  { loneEnv with
    initiateRemoteSession := fun _ => true
    map6 := fun _ => (0xfd00000000000000, 7) }

/-- An AAAA question for `abc.loki`. -/
def lokiRequest : Bytes :=
  [0, 7, 1, 0, 0, 1, 0, 0, 0, 0, 0, 0, 3, 97, 98, 99, 4, 108, 111, 107, 105, 0, 0, 28, 0, 1]

def lokiQuestion : Question :=
  ⟨ascii "abc.loki.", RRType.AAAA, classIN⟩

def lokiMessage : Message :=
  ⟨7, 256, some lokiQuestion, [], [], none, none, false⟩

def lokiResult : SnsResult :=
  ⟨servedEnv, some ⟨.filled 32 2, true⟩, true, 60000⟩

def lokiResolved : Message :=
  (addCname (lokiMessage.addReply (.setRrName (some (ascii "abc.loki"))))
    (NetworkAddress.toText ⟨.filled 32 2, true⟩) 60).addReply
      (.setRrName (some (NetworkAddress.toText ⟨.filled 32 2, true⟩)))

theorem handleLocal_resolved : handleLocal servedEnv lokiResolved lokiQuestion
      (NetworkAddress.toText ⟨.filled 32 2, true⟩) false =
    some (reply (answerAddress servedEnv lokiResolved
      ⟨NetworkAddress.toText ⟨.filled 32 2, true⟩, [], RouterID.toText (.filled 32 2), clientTld,
        false⟩ true) false) := by
  have hsplit : splitName (NetworkAddress.toText ⟨.filled 32 2, true⟩) =
      some ([], RouterID.toText (.filled 32 2), clientTld) := by decide +kernel
  rw [handleLocal, show handleLocalPtr servedEnv lokiResolved lokiQuestion false = none from rfl]
  dsimp only
  rw [if_neg (by decide +kernel)]
  split
  · next hnone => cases hsplit.symm.trans hnone
  · next hsome =>
    cases hsplit.symm.trans hsome
    rw [if_neg (by decide +kernel), if_neg (by decide +kernel), dif_neg (by decide +kernel)]
    rfl

theorem handle_lokiRequest : ∃ callback response,
    handle localContext servedEnv lokiRequest false =
        .request (.resolveSns (ascii "abc.loki")) callback .done ∧
      callback lokiResult = .emit .reenter (.emit (.reply response) .done) := by
  obtain ⟨response, hresponse⟩ := Option.isSome_iff_exists.mp (by decide +kernel :
    ((answerAddress servedEnv lokiResolved ⟨NetworkAddress.toText ⟨.filled 32 2, true⟩, [],
      RouterID.toText (.filled 32 2), clientTld, false⟩ true).encode false).isSome = true)
  have hm : extractQuestion localContext lokiRequest = some lokiMessage := by decide +kernel
  have hsplit : splitName lokiQuestion.name = some ([], ascii "abc", lokiTld) := by decide +kernel
  have htask : ∃ callback, handleLocal servedEnv lokiMessage lokiQuestion lokiQuestion.name false =
        some (.request (.resolveSns (ascii "abc.loki")) callback .done) ∧
      callback lokiResult = .emit .reenter
        (match handleLocal servedEnv lokiResolved lokiQuestion
          (NetworkAddress.toText ⟨.filled 32 2, true⟩) false with
        | some task => task
        | none => reply (lokiResolved.addReply .servfail) false) := by
    rw [handleLocal, show handleLocalPtr servedEnv lokiMessage lokiQuestion false = none from rfl]
    dsimp only
    rw [if_neg (by decide +kernel)]
    split
    · next hnone => cases hsplit.symm.trans hnone
    · next hsome =>
      cases hsplit.symm.trans hsome
      rw [if_neg (by decide +kernel), if_neg (by decide +kernel), dif_pos (by decide +kernel)]
      exact ⟨_, rfl, rfl⟩
  obtain ⟨callback, htask, hcallback⟩ := htask
  refine ⟨callback, response, ?_, ?_⟩
  · rw [handle, hm]
    simp only [handleMessage, lokiMessage, Bool.false_eq_true, if_false, Option.map_none,
      Option.getD_none]
    rw [show handleLocal servedEnv ⟨7, 256, some lokiQuestion, [], [], none, none, false⟩
      lokiQuestion lokiQuestion.name false = _ from htask]
  · rw [hcallback, handleLocal_resolved]
    simp only [reply, hresponse, respond]

/-- The name resolves before the call returns, the resolver re-enters itself, and replies once. -/
theorem lokiRequest_oneReply : ∃ loop : HandlerLoop, loop.Complete ∧
    loop.events.count .reenter = 1 ∧ loop.events.countP HandlerEvent.isReply = 1 ∧
      OneReply loop := by
  obtain ⟨callback, response, htask, hcallback⟩ := handle_lokiRequest
  refine ⟨⟨[], [], [.finished, .finished, .emitted (.reply response), .emitted .reenter,
    .answered (.resolveSns (ascii "abc.loki")) lokiResult, .requested]⟩, ⟨rfl, rfl⟩, rfl, rfl, ?_⟩
  apply handle_oneReply localContext servedEnv lokiRequest false
  · decide +kernel
  · rw [htask]
    refine .head (.request _ _ _ _ _ _) (.head (.answer _ callback lokiResult [] [] _ _) ?_)
    rw [hcallback]
    exact .head (.emit _ _ _ _ _) (.head (.emit _ _ _ _ _)
      (.head (.finish _ _ _) (.single (.finish _ _ _))))

end SessionRouter.Dns
