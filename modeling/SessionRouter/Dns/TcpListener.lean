import SessionRouter.Dns.SrvAnswers
import SessionRouter.Lib.Run

/-!
# Requests over TCP

On a TCP connection every request is preceded by its length.  The read callback takes complete
requests off the input and hands them to the handler, one after the other, in the same loop; what
is left waits for more bytes.  `tcp_requests_handled` says that the handler gets the requests as
they were sent, whatever the reads are, as long as it does not throw.
-/

namespace SessionRouter.Dns

open Lib

/-- What one run of the read callback does: the requests it hands to the handler, the input it
leaves, and whether the handler threw. -/
@[ext]
structure Taken where
  requests : List Bytes
  left : Bytes
  threw : Bool
  deriving DecidableEq

section

variable (throws : Bytes → Bool)

/-- The loop of the read callback.  A request is drained before the handler gets it, and nothing
catches what the handler throws. -/
def takeRequests (input : Bytes) : Taken :=
  match input with
  | high :: low :: pending =>
    let reqlen := loadBig [high, low]
    if pending.length < reqlen then ⟨[], input, false⟩
    else
      let req := pending.take reqlen
      if throws req then ⟨[req], pending.drop reqlen, true⟩
      else
        let taken := takeRequests (pending.drop reqlen)
        { taken with requests := req :: taken.requests }
  | _ => ⟨[], input, false⟩
termination_by input.length
decreasing_by simp; omega

structure TcpConn where
  input : Bytes
  handled : List Bytes
  threw : Bool
  deriving DecidableEq

/-- Bytes arrive, and the read callback runs, unless an exception has left the event loop. -/
def TcpConn.read (conn : TcpConn) (bytes : Bytes) : TcpConn :=
  if conn.threw then conn
  else
    let taken := takeRequests throws (conn.input ++ bytes)
    ⟨taken.left, conn.handled ++ taken.requests, taken.threw⟩

end

def tcpFrame (request : Bytes) : Bytes :=
  storeBig 2 request.length ++ request

def Incomplete (bytes : Bytes) : Prop :=
  bytes.length < 2 ∨ bytes.length - 2 < loadBig (bytes.take 2)

variable {throws : Bytes → Bool}

theorem takeRequests_of_incomplete {bytes : Bytes} (h : Incomplete bytes) :
    takeRequests throws bytes = ⟨[], bytes, false⟩ := by
  unfold takeRequests
  split
  · next high low pending => exact if_pos (by simpa [Incomplete] using h)
  · rfl

theorem takeRequests_frame {request : Bytes} (h : request.length < 65536)
    (hhandled : throws request = false) (rest : Bytes) :
    takeRequests throws (tcpFrame request ++ rest) =
      { takeRequests throws rest with
        requests := request :: (takeRequests throws rest).requests } := by
  have hload : loadBig (storeBig 2 request.length) = request.length := loadBig_storeBig h
  obtain ⟨high, low, heq⟩ : ∃ high low, storeBig 2 request.length = [high, low] :=
    List.length_eq_two.mp (length_storeBig 2 _)
  rw [heq] at hload
  rw [tcpFrame, heq, List.append_assoc, List.cons_append, List.cons_append, List.nil_append,
    takeRequests]
  simp [hload, hhandled]

/-- The input that was left takes part in the next read, if there is one. -/
theorem takeRequests_append (input bytes : Bytes) : takeRequests throws (input ++ bytes) =
    if (takeRequests throws input).threw then
      { takeRequests throws input with left := (takeRequests throws input).left ++ bytes }
    else
      { takeRequests throws ((takeRequests throws input).left ++ bytes) with
        requests := (takeRequests throws input).requests ++
          (takeRequests throws ((takeRequests throws input).left ++ bytes)).requests } := by
  fun_induction takeRequests throws input with
  | case1 | case4 => rfl
  | case2 high low pending reqlen hfits req hthrows =>
    have hle : loadBig [high, low] ≤ pending.length := Nat.le_of_not_lt hfits
    rw [List.cons_append, List.cons_append, takeRequests]
    simp only [List.length_append, List.drop_append_of_le_length hle,
      List.take_append_of_le_length hle]
    rw [if_neg (by omega), if_pos hthrows]
    rfl
  | case3 high low pending reqlen hfits req hhandled taken ih =>
    have hle : loadBig [high, low] ≤ pending.length := Nat.le_of_not_lt hfits
    rw [List.cons_append, List.cons_append, takeRequests]
    simp only [List.length_append, List.drop_append_of_le_length hle,
      List.take_append_of_le_length hle]
    rw [if_neg (by omega), if_neg hhandled, ih]
    split <;> rfl

theorem run_read {conn : TcpConn} {chunks : List Bytes} (hconn : conn.threw = false)
    (h : takeRequests throws conn.input = ⟨[], conn.input, false⟩)
    (hall : (takeRequests throws (conn.input ++ chunks.flatten)).threw = false) :
    Run.run (TcpConn.read throws) conn chunks =
      ⟨(takeRequests throws (conn.input ++ chunks.flatten)).left,
        conn.handled ++ (takeRequests throws (conn.input ++ chunks.flatten)).requests, false⟩ := by
  induction chunks generalizing conn with
  | nil =>
    obtain ⟨input, handled, threw⟩ := conn
    simp_all
  | cons chunk chunks ih =>
    have hrest := @takeRequests_append throws (conn.input ++ chunk) chunks.flatten
    rw [List.append_assoc, ← List.flatten_cons] at hrest
    -- a run that throws in this read would throw on the whole input
    have hfirst : (takeRequests throws (conn.input ++ chunk)).threw = false := by
      by_contra hthrew
      rw [hrest, if_pos (Bool.not_eq_false _ ▸ hthrew)] at hall
      exact hthrew hall
    rw [hfirst, if_neg Bool.false_ne_true] at hrest
    have hread : conn.read throws chunk = ⟨(takeRequests throws (conn.input ++ chunk)).left,
        conn.handled ++ (takeRequests throws (conn.input ++ chunk)).requests, false⟩ := by
      simp only [TcpConn.read, hconn, Bool.false_eq_true, if_false, hfirst]
    have hleft : takeRequests throws (takeRequests throws (conn.input ++ chunk)).left =
        ⟨[], (takeRequests throws (conn.input ++ chunk)).left, false⟩ := by
      have happend := @takeRequests_append throws (conn.input ++ chunk) []
      rw [List.append_nil, List.append_nil, hfirst, if_neg Bool.false_ne_true, Taken.ext_iff]
        at happend
      obtain ⟨hrequests, hleft, hthrew⟩ := happend
      exact Taken.ext (List.self_eq_append_right.mp hrequests) hleft.symm
        (hthrew.symm.trans hfirst)
    rw [Run.run_cons, hread, ih rfl hleft (by rw [hrest] at hall; exact hall), hrest]
    simp

theorem takeRequests_frames {requests : List Bytes}
    (h : ∀ r ∈ requests, r.length < 65536 ∧ throws r = false)
    {trailing : Bytes} (htrailing : Incomplete trailing) :
    takeRequests throws ((requests.map tcpFrame).flatten ++ trailing) =
      ⟨requests, trailing, false⟩ := by
  induction requests with
  | nil => exact takeRequests_of_incomplete htrailing
  | cons request requests ih =>
    rw [List.forall_mem_cons] at h
    rw [List.map_cons, List.flatten_cons, List.append_assoc, takeRequests_frame h.1.1 h.1.2,
      ih h.2]

/-- However the bytes are cut into reads, the handler gets the requests in order, if it does not
throw on any of them. -/
theorem tcp_requests_handled {requests : List Bytes} (h : ∀ r ∈ requests, r.length < 65536)
    (hhandled : ∀ r ∈ requests, throws r = false) {trailing : Bytes}
    (htrailing : Incomplete trailing) {chunks : List Bytes}
    (hchunks : chunks.flatten = (requests.map tcpFrame).flatten ++ trailing) :
    Run.run (TcpConn.read throws) ⟨[], [], false⟩ chunks = ⟨trailing, requests, false⟩ := by
  have htaken := @takeRequests_frames throws requests
    (fun r hr => ⟨h r hr, hhandled r hr⟩) trailing htrailing
  rw [← hchunks] at htaken
  rw [run_read rfl (takeRequests_of_incomplete (.inl (by decide)))]
  · rw [List.nil_append, htaken, List.nil_append]
  · rw [List.nil_append, htaken]

theorem tcp_requests_handled_split :
    Run.run (TcpConn.read (· = [9])) ⟨[], [], false⟩ [[0], [2, 7], [8, 0, 0], [0, 3, 1]] =
      ⟨[0, 3, 1], [[7, 8], []], false⟩ :=
  tcp_requests_handled (by decide) (by decide) (.inr (by decide)) (by decide)

/-- A question whose name has a label of 64 bytes. -/
def longLabelRequest : Bytes :=
  [0, 7, 1, 0, 0, 1, 0, 0, 0, 0, 0, 0, 64] ++ List.replicate 64 97 ++ [0, 0, 1, 0, 1]

/-- The question with the long label is parsed and no response to it can be encoded, so that the
handler throws on it; what stands behind it in the same read is not handed to the handler. -/
theorem request_behind_throw_dropped :
    (∃ m, extractQuestion localContext longLabelRequest = some m ∧ m.badExtract = false ∧
      (m.addReply .refused).encode true = none) ∧
    Run.run (TcpConn.read (· = longLabelRequest)) ⟨[], [], false⟩
        [tcpFrame longLabelRequest ++ tcpFrame [9]] =
      ⟨tcpFrame [9], [longLabelRequest], true⟩ := by
  constructor
  · obtain ⟨m, hm⟩ := Option.isSome_iff_exists.mp
      (by decide +kernel : (extractQuestion localContext longLabelRequest).isSome = true)
    have hencode : ∀ m' ∈ extractQuestion localContext longLabelRequest,
        m'.badExtract = false ∧ (m'.addReply .refused).encode true = none := by decide +kernel
    exact ⟨m, hm, hencode m hm⟩
  · rw [Run.run_cons, Run.run_nil, TcpConn.read]
    simp only [Bool.false_eq_true, if_false, List.nil_append]
    rw [show tcpFrame longLabelRequest ++ tcpFrame [9] =
      0 :: 82 :: (longLabelRequest ++ tcpFrame [9]) by decide +kernel, takeRequests]
    decide +kernel

end SessionRouter.Dns
