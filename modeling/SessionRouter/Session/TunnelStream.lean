import SessionRouter.Lib.Bytes
import SessionRouter.Lib.Run

/-!
# An accepted stream of the TCP tunnel
-/

namespace SessionRouter.Session

open Lib

def portPreambleSize : Nat := 2

def socketClearWater : Nat := 65536

/-- What is done to the socket. -/
inductive SocketOp where
  | write (data : Bytes)
  | shutdown
deriving DecidableEq

structure TCPConnection where
  output : Bytes
  socket : List SocketOp
  connected : Bool
  finished : Bool
  finSent : Bool
  finReceived : Bool
  writeShutdown : Bool
  dropped : Bool
deriving DecidableEq

namespace TCPConnection

def connect (rest : Bytes) : TCPConnection where
  output := rest
  socket := []
  connected := false
  finished := false
  finSent := false
  finReceived := false
  writeShutdown := false
  dropped := false

def flushAndShutdownWrite (early : Bool) (conn : TCPConnection) : TCPConnection :=
  if conn.writeShutdown then conn
  else if conn.output ≠ [] then conn
  else
    { conn with
      writeShutdown := true
      socket := if conn.connected || early then conn.socket ++ [.shutdown] else conn.socket
      finished := conn.finished || conn.finSent }

def onStreamFin (early : Bool) (conn : TCPConnection) : TCPConnection :=
  flushAndShutdownWrite early { conn with finReceived := true }

def onWriteAvailable (early : Bool) (conn : TCPConnection) : TCPConnection :=
  if conn.finReceived then conn.flushAndShutdownWrite early else conn

def onTcpEof (conn : TCPConnection) : TCPConnection :=
  if conn.finSent then conn
  else { conn with finSent := true, finished := conn.finished || conn.writeShutdown }

def written (conn : TCPConnection) (count : Nat) : TCPConnection :=
  { conn with
    output := conn.output.drop count
    socket := conn.socket ++ [.write (conn.output.take count)] }

def drain (early : Bool) (conn : TCPConnection) (count : Nat) : TCPConnection :=
  if conn.output.take count = [] then conn
  else if (conn.written count).output.length ≤ socketClearWater then
    (conn.written count).onWriteAvailable early
  else conn.written count

end TCPConnection

/-- A stream that the remote has opened. -/
structure TunnelStream where
  buffered : Bytes
  connecting : Bool
  conn : Option TCPConnection
  refused : Bool
  received : Bytes
  finDelivered : Bool
deriving DecidableEq

inductive StreamAction where
  | data (bytes : Bytes)
  | fin
  | start (accepted : Bool)
  | connected
  | drain (count : Nat)
  | eof
  | streamClosed
  | drop
deriving DecidableEq

namespace TunnelStream

def buffer (stream : TunnelStream) (bytes : Bytes) : TunnelStream :=
  let buffered := stream.buffered ++ bytes
  { stream with
    buffered := buffered
    connecting := stream.connecting || !decide (buffered.length < portPreambleSize) }

def startAcceptedStream (stream : TunnelStream) (accepted : Bool) : TunnelStream :=
  let destPort := loadBig (stream.buffered.take portPreambleSize)
  if destPort = 0 then { stream with refused := true }
  else if accepted = false then { stream with refused := true }
  else { stream with conn := some (.connect (stream.buffered.drop portPreambleSize)) }

def onConn (stream : TunnelStream) (change : TCPConnection → TCPConnection) : TunnelStream :=
  match stream.conn with
  | none => stream
  | some conn => if conn.dropped then stream else { stream with conn := some (change conn) }

def step (early : Bool) (stream : TunnelStream) : StreamAction → TunnelStream
  | .data bytes =>
    if stream.finDelivered then stream
    else
      let stream := { stream with received := stream.received ++ bytes }
      match stream.conn with
      | none => stream.buffer bytes
      | some conn => { stream with conn := some { conn with output := conn.output ++ bytes } }
  | .fin =>
    if stream.finDelivered then stream
    else { stream.onConn (·.onStreamFin early) with finDelivered := true }
  | .start accepted =>
    if stream.connecting ∧ stream.conn = none ∧ stream.refused = false then
      stream.startAcceptedStream accepted
    else stream
  | .connected => stream.onConn fun conn => { conn with connected := true }
  | .drain count => stream.onConn fun conn =>
    if conn.connected then conn.drain early count else conn
  | .eof => stream.onConn fun conn => if conn.connected then conn.onTcpEof else conn
  | .streamClosed => stream.onConn fun conn =>
    if stream.finDelivered && conn.finSent then { conn with finished := true } else conn
  | .drop => stream.onConn fun conn => if conn.finished then { conn with dropped := true } else conn

def init : TunnelStream where
  buffered := []
  connecting := false
  conn := none
  refused := false
  received := []
  finDelivered := false

/-! ## What is delivered -/

def Complete (stream : TunnelStream) : Prop :=
  ∃ conn, stream.conn = some conn ∧ conn.connected = true ∧ stream.finDelivered = true ∧
    (conn.output = [] ∨ conn.dropped = true)

def Delivered (stream : TunnelStream) : Prop :=
  ∃ (conn : TCPConnection) (writes : List Bytes), stream.conn = some conn ∧
    conn.socket = writes.map SocketOp.write ++ [.shutdown] ∧
    writes.flatten = stream.received.drop portPreambleSize

def InTime (early : Bool) (stream : TunnelStream) : StreamAction → Prop
  | .fin =>
    stream.finDelivered = false → ∃ conn, stream.conn = some conn ∧
      (conn.output ≠ [] ∨ conn.connected = true ∨ early = true)
  | .drop =>
    ∀ conn, stream.conn = some conn → conn.finished = true → conn.dropped = false →
      conn.output = []
  | _ => True

/-! ## What a TCP connection keeps -/

structure WfConn (payload : Bytes) (finDelivered : Bool) (conn : TCPConnection) : Prop where
  socket : ∃ (writes : List Bytes) (shut : Bool),
    conn.socket = writes.map SocketOp.write ++ (if shut then [.shutdown] else []) ∧
      writes.flatten ++ conn.output = payload ∧ (shut = true → conn.writeShutdown = true)
  shutdown : conn.writeShutdown = true → conn.finReceived = true ∧ conn.output = []
  flushed : conn.finReceived = true → conn.output = [] → conn.writeShutdown = true
  fin : conn.finReceived = true → finDelivered = true
  finished : conn.finished = true → finDelivered = true
  dropped : conn.dropped = true → conn.finished = true

structure GoodConn (finDelivered : Bool) (conn : TCPConnection) : Prop where
  fin : finDelivered = true → conn.finReceived = true
  shutdown : conn.writeShutdown = true → SocketOp.shutdown ∈ conn.socket
  dropped : conn.dropped = true → conn.output = []

section

variable {payload : Bytes} {finDelivered early : Bool} {conn : TCPConnection}

section

variable (h : WfConn payload false conn)

include h

theorem WfConn.finReceived_eq_false : conn.finReceived = false :=
  eq_false_of_ne_true fun hfin => Bool.false_ne_true (h.fin hfin)

theorem WfConn.writeShutdown_eq_false : conn.writeShutdown = false :=
  eq_false_of_ne_true fun hdone => Bool.false_ne_true (h.fin (h.shutdown hdone).1)

theorem WfConn.dropped_eq_false : conn.dropped = false :=
  eq_false_of_ne_true fun hdropped => Bool.false_ne_true (h.finished (h.dropped hdropped))

end

theorem goodConn_iff (hshutdown : conn.writeShutdown = false) (hdropped : conn.dropped = false) :
    GoodConn finDelivered conn ↔ (finDelivered = true → conn.finReceived = true) := by
  refine ⟨fun h => h.fin, fun hfin => ⟨hfin, fun h => ?_, fun h => ?_⟩⟩
  · exact absurd (hshutdown.symm.trans h) Bool.false_ne_true
  · exact absurd (hdropped.symm.trans h) Bool.false_ne_true

theorem WfConn.good (h : WfConn payload false conn) : GoodConn false conn :=
  (goodConn_iff h.writeShutdown_eq_false h.dropped_eq_false).mpr
    fun hfin => absurd hfin Bool.false_ne_true

theorem goodConn_congr {other : TCPConnection} (hfin : other.finReceived = conn.finReceived)
    (hshutdown : other.writeShutdown = conn.writeShutdown) (hsocket : other.socket = conn.socket)
    (hdropped : other.dropped = conn.dropped) (houtput : other.output = conn.output) :
    GoodConn finDelivered other ↔ GoodConn finDelivered conn := by
  constructor
  · intro h
    exact ⟨hfin ▸ h.fin, hshutdown ▸ hsocket ▸ h.shutdown, hdropped ▸ houtput ▸ h.dropped⟩
  · intro h
    exact ⟨hfin ▸ h.fin, hshutdown ▸ hsocket ▸ h.shutdown, hdropped ▸ houtput ▸ h.dropped⟩

theorem wf_connect (rest : Bytes) (finDelivered : Bool) :
    WfConn rest finDelivered (.connect rest) where
  socket := ⟨[], false, rfl, rfl, fun hshut => absurd hshut Bool.false_ne_true⟩
  shutdown hshutdown := absurd hshutdown Bool.false_ne_true
  flushed hfin := absurd hfin Bool.false_ne_true
  fin hfin := absurd hfin Bool.false_ne_true
  finished hfinished := absurd hfinished Bool.false_ne_true
  dropped hdropped := absurd hdropped Bool.false_ne_true

theorem WfConn.write (h : WfConn payload false conn) (bytes : Bytes) :
    WfConn (payload ++ bytes) false { conn with output := conn.output ++ bytes } := by
  obtain ⟨writes, shut, hsocket, hpayload, hshut⟩ := h.socket
  refine ⟨⟨writes, shut, hsocket, ?_, hshut⟩, fun hshutdown => ?_, fun hfin => ?_, h.fin,
    h.finished, h.dropped⟩
  · rw [← hpayload, List.append_assoc]
  · exact absurd (h.writeShutdown_eq_false.symm.trans hshutdown) Bool.false_ne_true
  · exact absurd (h.finReceived_eq_false.symm.trans hfin) Bool.false_ne_true

theorem wf_flush (early : Bool)
    (hsocket : ∃ (writes : List Bytes) (shut : Bool),
      conn.socket = writes.map SocketOp.write ++ (if shut then [.shutdown] else []) ∧
        writes.flatten ++ conn.output = payload ∧ (shut = true → conn.writeShutdown = true))
    (hshutdown : conn.writeShutdown = true → conn.output = []) (hfin : conn.finReceived = true)
    (hdropped : conn.dropped = true → conn.finished = true) :
    WfConn payload true (conn.flushAndShutdownWrite early) := by
  rw [TCPConnection.flushAndShutdownWrite]
  by_cases hdone : conn.writeShutdown = true
  · rw [if_pos hdone]
    exact ⟨hsocket, fun h => ⟨hfin, hshutdown h⟩, fun _ _ => hdone, fun _ => rfl, fun _ => rfl,
      hdropped⟩
  · rw [if_neg hdone]
    by_cases houtput : conn.output = []
    · rw [if_neg (not_not.mpr houtput)]
      obtain ⟨writes, shut, hops, hpayload, hshut⟩ := hsocket
      obtain rfl : shut = false := eq_false_of_ne_true (mt hshut hdone)
      refine ⟨⟨writes, conn.connected || early, ?_, hpayload, fun _ => rfl⟩,
        fun _ => ⟨hfin, houtput⟩, fun _ _ => rfl, fun _ => rfl, fun _ => rfl, fun h => ?_⟩
      · dsimp only
        rw [hops, if_neg Bool.false_ne_true, List.append_nil]
        split_ifs
        · rfl
        · rw [List.append_nil]
      · exact Bool.or_eq_true_iff.mpr (Or.inl (hdropped h))
    · rw [if_pos houtput]
      exact ⟨hsocket, fun h => absurd h hdone, fun _ h => absurd h houtput, fun _ => rfl,
        fun _ => rfl, hdropped⟩

theorem WfConn.onStreamFin (h : WfConn payload false conn) (early : Bool) :
    WfConn payload true (conn.onStreamFin early) :=
  wf_flush early h.socket (fun hshutdown => (h.shutdown hshutdown).2) rfl h.dropped

theorem WfConn.not_mem_shutdown (h : WfConn payload finDelivered conn)
    (hshutdown : conn.writeShutdown = false) : SocketOp.shutdown ∉ conn.socket := by
  obtain ⟨writes, shut, hops, -, hshut⟩ := h.socket
  rw [hshutdown] at hshut
  obtain rfl : shut = false := eq_false_of_ne_true (mt hshut Bool.false_ne_true)
  simp [hops]

theorem goodConn_flush (hops : SocketOp.shutdown ∉ conn.socket)
    (hshutdown : conn.writeShutdown = false) (hfin : conn.finReceived = true)
    (hdropped : conn.dropped = false) :
    GoodConn true (conn.flushAndShutdownWrite early) ↔
      (conn.output ≠ [] ∨ conn.connected = true ∨ early = true) := by
  rw [TCPConnection.flushAndShutdownWrite, hshutdown, if_neg Bool.false_ne_true]
  by_cases houtput : conn.output = []
  · rw [if_neg (not_not.mpr houtput), or_iff_right (not_not.mpr houtput), ← Bool.or_eq_true_iff]
    constructor
    · intro hgood
      have hmem := hgood.shutdown rfl
      by_contra hnot
      dsimp only at hmem
      rw [if_neg hnot] at hmem
      exact hops hmem
    · intro hcan
      refine ⟨fun _ => hfin, fun _ => ?_, fun _ => houtput⟩
      dsimp only
      rw [if_pos hcan]
      exact List.mem_append_right _ List.mem_cons_self
  · rw [if_pos houtput]
    exact iff_of_true ((goodConn_iff hshutdown hdropped).mpr fun _ => hfin) (Or.inl houtput)

section

variable (h : WfConn payload finDelivered conn)

include h

theorem WfConn.written {count : Nat}
    (hcount : conn.output.take count ≠ []) :
    conn.writeShutdown = false ∧ ∃ (writes : List Bytes) (shut : Bool),
      (conn.written count).socket =
        writes.map SocketOp.write ++ (if shut then [.shutdown] else []) ∧
      writes.flatten ++ (conn.written count).output = payload ∧
      (shut = true → (conn.written count).writeShutdown = true) := by
  have houtput : conn.output ≠ [] := fun hnil => hcount (by rw [hnil, List.take_nil])
  have hshutdown : conn.writeShutdown = false :=
    eq_false_of_ne_true fun hdone => houtput (h.shutdown hdone).2
  obtain ⟨writes, shut, hops, hpayload, hshut⟩ := h.socket
  obtain rfl : shut = false :=
    eq_false_of_ne_true fun hshutting => Bool.false_ne_true (hshutdown.symm.trans (hshut hshutting))
  refine ⟨hshutdown, writes ++ [conn.output.take count], false, ?_, ?_, hshut⟩
  · rw [TCPConnection.written, hops, List.map_append]
    simp
  · rw [TCPConnection.written, List.flatten_append, List.flatten_singleton, List.append_assoc,
      List.take_append_drop]
    exact hpayload

theorem WfConn.drain (early : Bool) (count : Nat) :
    WfConn payload finDelivered (conn.drain early count) := by
  rw [TCPConnection.drain]
  by_cases hcount : conn.output.take count = []
  · rw [if_pos hcount]
    exact h
  · obtain ⟨hshutdown, hsocket⟩ := h.written hcount
    have hopen {goal : Prop} (hdone : (conn.written count).writeShutdown = true) : goal :=
      absurd (hshutdown.symm.trans hdone) Bool.false_ne_true
    rw [if_neg hcount]
    by_cases hwater : (conn.written count).output.length ≤ socketClearWater
    · rw [if_pos hwater, TCPConnection.onWriteAvailable]
      by_cases hfin : (conn.written count).finReceived = true
      · rw [if_pos hfin, h.fin hfin]
        exact wf_flush early hsocket hopen hfin h.dropped
      · rw [if_neg hfin]
        exact ⟨hsocket, hopen, fun hdone => absurd hdone hfin, h.fin, h.finished, h.dropped⟩
    · rw [if_neg hwater]
      refine ⟨hsocket, hopen, fun _ hnil => absurd ?_ hwater, h.fin, h.finished, h.dropped⟩
      rw [hnil]
      exact Nat.zero_le _

theorem WfConn.goodConn_drain
    (hconnected : conn.connected = true) (hdropped : conn.dropped = false) (count : Nat) :
    GoodConn finDelivered (conn.drain early count) ↔ GoodConn finDelivered conn := by
  rw [TCPConnection.drain]
  by_cases hcount : conn.output.take count = []
  · rw [if_pos hcount]
  · obtain ⟨hshutdown, -⟩ := h.written hcount
    have hwritten : GoodConn finDelivered (conn.written count) ↔ GoodConn finDelivered conn := by
      rw [goodConn_iff hshutdown hdropped]
      exact @goodConn_iff finDelivered (conn.written count) hshutdown hdropped
    rw [if_neg hcount]
    split_ifs
    · rw [TCPConnection.onWriteAvailable]
      split_ifs with hfin
      · have hops : SocketOp.shutdown ∉ (conn.written count).socket := by
          have hbefore := h.not_mem_shutdown hshutdown
          simp [TCPConnection.written, hbefore]
        have hgood := (@goodConn_flush early (conn.written count) hops hshutdown hfin hdropped).mpr
          (Or.inr (Or.inl hconnected))
        rw [h.fin hfin]
        exact iff_of_true hgood ((goodConn_iff hshutdown hdropped).mpr fun _ => hfin)
      · exact hwritten
    · exact hwritten

theorem WfConn.onTcpEof : WfConn payload finDelivered conn.onTcpEof := by
  rw [TCPConnection.onTcpEof]
  split_ifs
  · exact h
  · refine ⟨h.socket, h.shutdown, h.flushed, h.fin, fun hfinished => ?_, fun hdropped => ?_⟩
    · rcases Bool.or_eq_true_iff.mp hfinished with hbefore | hshutdown
      · exact h.finished hbefore
      · exact h.fin (h.shutdown hshutdown).1
    · exact Bool.or_eq_true_iff.mpr (Or.inl (h.dropped hdropped))

end

theorem goodConn_onTcpEof : GoodConn finDelivered conn.onTcpEof ↔ GoodConn finDelivered conn := by
  rw [TCPConnection.onTcpEof]
  split_ifs
  · rfl
  · exact goodConn_congr rfl rfl rfl rfl rfl

theorem goodConn_drop (hdropped : conn.dropped = false) :
    GoodConn finDelivered (if conn.finished then { conn with dropped := true } else conn) ↔
      GoodConn finDelivered conn ∧ (conn.finished = true → conn.output = []) := by
  split_ifs with hfinished
  · constructor
    · intro hgood
      refine ⟨⟨hgood.fin, hgood.shutdown, fun hnot => ?_⟩, fun _ => hgood.dropped rfl⟩
      exact absurd (hdropped.symm.trans hnot) Bool.false_ne_true
    · rintro ⟨hgood, houtput⟩
      exact ⟨hgood.fin, hgood.shutdown, fun _ => houtput hfinished⟩
  · exact (and_iff_left fun hnot => absurd hnot hfinished).symm

end

/-! ## What a stream keeps -/

/-- What holds of a stream in every run. -/
structure Wf (stream : TunnelStream) : Prop where
  pending : stream.conn = none → stream.buffered = stream.received ∧
    (stream.connecting = true → portPreambleSize ≤ stream.buffered.length)
  conn : ∀ conn, stream.conn = some conn → portPreambleSize ≤ stream.received.length ∧
    WfConn (stream.received.drop portPreambleSize) stream.finDelivered conn

structure Good (stream : TunnelStream) : Prop where
  pending : stream.conn = none → stream.finDelivered = false
  conn : ∀ conn, stream.conn = some conn → GoodConn stream.finDelivered conn

section

variable {stream : TunnelStream} {early : Bool}

variable {change : TCPConnection → TCPConnection}

theorem Wf.onConn (h : Wf stream)
    (hchange : ∀ conn, WfConn (stream.received.drop portPreambleSize) stream.finDelivered conn →
      WfConn (stream.received.drop portPreambleSize) stream.finDelivered (change conn)) :
    Wf (stream.onConn change) := by
  rw [TunnelStream.onConn]
  cases hconn : stream.conn with
  | none => exact h
  | some conn =>
    dsimp only
    split_ifs
    · exact h
    · obtain ⟨hlength, hwf⟩ := h.conn conn hconn
      refine ⟨fun hnone => absurd hnone (Option.some_ne_none _), fun next hnext => ?_⟩
      obtain rfl := Option.some.inj hnext
      exact ⟨hlength, hchange conn hwf⟩

theorem good_some_iff {conn : TCPConnection} (hconn : stream.conn = some conn) :
    Good stream ↔ GoodConn stream.finDelivered conn := by
  constructor
  · intro h
    exact h.conn conn hconn
  · intro h
    refine ⟨fun hnone => absurd (hconn.symm.trans hnone) (Option.some_ne_none _),
      fun next hnext => ?_⟩
    obtain rfl := Option.some.inj (hconn.symm.trans hnext)
    exact h

theorem good_onConn_iff {condition : TCPConnection → Prop}
    (hchange : ∀ conn, stream.conn = some conn → conn.dropped = false →
      (GoodConn stream.finDelivered (change conn) ↔
        GoodConn stream.finDelivered conn ∧ condition conn)) :
    Good (stream.onConn change) ↔ Good stream ∧
      ∀ conn, stream.conn = some conn → conn.dropped = false → condition conn := by
  rw [TunnelStream.onConn]
  cases hconn : stream.conn with
  | none =>
    refine (and_iff_left_of_imp fun _ conn hnone => ?_).symm
    exact absurd hnone.symm (Option.some_ne_none _)
  | some conn =>
    dsimp only
    by_cases hdropped : conn.dropped = true
    · rw [if_pos hdropped]
      refine (and_iff_left_of_imp fun _ next hnext hnot => ?_).symm
      obtain rfl := Option.some.inj hnext
      exact absurd (hnot.symm.trans hdropped) Bool.false_ne_true
    · rw [if_neg hdropped, good_some_iff rfl, good_some_iff hconn,
        hchange conn hconn (eq_false_of_ne_true hdropped)]
      refine and_congr_right fun _ => ⟨fun hcondition next hnext _ => ?_, fun hall => ?_⟩
      · obtain rfl := Option.some.inj hnext
        exact hcondition
      · exact hall conn rfl (eq_false_of_ne_true hdropped)

theorem good_onConn (hchange : ∀ conn, stream.conn = some conn → conn.dropped = false →
      (GoodConn stream.finDelivered (change conn) ↔ GoodConn stream.finDelivered conn)) :
    Good (stream.onConn change) ↔ Good stream := by
  rw [@good_onConn_iff stream change (fun _ => True) fun conn hconn hdropped => by
    rw [hchange conn hconn hdropped, and_true]]
  exact and_iff_left fun _ _ _ => trivial

theorem wf_init : Wf init where
  pending _ := ⟨rfl, fun hconnecting => absurd hconnecting Bool.false_ne_true⟩
  conn _ hconn := absurd hconn.symm (Option.some_ne_none _)

section

variable (h : Wf stream)

include h

theorem Wf.data (bytes : Bytes) : Wf (stream.step early (.data bytes)) := by
  rw [step]
  by_cases hend : stream.finDelivered = true
  · rw [if_pos hend]
    exact h
  · rw [if_neg hend]
    cases hconn : stream.conn with
    | none =>
      obtain ⟨hbuffered, hconnecting⟩ := h.pending hconn
      refine ⟨fun _ => ⟨congrArg (· ++ bytes) hbuffered, fun hnow => ?_⟩,
        fun conn hsome => absurd hsome.symm (Option.some_ne_none _)⟩
      change portPreambleSize ≤ (stream.buffered ++ bytes).length
      rcases Bool.or_eq_true_iff.mp hnow with hbefore | hlong
      · have hlength := hconnecting hbefore
        rw [List.length_append]
        omega
      · simpa using hlong
    | some conn =>
      obtain ⟨hlength, hwf⟩ := h.conn conn hconn
      refine ⟨fun hnone => absurd hnone (Option.some_ne_none _), fun next hnext => ?_⟩
      obtain rfl := Option.some.inj hnext
      dsimp only
      rw [eq_false_of_ne_true hend] at hwf ⊢
      rw [List.drop_append_of_le_length hlength, List.length_append]
      exact ⟨Nat.le_add_right_of_le hlength, hwf.write bytes⟩

theorem Wf.fin : Wf (stream.step early .fin) := by
  rw [step]
  by_cases hend : stream.finDelivered = true
  · rw [if_pos hend]
    exact h
  · rw [if_neg hend, TunnelStream.onConn]
    cases hconn : stream.conn with
    | none =>
      exact ⟨fun _ => h.pending hconn,
        fun conn hsome => absurd (hconn.symm.trans hsome).symm (Option.some_ne_none _)⟩
    | some conn =>
      obtain ⟨hlength, hwf⟩ := h.conn conn hconn
      rw [eq_false_of_ne_true hend] at hwf
      dsimp only
      rw [hwf.dropped_eq_false, if_neg Bool.false_ne_true]
      refine ⟨fun hnone => absurd hnone (Option.some_ne_none _), fun next hnext => ?_⟩
      obtain rfl := Option.some.inj hnext
      exact ⟨hlength, hwf.onStreamFin early⟩

theorem Wf.start (accepted : Bool) :
    Wf (stream.step early (.start accepted)) := by
  rw [step]
  split_ifs with hstart
  · obtain ⟨hconnecting, hnone, -⟩ := hstart
    obtain ⟨hbuffered, hlength⟩ := h.pending hnone
    rw [startAcceptedStream]
    split_ifs
    · exact ⟨h.pending, h.conn⟩
    · exact ⟨h.pending, h.conn⟩
    · refine ⟨fun hnot => absurd hnot (Option.some_ne_none _), fun next hnext => ?_⟩
      obtain rfl := Option.some.inj hnext
      dsimp only
      rw [← hbuffered]
      exact ⟨hlength hconnecting, wf_connect _ _⟩
  · exact h

theorem Wf.step (action : StreamAction) : Wf (stream.step early action) := by
  cases action with
  | data bytes => exact h.data bytes
  | fin => exact h.fin
  | start accepted => exact h.start accepted
  | connected =>
    exact h.onConn fun conn hwf =>
      ⟨hwf.socket, hwf.shutdown, hwf.flushed, hwf.fin, hwf.finished, hwf.dropped⟩
  | drain count =>
    refine h.onConn fun conn hwf => ?_
    split_ifs
    · exact hwf.drain early count
    · exact hwf
  | eof =>
    refine h.onConn fun conn hwf => ?_
    split_ifs
    · exact hwf.onTcpEof
    · exact hwf
  | streamClosed =>
    refine h.onConn fun conn hwf => ?_
    split_ifs with hclosed
    · exact ⟨hwf.socket, hwf.shutdown, hwf.flushed, hwf.fin,
        fun _ => (Bool.and_eq_true_iff.mp hclosed).1, fun _ => rfl⟩
    · exact hwf
  | drop =>
    refine h.onConn fun conn hwf => ?_
    split_ifs with hfinished
    · exact ⟨hwf.socket, hwf.shutdown, hwf.flushed, hwf.fin, hwf.finished, fun _ => hfinished⟩
    · exact hwf

theorem Wf.good (hend : stream.finDelivered = false) : Good stream where
  pending _ := hend
  conn conn hconn := by
    have hwf := (h.conn conn hconn).2
    rw [hend] at hwf ⊢
    exact hwf.good

theorem Wf.good_fin_iff (hend : stream.finDelivered = false) :
    Good (stream.step early .fin) ↔ ∃ conn, stream.conn = some conn ∧
      (conn.output ≠ [] ∨ conn.connected = true ∨ early = true) := by
  rw [TunnelStream.step, hend, if_neg Bool.false_ne_true, TunnelStream.onConn]
  cases hconn : stream.conn with
  | none =>
    refine iff_of_false (fun hgood => ?_) ?_
    · exact Bool.false_ne_true (hgood.pending hconn).symm
    · rintro ⟨conn, hsome, -⟩
      exact absurd hsome.symm (Option.some_ne_none _)
  | some conn =>
    have hwf := (h.conn conn hconn).2
    rw [hend] at hwf
    have hshutdown := hwf.writeShutdown_eq_false
    dsimp only
    rw [hwf.dropped_eq_false, if_neg Bool.false_ne_true, good_some_iff rfl,
      TCPConnection.onStreamFin, @goodConn_flush early { conn with finReceived := true }
        (hwf.not_mem_shutdown hshutdown) hshutdown rfl hwf.dropped_eq_false]
    constructor
    · intro hcan
      exact ⟨conn, rfl, hcan⟩
    · rintro ⟨next, hnext, hcan⟩
      obtain rfl := Option.some.inj hnext
      exact hcan

theorem Wf.good_data_iff (bytes : Bytes) :
    Good (stream.step early (.data bytes)) ↔ Good stream := by
  by_cases hend : stream.finDelivered = true
  · rw [TunnelStream.step, if_pos hend]
  · have hend := eq_false_of_ne_true hend
    refine iff_of_true ((h.data bytes).good ?_) (h.good hend)
    rw [TunnelStream.step, hend, if_neg Bool.false_ne_true]
    cases stream.conn with
    | none => rfl
    | some conn => rfl

theorem Wf.good_start_iff (accepted : Bool) :
    Good (stream.step early (.start accepted)) ↔ Good stream := by
  rw [TunnelStream.step]
  split_ifs with hstart
  · have hrefused : Good { stream with refused := true } ↔ Good stream :=
      ⟨fun hgood => ⟨hgood.pending, hgood.conn⟩, fun hgood => ⟨hgood.pending, hgood.conn⟩⟩
    rw [startAcceptedStream]
    split_ifs
    · exact hrefused
    · exact hrefused
    · rw [good_some_iff rfl, goodConn_iff rfl rfl]
      constructor
      · intro hfin
        exact h.good (eq_false_of_ne_true fun hend => Bool.false_ne_true (hfin hend))
      · intro hgood hend
        exact absurd ((hgood.pending hstart.2.1).symm.trans hend) Bool.false_ne_true
  · rfl

theorem Wf.good_step_iff (action : StreamAction) :
    Good (stream.step early action) ↔ Good stream ∧ InTime early stream action := by
  have hfree {action : StreamAction} (htime : InTime early stream action)
      (hsame : Good (stream.step early action) ↔ Good stream) :
      Good (stream.step early action) ↔ Good stream ∧ InTime early stream action := by
    rw [hsame]
    exact (and_iff_left htime).symm
  cases action with
  | data bytes => exact hfree trivial (h.good_data_iff bytes)
  | fin =>
    by_cases hend : stream.finDelivered = true
    · rw [TunnelStream.step, if_pos hend]
      refine (and_iff_left ?_).symm
      exact fun hnot => absurd (hnot.symm.trans hend) Bool.false_ne_true
    · have hend := eq_false_of_ne_true hend
      rw [h.good_fin_iff hend, InTime, and_iff_right (h.good hend)]
      exact ⟨fun hcan _ => hcan, fun hcan => hcan hend⟩
  | start accepted => exact hfree trivial (h.good_start_iff accepted)
  | connected =>
    exact hfree trivial (good_onConn fun conn _ _ => goodConn_congr rfl rfl rfl rfl rfl)
  | drain count =>
    refine hfree trivial (good_onConn fun conn hconn hdropped => ?_)
    split_ifs with hconnected
    · exact (h.conn conn hconn).2.goodConn_drain hconnected hdropped count
    · rfl
  | eof =>
    refine hfree trivial (good_onConn fun conn _ _ => ?_)
    split_ifs
    · exact goodConn_onTcpEof
    · rfl
  | streamClosed =>
    refine hfree trivial (good_onConn fun conn _ _ => ?_)
    split_ifs
    · exact goodConn_congr rfl rfl rfl rfl rfl
    · rfl
  | drop =>
    rw [TunnelStream.step, @good_onConn_iff stream _
      (fun conn => conn.finished = true → conn.output = []) fun conn _ => goodConn_drop]
    refine and_congr_right fun _ => ?_
    exact ⟨fun hall conn hconn hfinished hdropped => hall conn hconn hdropped hfinished,
      fun hall conn hconn hdropped hfinished => hall conn hconn hfinished hdropped⟩

theorem Wf.delivered_iff_good (hcomplete : Complete stream) :
    Delivered stream ↔ Good stream := by
  obtain ⟨conn, hconn, -, hend, hdone⟩ := hcomplete
  have hwf := (h.conn conn hconn).2
  obtain ⟨writes, shut, hops, hpayload, hshut⟩ := hwf.socket
  rw [good_some_iff hconn, hend]
  constructor
  · rintro ⟨next, delivered, hnext, hsocket, -⟩
    obtain rfl := Option.some.inj (hconn.symm.trans hnext)
    have hmem : SocketOp.shutdown ∈ conn.socket := by
      rw [hsocket]
      exact List.mem_append_right _ List.mem_cons_self
    have hshutdown : conn.writeShutdown = true :=
      eq_true_of_ne_false fun hnot => hwf.not_mem_shutdown hnot hmem
    exact ⟨fun _ => (hwf.shutdown hshutdown).1, fun _ => hmem, fun _ => (hwf.shutdown hshutdown).2⟩
  · intro hgood
    have houtput : conn.output = [] := hdone.elim id hgood.dropped
    have hmem := hgood.shutdown (hwf.flushed (hgood.fin rfl) houtput)
    obtain rfl : shut = true := by
      cases shut with
      | true => rfl
      | false => simp [hops] at hmem
    refine ⟨conn, writes, hconn, hops, ?_⟩
    rw [← hpayload, houtput, List.append_nil]

end

end

/-! ## Whole runs -/

/-- When all has happened to a stream, its socket was written exactly what came after the port and
then shut down, if and only if the end of the stream and the dropping of the connection came in
time. -/
theorem delivered_iff (early : Bool) (actions : List StreamAction)
    (hcomplete : Complete (Run.run (step early) init actions)) :
    Delivered (Run.run (step early) init actions) ↔
      Run.Meets (step early) (InTime early) init actions := by
  have hwf : Wf (Run.run (step early) init actions) :=
    Run.run_invariant_of_step (step early) (fun _ action h => h.step action) actions wf_init
  rw [hwf.delivered_iff_good hcomplete,
    Run.run_iff_meets (step early) (InTime early) (fun _ action h => h.step action)
      (fun _ action h => h.good_step_iff action) actions wf_init]
  exact and_iff_right (wf_init.good rfl)

def timelyEnd : List StreamAction :=
  [.data [0], .data [80], .start true, .data [7], .connected, .fin, .drain 1]

theorem timelyEnd_delivered : Delivered (Run.run (step false) init timelyEnd) :=
  (delivered_iff false timelyEnd ⟨_, rfl, by decide, by decide, by decide⟩).mpr (by
    refine ⟨trivial, trivial, trivial, trivial, trivial, fun _ => ⟨_, rfl, ?_⟩, trivial, trivial⟩
    exact Or.inl (by decide))

def earlyEnd : List StreamAction :=
  [.data [0, 80, 7], .fin, .start true, .connected, .drain 1]

def emptyEnd : List StreamAction :=
  [.data [0, 80], .start true, .fin, .connected]

theorem earlyEnd_not_delivered : Complete (Run.run (step true) init earlyEnd) ∧
      ¬Delivered (Run.run (step true) init earlyEnd) ∧
      Complete (Run.run (step false) init emptyEnd) ∧
      ¬Delivered (Run.run (step false) init emptyEnd) := by
  have hnot {stream : TunnelStream} {conn : TCPConnection} (hconn : stream.conn = some conn)
      (hops : SocketOp.shutdown ∉ conn.socket) : ¬Delivered stream := by
    rintro ⟨next, writes, hnext, hsocket, -⟩
    obtain rfl := Option.some.inj (hconn.symm.trans hnext)
    exact hops (hsocket ▸ List.mem_append_right _ List.mem_cons_self)
  refine ⟨⟨_, rfl, ?_, ?_, ?_⟩, hnot rfl ?_, ⟨_, rfl, ?_, ?_, ?_⟩, hnot rfl ?_⟩ <;> decide

end TunnelStream
end SessionRouter.Session
