import SessionRouter.Link.PathControl

/-!
# Path control requests and replies arrive
-/

namespace SessionRouter

open Lib Bencode

namespace Link

variable (suite : CipherSuite) {net : Network} {relay : Router} {ptr : TransitHopPtr}
  {hop : TransitHop} {downstream : NextHop}

def sealedFor (hop : TransitHop) (nonce : SymmNonce) (text : Bytes) : SymmNonce × Bytes :=
  (nonce ^^^ hop.xorNonce, Crypto.aeadSeal suite text hop.sharedSecret nonce [])

@[simp] theorem length_sealedFor (hop : TransitHop) (nonce : SymmNonce) (text : Bytes) :
    (sealedFor suite hop nonce text).2.length = text.length + 16 := by
  rw [sealedFor, Crypto.length_aeadSeal]
  rfl

theorem handlePathControl_onion (state : SymmNonce × Bytes) (hopId : HopID)
    (hfound : relay.pathContext.getTransitHop hopId = some ptr)
    (hsize : 17 ≤ state.2.length) :
    handlePathControl suite relay (onion state hopId MessageType.control) =
      if ptr.hop.terminalHop then
        .request ptr MessageType.control
          (Crypto.xchacha20Poly1305DecryptInplace suite state.2 ptr.hop.sharedSecret
            (state.1 ^^^ ptr.hop.xorNonce) [])
      else
        .forward (ptr.hop.nextId hopId).1
          (onion ((hopLayer suite ptr.hop).symm state) (ptr.hop.nextId hopId).2
            MessageType.control) ptr MessageType.control := by
  have hlen : (onion state hopId MessageType.control).length = state.2.length + 41 :=
    PathMessage.length_encode _
  have hlong : ¬ (onion state hopId MessageType.control).length ≤
      encryptPathMessageOverheadMac := by
    rw [hlen]
    show ¬ state.2.length + 41 ≤ 57
    omega
  have hsplit : PathMessage.splitSpanTail (onion state hopId MessageType.control) =
      ⟨state.2, state.1, hopId, MessageType.control⟩ := PathMessage.splitSpanTail_encode _
  have htype : ¬ MessageType.control ≠ 0x01 := not_not.mpr rfl
  rw [handlePathControl, if_neg hlong]
  simp only [hsplit, if_neg htype, hfound]
  rfl

section

variable (h : HoldsHop relay ptr hop downstream)

include h

theorem handlePathControl_up (hterminal : hop.terminalHop = false) (state : SymmNonce × Bytes)
    (hsize : 17 ≤ state.2.length) :
    handlePathControl suite relay
        (onion (hopLayer suite hop state) hop.rxid MessageType.control) =
      .forward (.router hop.upstream) (onion state hop.txid MessageType.control) ptr
        MessageType.control := by
  rw [handlePathControl_onion suite _ _ h.underRxid (by simpa using hsize), h.terminalHop_eq,
    hterminal, h.nextId_rxid, h.hopLayer_eq suite]
  simp

theorem handlePathControl_terminal
    (hterminal : hop.terminalHop = true) (nonce : SymmNonce) (request : Bytes)
    (hrequest : request ≠ []) :
    handlePathControl suite relay
        (onion (sealedFor suite hop nonce request) hop.rxid MessageType.control) =
      .request ptr MessageType.control (some request) := by
  have hpos : 0 < request.length := List.length_pos_iff.mpr hrequest
  have hkeys : ptr.hop.sharedSecret = hop.sharedSecret ∧ ptr.hop.xorNonce = hop.xorNonce := by
    rw [h.record]
    exact ⟨rfl, rfl⟩
  rw [handlePathControl_onion suite _ _ h.underRxid (by rw [length_sealedFor]; omega),
    h.terminalHop_eq, hterminal, hkeys.1, hkeys.2]
  simp [sealedFor]

theorem terminalResponse_eq (nonce : SymmNonce)
    (response : Bytes) :
    terminalResponse suite ptr.hop MessageType.control nonce response =
      onion (sealedFor suite hop nonce response) hop.rxid MessageType.control := by
  rw [terminalResponse, Crypto.encryptInplace_append _ _ _ (by simp), h.record]
  rfl

theorem handlePathControlReply_onion (state : SymmNonce × Bytes) (hsize : 0 < state.2.length) :
    handlePathControlReply suite ptr.hop MessageType.control
        (some ⟨onion state hop.txid MessageType.control, false⟩) =
      [⟨onion (hopLayer suite hop state) hop.rxid MessageType.control, false⟩] := by
  have hlen : (onion state hop.txid MessageType.control).length = state.2.length + 41 :=
    PathMessage.length_encode _
  have hlong : ¬ (onion state hop.txid MessageType.control).length ≤
      encryptPathMessageOverhead := by
    rw [hlen]
    show ¬ state.2.length + 41 ≤ 41
    omega
  have hsplit : PathMessage.splitSpanTail (onion state hop.txid MessageType.control) =
      ⟨state.2, state.1, hop.txid, MessageType.control⟩ := PathMessage.splitSpanTail_encode _
  have hids : ptr.hop.txid = hop.txid := by rw [h.record]
  have hlayer : relayResponse suite ptr.hop MessageType.control
      (onion state hop.txid MessageType.control) =
        ⟨onion (hopLayer suite ptr.hop state) ptr.hop.rxid MessageType.control, false⟩ := by
    rw [relayResponse, if_neg hlong]
    simp only [hsplit, hids, ne_eq, not_true_eq_false, if_false]
    rfl
  simp [handlePathControlReply, hlayer, h.hopLayer_eq suite, h.rxid_eq]

end

theorem runControl_chain (hops : List TransitHop) (hne : hops ≠ []) (hchain : HopChain hops)
    (hinstalled : Installed net downstream hops) (nonce replyNonce : SymmNonce)
    (request : Bytes) (hrequest : request ≠ []) :
    ∃ first pivot, net.relay (hops.head hne).routerId = some first ∧
      net.relay (hops.getLast hne).routerId = some pivot ∧
      ∀ (terminal : Router → Bytes → Option Bytes) (fuel : Nat), hops.length ≤ fuel →
        runControl suite net terminal replyNonce fuel first
            (onion (Layers.wrap (hopLayer suite) hops.dropLast
              (sealedFor suite (hops.getLast hne) nonce request))
              (hops.head hne).rxid MessageType.control) =
          (terminal pivot request).map fun response =>
            ⟨onion (Layers.wrap (hopLayer suite) hops.dropLast
              (sealedFor suite (hops.getLast hne) replyNonce response))
              (hops.head hne).rxid MessageType.control, false⟩ := by
  induction hops generalizing downstream with
  | nil => exact absurd rfl hne
  | cons hop rest ih =>
    obtain ⟨⟨relay, ptr, hrelay, hholds⟩, hinstalled⟩ := hinstalled
    cases rest with
    | nil =>
      refine ⟨relay, relay, hrelay, hrelay, ?_⟩
      intro terminal fuel hfuel
      obtain ⟨left, rfl⟩ : ∃ left, fuel = left + 1 :=
        ⟨fuel - 1, by rw [List.length_singleton] at hfuel; omega⟩
      have hopen := handlePathControl_terminal suite hholds hchain.1 nonce request hrequest
      simp [runControl, hopen, terminalResponse_eq suite hholds]
    | cons next rest =>
      obtain ⟨hterminal, -, hlink, hupstream, hchain⟩ := hchain
      obtain ⟨second, pivot, hsecond, hpivot, hrun⟩ := ih (List.cons_ne_nil _ _) hchain hinstalled
      refine ⟨relay, pivot, hrelay, hpivot, ?_⟩
      intro terminal fuel hfuel
      obtain ⟨left, rfl⟩ : ∃ left, fuel = left + 1 :=
        ⟨fuel - 1, by rw [List.length_cons] at hfuel; omega⟩
      have hleft : (next :: rest).length ≤ left := by
        rw [List.length_cons] at hfuel
        omega
      have hdown := handlePathControl_up suite hholds hterminal
        (Layers.wrap (hopLayer suite) (next :: rest).dropLast
          (sealedFor suite ((next :: rest).getLast (List.cons_ne_nil _ _)) nonce request))
        (by
          rw [length_wrap_hopLayer, length_sealedFor]
          have := List.length_pos_iff.mpr hrequest
          omega)
      have hreach : net.reach relay.id (.router hop.upstream) = some second := by
        rw [hupstream]
        exact hsecond
      -- the id under which the next relay answers is this relay's transmit id
      have hback (response : Bytes) := handlePathControlReply_onion suite hholds
        (Layers.wrap (hopLayer suite) (next :: rest).dropLast
          (sealedFor suite ((next :: rest).getLast (List.cons_ne_nil _ _)) replyNonce
            response))
        (by rw [length_wrap_hopLayer, length_sealedFor]; omega)
      have hinner := hrun terminal left hleft
      rw [List.head_cons, ← hlink] at hinner
      simp only [List.dropLast_cons_of_ne_nil (List.cons_ne_nil next rest),
        List.getLast_cons (List.cons_ne_nil next rest), List.head_cons, Layers.wrap_cons]
      simp only [runControl, hdown, hreach, hinner]
      cases terminal pivot request with
      | none => rfl
      | some response => simp [hback response]

theorem pathControlMessage_eq (path : Path) (method body : Bytes) (nonce : SymmNonce) :
    path.pathControlMessage suite method body nonce =
      onion (Layers.wrap (hopLayer suite) path.hops.dropLast
        (sealedFor suite path.terminus nonce (Path.controlRequest method body)))
        path.edge.rxid MessageType.control :=
  Path.encryptPathMessage_mac suite path _ nonce MessageType.control

theorem decryptPathMessage_onion (path : Path) (nonce : SymmNonce) (response : Bytes)
    (hopId : HopID) (type : MessageType) :
    path.decryptPathMessage suite
        (onion (Layers.wrap (hopLayer suite) path.hops.dropLast
          (sealedFor suite path.terminus nonce response)) hopId type) = response := by
  set state := Layers.wrap (hopLayer suite) path.hops.dropLast
    (sealedFor suite path.terminus nonce response) with hstate
  have hlen : (onion state hopId type).length = response.length + 57 := by
    rw [onion, PathMessage.length_encode, hstate, length_wrap_hopLayer, length_sealedFor]
    rfl
  have hsplit : PathMessage.splitSpanTail (onion state hopId type) =
      ⟨state.2, state.1, hopId, type⟩ := PathMessage.splitSpanTail_encode _
  have hpeel : path.hops.dropLast.foldl (Path.decryptHop suite) (state.1, state.2) =
      sealedFor suite path.terminus nonce response := by
    rw [Path.foldl_decryptHop]
    exact Layers.peel_wrap (hopLayer suite) path.hops.dropLast _
  rw [Path.decryptPathMessage]
  by_cases hempty : response = []
  · have hshort : (onion state hopId type).length ≤ encryptPathMessageOverheadMac := by
      rw [hlen, hempty]
      exact Nat.le_refl _
    rw [if_pos hshort, hempty]
  · have hlong : ¬ (onion state hopId type).length ≤ encryptPathMessageOverheadMac := by
      have := List.length_pos_iff.mpr hempty
      rw [hlen]
      show ¬ response.length + 57 ≤ 57
      omega
    rw [if_neg hlong]
    simp only [hsplit, hpeel]
    simp [sealedFor]

theorem handlePathRequest_controlRequest (pathRequests : Bytes → Option (Bytes → Bytes))
    (method body : Bytes) :
    handlePathRequest pathRequests (Path.controlRequest method body) =
      (pathRequests method).map fun handler => handler body := by
  simp [handlePathRequest, parsePathRequest, Path.controlRequest]

/-- Path control round trip.  Over an established path of any length, whatever
the terminal does with requests: it is given exactly the client's request, which
names the endpoint and the body that the client asked for; the answer passes
back through every relay without an error; and the client reads exactly the
response that the terminal gave. -/
theorem pathControl_roundTrip {client : Router} {path : Path}
    (hpath : Established net client path) (method body : Bytes)
    (nonce replyNonce : SymmNonce) {fuel : Nat} (hfuel : path.hops.length ≤ fuel) :
    ∃ pivot, net.relay path.terminus.routerId = some pivot ∧
      (∀ pathRequests : Bytes → Option (Bytes → Bytes),
        handlePathRequest pathRequests (Path.controlRequest method body) =
          (pathRequests method).map fun handler => handler body) ∧
      ∀ terminal : Router → Bytes → Option Bytes,
        (sendControl suite net terminal replyNonce fuel path.edge.routerId
            (path.pathControlMessage suite method body nonce)).map
          (fun reply => (path.decryptPathMessage suite reply.body, reply.isError)) =
        (terminal pivot (Path.controlRequest method body)).map
          fun response => (response, false) := by
  obtain ⟨cid, -, hinstalled⟩ := hpath.installed
  obtain ⟨first, pivot, hfirst, hpivot, hrun⟩ := runControl_chain suite path.hops
    path.hops_ne_nil hpath.chain hinstalled nonce replyNonce (Path.controlRequest method body)
    (List.cons_ne_nil _ _)
  refine ⟨pivot, hpivot, fun pathRequests =>
    handlePathRequest_controlRequest pathRequests method body, ?_⟩
  intro terminal
  have hedge : net.relay path.edge.routerId = some first := hfirst
  have hreply := hrun terminal fuel hfuel
  rw [sendControl, hedge, pathControlMessage_eq]
  change (runControl suite net terminal replyNonce fuel first
    (onion (Layers.wrap (hopLayer suite) path.hops.dropLast
      (sealedFor suite (path.hops.getLast path.hops_ne_nil) nonce
        (Path.controlRequest method body)))
      (path.hops.head path.hops_ne_nil).rxid MessageType.control)).map _ = _
  rw [hreply, Option.map_map]
  congr 1
  funext response
  exact Prod.ext (decryptPathMessage_onion suite path replyNonce response _ _) rfl

theorem pathControl_roundTrip_meeting :
    (sendControl Meeting.suite Meeting.net (fun _ request => some request)
        (FixedBytes.filled 24 8) 2 (Meeting.routerId 1)
        (Meeting.snd.pathControlMessage Meeting.suite (ascii "path_ping") []
          (FixedBytes.filled 24 9))).map
      (fun reply => (Meeting.snd.decryptPathMessage Meeting.suite reply.body, reply.isError)) =
      some (Path.controlRequest (ascii "path_ping") [], false) := by
  obtain ⟨pivot, -, -, hround⟩ := pathControl_roundTrip Meeting.suite Meeting.snd_established
    (ascii "path_ping") [] (FixedBytes.filled 24 9) (FixedBytes.filled 24 8)
    (Nat.le_refl 2)
  exact hround fun _ request => some request

end Link
end SessionRouter
