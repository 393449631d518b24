import SessionRouter.Link.Network

/-!
# Session messages arrive
-/

namespace SessionRouter

open Lib

namespace Link

variable (suite : CipherSuite) (control : Bool) {net : Network}
  {relay : Router} {ptr : TransitHopPtr} {hop : TransitHop} {downstream : NextHop}

theorem receiveSession_onion (router : Router) (state : SymmNonce × Bytes) (hopId : HopID)
    (type : MessageType) (hsize : 17 ≤ state.2.length) :
    receiveSession suite router (onion state hopId type) control =
      if router.isServiceNode then
        handleSessionMessageRelay suite router ⟨state.2, state.1, hopId, type⟩ control
      else
        handleSessionMessageClient suite router ⟨state.2, state.1, hopId, type⟩ control := by
  have hlen : (onion state hopId type).length = state.2.length + 41 := PathMessage.length_encode _
  have hcommand : ¬ (onion state hopId type).length ≤ encryptPathMessageOverheadMac := by
    rw [hlen]
    show ¬ state.2.length + 41 ≤ 57
    omega
  have hmin : ¬ (onion state hopId type).length < minPathDataMessageSize := by
    rw [hlen]
    show ¬ state.2.length + 41 < 58
    omega
  have hsplit : PathMessage.splitSpanTail (onion state hopId type) =
      ⟨state.2, state.1, hopId, type⟩ := PathMessage.splitSpanTail_encode _
  simp [receiveSession, handleSessionMessage, extractPathMessageMetadata, hcommand, hmin, hsplit]

section

variable (h : HoldsHop relay ptr hop downstream)

include h

theorem receiveSession_relay {hopId : HopID}
    (hfound : relay.pathContext.getTransitHop hopId = some ptr)
    (state : SymmNonce × Bytes) (type : MessageType) (hsize : 17 ≤ state.2.length) :
    receiveSession suite relay (onion state hopId type) control =
      let peeled := (hopLayer suite hop).symm state
      if hop.terminalHop then
        handleSessionMessageTerminal suite relay ptr hopId peeled.1 peeled.2 type control
      else
        .forward (ptr.hop.nextId hopId).1 (onion peeled (ptr.hop.nextId hopId).2 type) := by
  rw [receiveSession_onion suite control _ _ _ _ hsize, if_pos h.isRelay, ← h.hopLayer_eq suite,
    ← h.terminalHop_eq]
  simp only [handleSessionMessageRelay, hfound]
  rfl

theorem receiveSession_up
    (hterminal : hop.terminalHop = false) (state : SymmNonce × Bytes) (type : MessageType)
    (hsize : 17 ≤ state.2.length) :
    receiveSession suite relay (onion (hopLayer suite hop state) hop.rxid type) control =
      .forward (.router hop.upstream) (onion state hop.txid type) := by
  rw [receiveSession_relay suite control h h.underRxid _ _ (by simpa using hsize)]
  simp [hterminal, h.nextId_rxid]

theorem receiveSession_down (hterminal : hop.terminalHop = false) (hids : hop.txid ≠ hop.rxid)
    (state : SymmNonce × Bytes) (type : MessageType) (hsize : 17 ≤ state.2.length) :
    receiveSession suite relay (onion state hop.txid type) control =
      .forward downstream (onion ((hopLayer suite hop).symm state) hop.rxid type) := by
  rw [receiveSession_relay suite control h h.underTxid _ _ hsize]
  simp [hterminal, h.nextId_txid hids]

theorem receiveSession_pivot
    (hterminal : hop.terminalHop = true) {ptr' : TransitHopPtr} {hop' : TransitHop}
    {downstream' : NextHop} (h' : HoldsHop relay ptr' hop' downstream')
    (hdistinct : hop'.txid ≠ hop.rxid) (nonce : SymmNonce) (payload : Bytes)
    (tag : SessionTag) (type : MessageType) :
    receiveSession suite relay
        (onion (hopLayer suite hop
          (nonce, payload ++ (SessionTag.toBytes tag ++ hop'.txid.data))) hop.rxid type) control =
      .forward downstream'
        (onion ((hopLayer suite hop').symm (nonce, payload ++ SessionTag.toBytes tag))
          hop'.txid type) := by
  set inner := payload ++ (SessionTag.toBytes tag ++ hop'.txid.data) with hinner
  have hlen : inner.length = payload.length + 20 := by simp [hinner]
  have hpivot : FixedBytes.ofBytes 16 (inner.drop (inner.length - (4 + 16) + 4)) = hop'.txid := by
    have hdrop : inner.drop (inner.length - (4 + 16) + 4) = hop'.txid.data := by
      rw [hlen, show payload.length + 20 - (4 + 16) + 4 = payload.length + 4 by omega,
        hinner, ← List.append_assoc]
      exact List.drop_left' (by simp)
    rw [hdrop, FixedBytes.ofBytes_data]
  have hpayload : inner.take (inner.length - 16) = payload ++ SessionTag.toBytes tag := by
    rw [hlen, show payload.length + 20 - 16 = payload.length + 4 by omega, hinner,
      ← List.append_assoc]
    exact List.take_left' (by simp)
  have hlong : ¬ inner.length < 4 + 16 := by omega
  rw [receiveSession_relay suite control h h.underRxid _ _ (by simp only [length_hopLayer]; omega)]
  simp only [hterminal, if_true, Equiv.symm_apply_apply, handleSessionMessageTerminal,
    if_neg hlong, hpivot, if_neg hdistinct, h'.underTxid, hpayload, h'.downstream_eq]
  rw [← h'.hopLayer_eq suite]
  rfl

end

theorem receiveSession_client {client : Router} {path : Path}
    (hclient : client.isServiceNode = false)
    (hknown : client.pathContext.getPath path.edge.rxid = some path)
    (nonce : SymmNonce) (payload : Bytes) (tag : SessionTag) (type : MessageType)
    (htype : unknownMessageType type control = false) (hsize : 13 ≤ payload.length) :
    receiveSession suite client
        (onion (Layers.wrap (fun hop => (hopLayer suite hop).symm) path.hops
          (nonce, payload ++ SessionTag.toBytes tag)) path.edge.rxid type) control =
      .event (dispatchSession payload tag nonce type control (.path path)) := by
  set start := (nonce, payload ++ SessionTag.toBytes tag) with hstart
  have hlen : (Layers.wrap (fun hop => (hopLayer suite hop).symm) path.hops start).2.length =
      payload.length + 4 := by
    rw [length_wrap_hopLayer_symm]
    simp [hstart]
  have hloop : path.hops.foldl
      (fun (state : SymmNonce × Bytes) hop =>
        (state.1 ^^^ hop.xorNonce, Crypto.xchacha20 suite state.2 hop.sharedSecret state.1))
      (Layers.wrap (fun hop => (hopLayer suite hop).symm) path.hops start) = start :=
    Layers.foldl_wrap_symm (hopLayer suite) path.hops start
  have hlong :
      ¬ (Layers.wrap (fun hop => (hopLayer suite hop).symm) path.hops start).2.length < 4 := by
    omega
  rw [receiveSession_onion suite control _ _ _ _ (by omega), hclient]
  simp only [Bool.false_eq_true, if_false, handleSessionMessageClient, hknown, if_neg hlong,
    htype, hloop]
  simp [hstart]

theorem sendSession_up_leg (hops : List TransitHop) (hchain : HopChain hops)
    (hinstalled : Installed net downstream hops) (hne : hops ≠ [])
    {pivot : Router} (hpivot : net.relay (hops.getLast hne).routerId = some pivot)
    (sender : RouterID) (state : SymmNonce × Bytes) (type : MessageType)
    (hsize : 17 ≤ state.2.length) (fuel : Nat) :
    sendSession suite net control (hops.length - 1 + fuel) sender
        (.router (hops.head hne).routerId)
        (onion (Layers.wrap (hopLayer suite) hops state) (hops.head hne).rxid type) =
      deliverSession suite net control fuel pivot
        (onion (hopLayer suite (hops.getLast hne) state) (hops.getLast hne).rxid type) := by
  induction hops generalizing downstream sender with
  | nil => exact absurd rfl hne
  | cons hop rest ih =>
    cases rest with
    | nil =>
      have hpivot : net.relay hop.routerId = some pivot := hpivot
      simp [sendSession_router hpivot]
    | cons next rest =>
      obtain ⟨hterminal, -, hlink, hupstream, hchain⟩ := hchain
      obtain ⟨⟨relay, ptr, hrelay, hholds⟩, hinstalled⟩ := hinstalled
      have hstep := receiveSession_up suite control hholds hterminal
        (Layers.wrap (hopLayer suite) (next :: rest) state) type (by simpa using hsize)
      have hfuel : (hop :: next :: rest).length - 1 + fuel =
          (next :: rest).length - 1 + fuel + 1 := by
        simp only [List.length_cons]
        omega
      rw [List.head_cons, sendSession_router hrelay, hfuel, Layers.wrap_cons,
        deliverSession_forward hstep, hlink, hupstream]
      exact ih hchain hinstalled (List.cons_ne_nil _ _) hpivot relay.id

theorem sendSession_down_leg (hops : List TransitHop) (hchain : HopChain hops)
    (hinstalled : Installed net downstream hops) (hne : hops ≠ [])
    (state : SymmNonce × Bytes) (type : MessageType) (hsize : 17 ≤ state.2.length) :
    ∃ pivot ptr pivotDownstream,
      net.relay (hops.getLast hne).routerId = some pivot ∧
      HoldsHop pivot ptr (hops.getLast hne) pivotDownstream ∧
      ∀ fuel, sendSession suite net control (hops.length - 1 + fuel) pivot.id pivotDownstream
          (onion ((hopLayer suite (hops.getLast hne)).symm state)
            (hops.getLast hne).rxid type) =
        sendSession suite net control fuel (hops.head hne).routerId downstream
          (onion (Layers.wrap (fun hop => (hopLayer suite hop).symm) hops state)
            (hops.head hne).rxid type) := by
  induction hops generalizing downstream with
  | nil => exact absurd rfl hne
  | cons hop rest ih =>
    obtain ⟨⟨relay, ptr, hrelay, hholds⟩, hinstalled⟩ := hinstalled
    cases rest with
    | nil =>
      refine ⟨relay, ptr, downstream, hrelay, hholds, ?_⟩
      intro fuel
      simp [hholds.id_eq]
    | cons next rest =>
      obtain ⟨hterminal, hids, hlink, -, hchain⟩ := hchain
      obtain ⟨pivot, pivotPtr, pivotDownstream, hpivot, hpivotHolds, hleg⟩ :=
        ih hchain hinstalled (List.cons_ne_nil _ _)
      refine ⟨pivot, pivotPtr, pivotDownstream, hpivot, hpivotHolds, ?_⟩
      intro fuel
      -- the message reaches this relay under the id it shares with the next one
      have hstep := receiveSession_down suite control hholds
        hterminal hids
        (Layers.wrap (fun hop => (hopLayer suite hop).symm) (next :: rest) state) type
        (by simpa using hsize)
      have hfuel : (hop :: next :: rest).length - 1 + fuel =
          (next :: rest).length - 1 + (fuel + 1) := by
        simp only [List.length_cons]
        omega
      rw [List.getLast_cons (List.cons_ne_nil _ _), hfuel, hleg (fuel + 1),
        sendSession_router hrelay, List.head_cons, ← hlink, deliverSession_forward hstep,
        hholds.id_eq]
      rfl

theorem sendSession_down_delivered {client : Router} {path : Path}
    (hpath : Established net client path) (nonce : SymmNonce) (payload : Bytes)
    (tag : SessionTag) (type : MessageType) (htype : unknownMessageType type control = false)
    (hsize : 13 ≤ payload.length) :
    ∃ pivot ptr pivotDownstream,
      net.relay path.terminus.routerId = some pivot ∧
      HoldsHop pivot ptr path.terminus pivotDownstream ∧
      ∀ fuel, path.hops.length ≤ fuel →
        sendSession suite net control fuel pivot.id pivotDownstream
          (onion ((hopLayer suite path.terminus).symm
            (nonce, payload ++ SessionTag.toBytes tag)) path.terminus.rxid type) =
          .arrived client (dispatchSession payload tag nonce type control (.path path)) := by
  obtain ⟨cid, hclient, hinstalled⟩ := hpath.installed
  obtain ⟨pivot, ptr, pivotDownstream, hpivot, hholds, hleg⟩ :=
    sendSession_down_leg suite control path.hops hpath.chain hinstalled
      path.hops_ne_nil (nonce, payload ++ SessionTag.toBytes tag) type (by simp; omega)
  refine ⟨pivot, ptr, pivotDownstream, hpivot, hholds, ?_⟩
  intro fuel hfuel
  have hhops : 0 < path.hops.length := List.length_pos_iff.mpr path.hops_ne_nil
  obtain ⟨left, rfl⟩ : ∃ left, fuel = path.hops.length - 1 + (left + 1) :=
    ⟨fuel - path.hops.length, by omega⟩
  have hreceive := receiveSession_client suite control hpath.isClient
    hpath.known nonce payload tag type htype hsize
  exact (hleg (left + 1)).trans
    ((sendSession_connection hclient _).trans (deliverSession_event hreceive))

theorem sendSession_pivot_delivered {sender receiver : Router} {snd rcv : Path}
    (hsnd : Established net sender snd) (hrcv : Established net receiver rcv)
    (hpivot : snd.terminus.routerId = rcv.terminus.routerId)
    (hdistinct : rcv.terminus.txid ≠ snd.terminus.rxid)
    (nonce : SymmNonce) (payload : Bytes) (tag : SessionTag) (type : MessageType)
    (htype : unknownMessageType type control = false) (hsize : 13 ≤ payload.length)
    {fuel : Nat} (hfuel : snd.hops.length + rcv.hops.length ≤ fuel) :
    sendSession suite net control fuel sender.id (.router snd.edge.routerId)
        (snd.encryptPathMessage suite
          (payload ++ (SessionTag.toBytes tag ++ rcv.terminus.txid.data)) nonce type false) =
      .arrived receiver (dispatchSession payload tag nonce type control (.path rcv)) := by
  obtain ⟨pivot, ptr, pivotDownstream, hrelay, hholds, hdown⟩ :=
    sendSession_down_delivered suite control hrcv nonce payload tag type htype hsize
  obtain ⟨cid, -, hinstalled⟩ := hsnd.installed
  -- the sender's last hop is held by the same relay
  obtain ⟨pivot', ptr', downstream', hrelay', hholds', -⟩ :=
    sendSession_down_leg suite control snd.hops hsnd.chain hinstalled snd.hops_ne_nil
      (nonce, payload ++ (SessionTag.toBytes tag ++ rcv.terminus.txid.data)) type (by simp)
  have hsame : pivot' = pivot := by
    have hrelay' : net.relay snd.terminus.routerId = some pivot' := hrelay'
    rw [hpivot, hrelay] at hrelay'
    exact (Option.some.inj hrelay').symm
  subst hsame
  have hhops : 0 < snd.hops.length := List.length_pos_iff.mpr snd.hops_ne_nil
  obtain ⟨left, rfl, hleft⟩ :
      ∃ left, fuel = snd.hops.length - 1 + (left + 1) ∧ rcv.hops.length ≤ left :=
    ⟨fuel - snd.hops.length, by omega, by omega⟩
  have hup := sendSession_up_leg suite control snd.hops hsnd.chain hinstalled snd.hops_ne_nil
    hrelay' sender.id (nonce, payload ++ (SessionTag.toBytes tag ++ rcv.terminus.txid.data))
    type (by simp) (left + 1)
  have hterminal := (hsnd.chain.getLast snd.hops_ne_nil).1
  have hturn := receiveSession_pivot suite control hholds' hterminal hholds hdistinct nonce
    payload tag type
  have hids : rcv.terminus.txid = rcv.terminus.rxid := (hrcv.chain.getLast rcv.hops_ne_nil).2
  rw [Path.encryptPathMessage_noMac]
  calc _ = _ := hup
    _ = _ := deliverSession_forward hturn
    _ = _ := by rw [hids]; exact hdown left hleft

/-- Session messages arrive.  For every established receiver path, every
payload and every key and nonce of the session encryption:

* between clients, through the pivot their paths share, and
* from a relay session back to its client,

the receiving client's session layer is handed exactly the session ciphertext,
the session tag and the nonce under which the payload was encrypted. -/
theorem sessionMessage_delivered {receiver : Router} {rcv : Path}
    (hrcv : Established net receiver rcv) {type : MessageType}
    (htype : unknownMessageType type control = false)
    {session : SessionSend} (halive : session.deadPath = false)
    {key : SymmKey} (hkey : session.sendKey = some key)
    (data : Bytes) (dataType : Option UInt8) (nonce : SymmNonce) (fuel : Nat) :
    (∀ (sender : Router) (snd : Path), Established net sender snd →
      snd.terminus.routerId = rcv.terminus.routerId →
      rcv.terminus.txid ≠ snd.terminus.rxid →
      session.relaySessionReturn = false →
      session.remotePivotTxid = rcv.terminus.txid →
      snd.hops.length + rcv.hops.length ≤ fuel →
      (session.makeSessionMessage suite data dataType true nonce).map
          (fun made => sendSession suite net control fuel sender.id (.router snd.edge.routerId)
            (snd.encryptPathMessage suite made.1 made.2 type false)) =
        some (.arrived receiver (dispatchSession
          (Crypto.aeadSeal suite (data ++ dataType.toList) key nonce [])
          session.outboundTag nonce type control (.path rcv)))) ∧
    (∀ (relay : Router) (ptr : TransitHopPtr),
      net.relay rcv.terminus.routerId = some relay →
      relay.pathContext.getTransitHop rcv.terminus.rxid = some ptr →
      session.relaySessionReturn = true →
      rcv.hops.length ≤ fuel →
      (session.makeSessionMessage suite data dataType true nonce).map
          (fun made => sendSession suite net control fuel relay.id ptr.hop.downstream
            (InboundRelaySession.encryptPathMessage suite ptr.hop made.1 made.2 type)) =
        some (.arrived receiver (dispatchSession
          (Crypto.aeadSeal suite (data ++ dataType.toList) key nonce [])
          session.outboundTag nonce type control (.path rcv)))) := by
  have hmake := SessionSend.makeSessionMessage_encrypt suite halive hkey data dataType nonce
  -- the tag of the session encryption alone makes the ciphertext long enough
  have hsize : 13 ≤ (Crypto.aeadSeal suite (data ++ dataType.toList) key nonce []).length := by
    rw [Crypto.length_aeadSeal]
    show 13 ≤ (data ++ dataType.toList).length + 16
    omega
  constructor
  · intro sender snd hsnd hpivot hdistinct hreturn hpivotId hfuel
    have htrailer : session.trailer =
        SessionTag.toBytes session.outboundTag ++ rcv.terminus.txid.data := by
      simp [SessionSend.trailer, hreturn, hpivotId]
    rw [hmake, htrailer, Option.map_some]
    exact congrArg some (sendSession_pivot_delivered suite control hsnd hrcv hpivot hdistinct
      nonce _ session.outboundTag type htype hsize hfuel)
  · intro relay ptr hrelay hptr hreturn hfuel
    obtain ⟨pivot, ptr', pivotDownstream, hpivot, hholds, hdown⟩ :=
      sendSession_down_delivered suite control hrcv nonce _ session.outboundTag type htype hsize
    obtain rfl : relay = pivot := Option.some.inj (hrelay.symm.trans hpivot)
    obtain rfl : ptr = ptr' := Option.some.inj (hptr.symm.trans hholds.underRxid)
    have htrailer : session.trailer = SessionTag.toBytes session.outboundTag := by
      simp [SessionSend.trailer, hreturn]
    rw [hmake, htrailer, Option.map_some, hholds.downstream_eq]
    rw [← hholds.hopLayer_eq suite, ← hholds.rxid_eq] at hdown
    exact congrArg some (hdown fuel hfuel)

theorem sessionMessage_delivered_meeting :
    let session : SessionSend :=
      { deadPath := false, isOutbound := true, isRelaySession := false, outboundTag := 7,
        remotePivotTxid := Meeting.rcv.terminus.txid,
        outboundKey := some (FixedBytes.filled 32 3), sharedSecret := none }
    let back : SessionSend := { session with isOutbound := false, isRelaySession := true }
    let nonce : SymmNonce := FixedBytes.filled 24 9
    let sealed := Crypto.aeadSeal Meeting.suite [1, 2, 3, 4] (FixedBytes.filled 32 3) nonce []
    (session.makeSessionMessage Meeting.suite [1, 2, 3] (some 4) true nonce).map
        (fun made => sendSession Meeting.suite Meeting.net false 4 (Meeting.routerId 99)
          (.router (Meeting.routerId 1))
          (Meeting.snd.encryptPathMessage Meeting.suite made.1 made.2 MessageType.data false)) =
      some (.arrived (Meeting.client Meeting.rcv) (.data sealed 7 nonce)) ∧
    (back.makeSessionMessage Meeting.suite [1, 2, 3] (some 4) true nonce).map
        (fun made => sendSession Meeting.suite Meeting.net false 4 (Meeting.routerId 2)
          (.router (Meeting.routerId 3))
          (InboundRelaySession.encryptPathMessage Meeting.suite Meeting.rcvPivot
            made.1 made.2 MessageType.data)) =
      some (.arrived (Meeting.client Meeting.rcv) (.data sealed 7 nonce)) := by
  intro session back nonce sealed
  constructor
  · exact (sessionMessage_delivered Meeting.suite false Meeting.rcv_established rfl rfl rfl
      [1, 2, 3] (some 4) nonce 4).1 _ _ Meeting.snd_established rfl (by decide) rfl rfl
      (by decide)
  · exact (sessionMessage_delivered Meeting.suite false Meeting.rcv_established rfl rfl rfl
      [1, 2, 3] (some 4) nonce 4).2 _ ⟨0, Meeting.rcvPivot⟩ rfl rfl rfl (by decide)

end Link
end SessionRouter
