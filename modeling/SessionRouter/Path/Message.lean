import SessionRouter.Lib.Layers
import SessionRouter.Path.Hop

/-!
# Path messages
-/

namespace SessionRouter

open Lib

abbrev MessageType := UInt8

namespace MessageType

def data : MessageType := 0x01
def control : MessageType := 0x01
def sessionHandshake : MessageType := 0x02
def controlMin : MessageType := 0x01
def controlMax : MessageType := 0x02

end MessageType

def encryptPathMessageOverhead : Nat := 24 + 16 + 1

def encryptPathMessageOverheadMac : Nat := encryptPathMessageOverhead + Crypto.tagSize

/-- A path message taken apart. -/
@[ext] structure PathMessage where
  inner : Bytes
  nonce : SymmNonce
  hopId : HopID
  msgtype : MessageType

namespace PathMessage

def encode (m : PathMessage) : Bytes :=
  m.inner ++ (m.nonce.data ++ (m.hopId.data ++ [m.msgtype]))

def splitSpanTail (bytes : Bytes) : PathMessage :=
  let size := bytes.length - encryptPathMessageOverhead
  let tail := bytes.drop size
  { inner := bytes.take size
    nonce := FixedBytes.ofBytes 24 tail
    hopId := FixedBytes.ofBytes 16 (tail.drop 24)
    msgtype := (tail.drop 40).headD 0 }

@[simp] theorem length_encode (m : PathMessage) :
    m.encode.length = m.inner.length + encryptPathMessageOverhead := by
  simp [encode, encryptPathMessageOverhead]

@[simp] theorem splitSpanTail_encode (m : PathMessage) :
    splitSpanTail m.encode = m := by
  have hsize : m.encode.length - encryptPathMessageOverhead = m.inner.length := by
    rw [length_encode, Nat.add_sub_cancel]
  have htail : m.encode.drop m.inner.length =
      m.nonce.data ++ (m.hopId.data ++ [m.msgtype]) := List.drop_left
  have hhop : (m.nonce.data ++ (m.hopId.data ++ [m.msgtype])).drop 24 =
      m.hopId.data ++ [m.msgtype] := m.nonce.drop_data_append _
  have htype : (m.nonce.data ++ (m.hopId.data ++ [m.msgtype])).drop 40 = [m.msgtype] := by
    rw [show (40 : Nat) = 24 + 16 from rfl, ← List.drop_drop, hhop]
    exact m.hopId.drop_data_append _
  ext1
  · simp only [splitSpanTail, hsize]
    exact List.take_left
  · simp [splitSpanTail, htail]
  · simp [splitSpanTail, htail]
  · simp [splitSpanTail, htail]

theorem encode_splitSpanTail {bytes : Bytes} (h : encryptPathMessageOverhead ≤ bytes.length) :
    (splitSpanTail bytes).encode = bytes := by
  let size := bytes.length - encryptPathMessageOverhead
  obtain ⟨tail, htail⟩ : ∃ tail, bytes.drop size = tail := ⟨_, rfl⟩
  have hlength : tail.length = 24 + (16 + 1) := by
    rw [← htail, List.length_drop]
    unfold size encryptPathMessageOverhead at *
    omega
  have hnonce : (FixedBytes.ofBytes 24 tail).data = tail.take 24 := by
    simp [FixedBytes.ofBytes, hlength]
  have hhop : (FixedBytes.ofBytes 16 (tail.drop 24)).data = (tail.drop 24).take 16 := by
    simp [FixedBytes.ofBytes, hlength]
  have htype : [(tail.drop 40).headD 0] = (tail.drop 24).drop 16 := by
    obtain ⟨byte, hbyte⟩ : ∃ byte, tail.drop 40 = [byte] := by
      rw [← List.length_eq_one_iff, List.length_drop, hlength]
    rw [List.drop_drop, hbyte]
    rfl
  calc (splitSpanTail bytes).encode
      = bytes.take size ++ (tail.take 24 ++ ((tail.drop 24).take 16 ++
          (tail.drop 24).drop 16)) := by
        rw [← hnonce, ← hhop, ← htype, ← htail]
        rfl
    _ = bytes := by rw [List.take_append_drop, List.take_append_drop, ← htail,
        List.take_append_drop]

end PathMessage

namespace Path

variable (suite : CipherSuite)

def encryptHop (withMac : Bool) (state : Bool × Bytes × SymmNonce) (hop : TransitHop) :
    Bool × Bytes × SymmNonce :=
  let (first, inner, nonce) := state
  if first && withMac then
    (false,
      Crypto.xchacha20Poly1305EncryptInplace suite inner hop.sharedSecret nonce [],
      nonce ^^^ hop.xorNonce)
  else
    (first, Crypto.xchacha20 suite inner hop.sharedSecret nonce, nonce ^^^ hop.xorNonce)

def encryptPathMessage (path : Path) (data : Bytes) (nonce : SymmNonce)
    (type : MessageType) (withMac : Bool) : Bytes :=
  let room := if withMac then List.replicate Crypto.tagSize 0 else []
  let (_, inner, nonce) := path.hops.reverse.foldl (encryptHop suite withMac)
    (true, data ++ room, nonce)
  PathMessage.encode ⟨inner, nonce, path.edge.rxid, type⟩

def decryptHop (state : SymmNonce × Bytes) (hop : TransitHop) : SymmNonce × Bytes :=
  let nonce := state.1 ^^^ hop.xorNonce
  (nonce, Crypto.xchacha20 suite state.2 hop.sharedSecret nonce)

def decryptPathMessage (path : Path) (payload : Bytes) : Bytes :=
  if payload.length ≤ encryptPathMessageOverheadMac then
    []
  else
    let m := PathMessage.splitSpanTail payload
    let (nonce, inner) := path.hops.dropLast.foldl (decryptHop suite) (m.nonce, m.inner)
    let lastHop := path.terminus
    match Crypto.xchacha20Poly1305DecryptInplace suite inner lastHop.sharedSecret
        (nonce ^^^ lastHop.xorNonce) [] with
    | some decrypted => decrypted
    | none => []

end Path

def onion (state : SymmNonce × Bytes) (hopId : HopID) (type : MessageType) : Bytes :=
  PathMessage.encode ⟨state.2, state.1, hopId, type⟩

def hopLayer (suite : CipherSuite) (hop : TransitHop) : Equiv.Perm (SymmNonce × Bytes) where
  toFun state := (state.1 ^^^ hop.xorNonce, Crypto.xchacha20 suite state.2 hop.sharedSecret state.1)
  invFun state :=
    (state.1 ^^^ hop.xorNonce,
      Crypto.xchacha20 suite state.2 hop.sharedSecret (state.1 ^^^ hop.xorNonce))
  left_inv state := by simp
  right_inv state := by simp

section HopLayer

variable (suite : CipherSuite) (hop : TransitHop) (state : SymmNonce × Bytes)

theorem hopLayer_apply : hopLayer suite hop state =
      (state.1 ^^^ hop.xorNonce, Crypto.xchacha20 suite state.2 hop.sharedSecret state.1) :=
  rfl

theorem hopLayer_symm_apply : (hopLayer suite hop).symm state =
      (state.1 ^^^ hop.xorNonce,
        Crypto.xchacha20 suite state.2 hop.sharedSecret (state.1 ^^^ hop.xorNonce)) :=
  rfl

@[simp] theorem length_hopLayer : (hopLayer suite hop state).2.length = state.2.length := by
  simp [hopLayer_apply]

@[simp] theorem length_hopLayer_symm :
    ((hopLayer suite hop).symm state).2.length = state.2.length := by
  simp [hopLayer_symm_apply]

@[simp] theorem length_wrap_hopLayer (hops : List TransitHop) :
    (Layers.wrap (hopLayer suite) hops state).2.length = state.2.length := by
  induction hops with
  | nil => rfl
  | cons hop hops ih => rw [Layers.wrap_cons, length_hopLayer, ih]

@[simp] theorem length_wrap_hopLayer_symm (hops : List TransitHop) :
    (Layers.wrap (fun hop => (hopLayer suite hop).symm) hops state).2.length =
      state.2.length := by
  induction hops with
  | nil => rfl
  | cons hop hops ih => rw [Layers.wrap_cons, length_hopLayer_symm, ih]

end HopLayer

namespace Path

variable (suite : CipherSuite)

variable (withMac first : Bool) (path : Path)

theorem encryptHop_layer (hfirst : (first && withMac) = false)
    (hop : TransitHop) (nonce : SymmNonce) (inner : Bytes) :
    encryptHop suite withMac (first, inner, nonce) hop =
      (first, (hopLayer suite hop (nonce, inner)).2, (hopLayer suite hop (nonce, inner)).1) := by
  simp [encryptHop, hfirst, hopLayer_apply]

theorem foldl_encryptHop (hfirst : (first && withMac) = false)
    (hops : List TransitHop) (nonce : SymmNonce) (inner : Bytes) :
    hops.reverse.foldl (encryptHop suite withMac) (first, inner, nonce) =
      (first, (Layers.wrap (hopLayer suite) hops (nonce, inner)).2,
        (Layers.wrap (hopLayer suite) hops (nonce, inner)).1) := by
  induction hops with
  | nil => rfl
  | cons hop hops ih =>
    rw [List.reverse_cons, List.foldl_append, ih]
    simp only [List.foldl_cons, List.foldl_nil, Layers.wrap_cons]
    exact encryptHop_layer suite withMac first hfirst hop _ _

theorem hops_eq_dropLast_append : path.hops = path.hops.dropLast ++ [path.terminus] :=
  (List.dropLast_append_getLast path.hops_ne_nil).symm

theorem encryptPathMessage_noMac (data : Bytes) (nonce : SymmNonce)
    (type : MessageType) :
    path.encryptPathMessage suite data nonce type false =
      PathMessage.encode
        ⟨(Layers.wrap (hopLayer suite) path.hops (nonce, data)).2,
          (Layers.wrap (hopLayer suite) path.hops (nonce, data)).1,
          path.edge.rxid, type⟩ := by
  have hloop := foldl_encryptHop suite false true rfl path.hops nonce data
  simp [encryptPathMessage, hloop]

theorem encryptPathMessage_mac (data : Bytes) (nonce : SymmNonce)
    (type : MessageType) :
    path.encryptPathMessage suite data nonce type true =
      let start := (nonce ^^^ path.terminus.xorNonce,
        Crypto.aeadSeal suite data path.terminus.sharedSecret nonce [])
      PathMessage.encode
        ⟨(Layers.wrap (hopLayer suite) path.hops.dropLast start).2,
          (Layers.wrap (hopLayer suite) path.hops.dropLast start).1,
          path.edge.rxid, type⟩ := by
  -- the reversed loop visits the terminal hop first, while `first` still holds
  have hreverse : path.hops.reverse = path.terminus :: path.hops.dropLast.reverse := by
    conv_lhs => rw [hops_eq_dropLast_append path]
    simp
  have hseal : encryptHop suite true
      (true, data ++ List.replicate Crypto.tagSize 0, nonce) path.terminus =
        (false, Crypto.aeadSeal suite data path.terminus.sharedSecret nonce [],
          nonce ^^^ path.terminus.xorNonce) := by
    simp [encryptHop]
  have hloop := foldl_encryptHop suite true false rfl path.hops.dropLast
    (nonce ^^^ path.terminus.xorNonce)
    (Crypto.aeadSeal suite data path.terminus.sharedSecret nonce [])
  simp only [encryptPathMessage, if_true, hreverse, List.foldl_cons, hseal, hloop]

theorem foldl_decryptHop (hops : List TransitHop) (state : SymmNonce × Bytes) :
    hops.foldl (decryptHop suite) state = Layers.peel (hopLayer suite) hops state :=
  rfl

end Path
end SessionRouter
