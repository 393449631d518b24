import SessionRouter.Messages.Common
import SessionRouter.Path.Message

/-!
# Path control messages, client side
-/

namespace SessionRouter

open Lib Bencode

structure PathControlResponse where
  body : Bytes
  timedOut : Bool
  error : Bool
  deriving DecidableEq

def PathControlResponse.ok (resp : PathControlResponse) : Bool :=
  !resp.timedOut && !resp.error

namespace Path

variable (suite : CipherSuite)

def controlRequest (method body : Bytes) : Bytes :=
  encodeDict [(ascii "e", encodeString method), (ascii "p", encodeString body)]

def pathControlMessage (path : Path) (method body : Bytes) (nonce : SymmNonce) : Bytes :=
  path.encryptPathMessage suite (controlRequest method body) nonce MessageType.control true

def controlDecryptor (path : Option Path) (m : Message) : PathControlResponse :=
  match path with
  | none => { body := [], timedOut := true, error := false }
  | some path =>
    { body :=
        if Message.timedOut m || Message.isError m then Message.body m
        else path.decryptPathMessage suite (Message.body m)
      timedOut := Message.timedOut m
      error := !Message.succeeded m }

structure PingStats where
  responses : Nat
  timeouts : Nat
  recentTimeouts : Nat
  expired : Bool
  deriving DecidableEq

def pingAnswered (maxMissedPings : Nat) (stats : PingStats) (resp : PathControlResponse) :
    PingStats :=
  if resp.ok then
    { stats with responses := stats.responses + 1, recentTimeouts := 0 }
  else if resp.timedOut then
    { stats with
      timeouts := stats.timeouts + 1
      recentTimeouts := stats.recentTimeouts + 1
      expired := stats.expired || decide (maxMissedPings < stats.recentTimeouts + 1) }
  else
    { stats with expired := true }

def publishAnswered (remainingSuccess : Int × Nat) (resp : PathControlResponse) : Int × Nat :=
  (remainingSuccess.1 - 1,
    if resp.ok then remainingSuccess.2 + 1 else remainingSuccess.2)

end Path

variable (suite : CipherSuite)

namespace Path

def replyAuthentic (path : Path) (payload : Bytes) : Bool :=
  decide (encryptPathMessageOverheadMac < payload.length) &&
    let m := PathMessage.splitSpanTail payload
    let peeled := path.hops.dropLast.foldl (decryptHop suite) (m.nonce, m.inner)
    Crypto.tagVerifies suite peeled.2 path.terminus.sharedSecret
      (peeled.1 ^^^ path.terminus.xorNonce) []

theorem controlDecryptor_ok_iff (path : Option Path) (m : Message) :
    (controlDecryptor suite path m).ok = true ↔
      path.isSome ∧ Message.succeeded m = true := by
  cases path with
  | none => simp [controlDecryptor, PathControlResponse.ok]
  | some path =>
    cases m with
    | none => simp [controlDecryptor, PathControlResponse.ok, Message.succeeded, Message.timedOut]
    | some reply =>
      simp [controlDecryptor, PathControlResponse.ok, Message.succeeded, Message.timedOut]

theorem pingAnswered_counts_iff (maxMissedPings : Nat) (stats : PingStats)
    (resp : PathControlResponse) :
    (pingAnswered maxMissedPings stats resp).responses = stats.responses + 1 ↔
      resp.ok = true := by
  unfold pingAnswered
  by_cases hok : resp.ok = true
  · simp [hok]
  · rw [if_neg hok]
    by_cases htimeout : resp.timedOut = true
    · simp [htimeout, hok]
    · simp [htimeout, hok]

theorem publishAnswered_counts_iff (remainingSuccess : Int × Nat) (resp : PathControlResponse) :
    (publishAnswered remainingSuccess resp).2 = remainingSuccess.2 + 1 ↔ resp.ok = true := by
  by_cases hok : resp.ok = true
  · simp [publishAnswered, hok]
  · simp [publishAnswered, hok]

theorem controlDecryptor_ok_authentic_iff (path : Option Path) (m : Message)
    (maxMissedPings : Nat) (stats : PingStats) (remainingSuccess : Int × Nat) :
    let resp := controlDecryptor suite path m
    let authentic := path.any fun path => replyAuthentic suite path (Message.body m)
    let condition := path = none ∨ Message.succeeded m = false ∨ authentic = true
    ((resp.ok = true → authentic = true) ↔ condition) ∧
    (((pingAnswered maxMissedPings stats resp).responses = stats.responses + 1 →
      authentic = true) ↔ condition) ∧
    (((publishAnswered remainingSuccess resp).2 = remainingSuccess.2 + 1 →
      authentic = true) ↔ condition) := by
  intro resp authentic condition
  have hok : (resp.ok = true → authentic = true) ↔ condition := by
    rw [controlDecryptor_ok_iff]
    cases path with
    | none => simp [condition]
    | some path =>
      cases hm : Message.succeeded m with
      | false => simp [condition, hm]
      | true => simp [condition, hm]
  refine ⟨hok, ?_, ?_⟩
  · rw [pingAnswered_counts_iff]
    exact hok
  · rw [publishAnswered_counts_iff]
    exact hok

namespace Garbled

def cipher : CipherSuite where
  stream _ _ _ := 0
  aeadStream _ _ _ := 0
  poly1305 key _ _ _ := FixedBytes.ofBytes 16 key.data

def hop (terminal : Bool) : TransitHop where
  txid := FixedBytes.filled 16 2
  rxid := FixedBytes.filled 16 (if terminal then 2 else 1)
  upstream := FixedBytes.filled 32 4
  routerId := FixedBytes.filled 32 (if terminal then 4 else 3)
  downstream := .router (FixedBytes.filled 32 (if terminal then 3 else 9))
  sharedSecret := FixedBytes.filled 32 5
  xorNonce := FixedBytes.filled 24 6
  expiry := 0
  version := 1
  terminalHop := terminal

def path : Path := ⟨1, [hop false, hop true], by simp⟩

end Garbled

theorem controlDecryptor_garbled_ok :
    let reply : Message := some ⟨List.replicate 60 0, false⟩
    let resp := controlDecryptor Garbled.cipher (some Garbled.path) reply
    resp.ok = true ∧
      replyAuthentic Garbled.cipher Garbled.path (Message.body reply) = false ∧
      (pingAnswered 3 ⟨0, 0, 0, false⟩ resp).responses = 1 ∧
      (publishAnswered (4, 0) resp).2 = 1 := by
  decide

end Path
end SessionRouter
