import SessionRouter.Lib.Bencode

/-!
# Requests, replies and status responses
-/

namespace SessionRouter

open Lib Bencode

/-- The answer to a request. -/
structure Reply where
  body : Bytes
  isError : Bool
  deriving DecidableEq

abbrev Message := Option Reply

namespace Message

def timedOut (m : Message) : Bool :=
  m.isNone

def isError (m : Message) : Bool :=
  m.any Reply.isError

def succeeded (m : Message) : Bool :=
  !timedOut m && !isError m

def body (m : Message) : Bytes :=
  (m.map Reply.body).getD []

end Message

namespace Messages

def serializeStatusResponse (value : Bytes) : Bytes :=
  encodeDict [(ascii "!", encodeString value)]

def okResponse : Bytes := serializeStatusResponse (ascii "OK")
def errorResponse : Bytes := serializeStatusResponse (ascii "ERROR")
def timeoutResponse : Bytes := serializeStatusResponse (ascii "TIMEOUT")
def notFoundResponse : Bytes := serializeStatusResponse (ascii "NOT FOUND")
def expiredResponse : Bytes := serializeStatusResponse (ascii "SLOW CLOCK")
def futureResponse : Bytes := serializeStatusResponse (ascii "FAST CLOCK")

end Messages
end SessionRouter
