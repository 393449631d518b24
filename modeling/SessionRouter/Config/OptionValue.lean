import SessionRouter.Lib.Bencode
import SessionRouter.Lib.Binary64
import SessionRouter.Lib.TextLines

/-!
# Values of configuration options
-/

namespace SessionRouter

open Lib TextLines Binary64

/-- The types `T` for which there are options. -/
inductive OptionKind where
  | string
  | bool
  | int
  | uint16
  | uint64
  | seconds
  | milliseconds
  | path
deriving DecidableEq

abbrev OptionKind.Value : OptionKind → Type
  | .string => Bytes
  | .bool => Bool
  | .int => Int
  | .uint16 => Int
  | .uint64 => Int
  | .seconds => Int
  | .milliseconds => Int
  | .path => Bytes

def isSpace (byte : UInt8) : Bool :=
  byte == 0x20 || (0x09 ≤ byte && byte ≤ 0x0d)

def isLineBreak (byte : UInt8) : Bool :=
  byte == 0x0a || byte == 0x0d

def trueValues : List Bytes :=
  ["true", "TRUE", "T", "on", "ON", "1", "yes", "enable", "enabled"].map ascii

def falseValues : List Bytes :=
  ["false", "FALSE", "F", "off", "OFF", "1", "no", "disable", "disabled"].map ascii

def parseBoolean (text : Bytes) : Option Bool :=
  if text ∈ trueValues then some true
  else if text ∈ falseValues then some false
  else none

def boolText (value : Bool) : Bytes :=
  ascii (if value then "true" else "false")

def integerText (n : Int) : Bytes :=
  (if n < 0 then [0x2d] else []) ++ Bencode.decimal n.natAbs

def takeSign (allowsPlus : Bool) (text : Bytes) : Bool × Bytes :=
  if text.head? = some 0x2d then (true, text.tail)
  else if allowsPlus = true ∧ text.head? = some 0x2b then (false, text.tail)
  else (false, text)

def numberInRange (isSigned : Bool) (bits : Nat) (negative : Bool) (magnitude : Nat) : Option Int :=
  match isSigned, negative with
  | true, true => if magnitude ≤ 2 ^ (bits - 1) then some (-magnitude) else none
  | true, false => if magnitude < 2 ^ (bits - 1) then some magnitude else none
  | false, true => if magnitude < 2 ^ bits then some ((-magnitude : Int) % 2 ^ bits) else none
  | false, false => if magnitude < 2 ^ bits then some magnitude else none

def parseInt (text : Bytes) : Option Int :=
  let signed := takeSign false text
  let read := Bencode.readDecimal signed.2 0
  if Bencode.isDigit (signed.2.headD 0) = true ∧ read.2 = [] then
    numberInRange true 32 signed.1 read.1
  else none

def extractInteger (isSigned : Bool) (bits : Nat) (text : Bytes) : Option Int :=
  let signed := takeSign true (text.dropWhile isSpace)
  if Bencode.isDigit (signed.2.headD 0) = true then
    numberInRange isSigned bits signed.1 (Bencode.readDecimal signed.2 0).1
  else none

def hour : Int := 3600000000000
def minute : Int := 60000000000
def second : Int := 1000000000
def millisecond : Int := 1000000
def microsecond : Int := 1000

def durationText (tick : Int) (value : Int) : Bytes :=
  let nanoseconds := value * tick
  if value = 0 then integerText 0 ++ ascii "s"
  else if hour ≤ nanoseconds ∧ nanoseconds % hour = 0 then
    integerText (nanoseconds / hour) ++ ascii "h"
  else if minute ≤ nanoseconds ∧ nanoseconds % minute = 0 then
    integerText (nanoseconds / minute) ++ ascii "min"
  else if second ≤ nanoseconds ∧ nanoseconds % second = 0 then
    integerText (nanoseconds / second) ++ ascii "s"
  else if millisecond ≤ nanoseconds ∧ nanoseconds % millisecond = 0 then
    -- the number of seconds, with the suffix of milliseconds
    integerText (nanoseconds / second) ++ ascii "ms"
  else if microsecond ≤ nanoseconds ∧ nanoseconds % microsecond = 0 then
    integerText (nanoseconds / microsecond) ++ ascii "us"
  else
    -- the count of `std::chrono::nanoseconds` has 64 bits
    integerText (nanoseconds.bmod (2 ^ 64)) ++ ascii "ns"

def durationUnit (text : Bytes) : ℚ × Bytes :=
  if ascii "h" <:+ text then (3600, text.dropLast)
  else if ascii "min" <:+ text then (60, text.take (text.length - 3))
  else if ascii "m" <:+ text then (60, text.dropLast)
  else if ascii "ms" <:+ text then (nearest (1 / 1000), text.take (text.length - 2))
  else if ascii "us" <:+ text then (nearest (1 / 1000000), text.take (text.length - 2))
  else if ascii "ns" <:+ text then (nearest (1 / 1000000000), text.take (text.length - 2))
  else if ascii "s" <:+ text then (1, text.dropLast)
  else (1, text)

def toTicks (tick : Int) (unit : ℚ) (count : Int) : Int :=
  roundHalfEven (nearest (nearest (count * unit) * (second / tick)))

def readDuration (tick : Int) (text : Bytes) : Option Int :=
  (parseInt (durationUnit text).2).map (toTicks tick (durationUnit text).1)

def readQuoted : Bytes → Option Bytes
  | [] => none
  | 0x22 :: _ => some []
  | 0x5c :: byte :: rest => (readQuoted rest).map (byte :: ·)
  | 0x5c :: [] => none
  | byte :: rest => (readQuoted rest).map (byte :: ·)

def extractPath (text : Bytes) : Option Bytes :=
  match text.dropWhile isSpace with
  | [] => none
  | 0x22 :: rest => readQuoted rest
  | word => some (word.takeWhile fun byte => !isSpace byte)

namespace OptionKind

def fromString : (kind : OptionKind) → Bytes → Option kind.Value
  | .string, text => some text
  | .bool, text => parseBoolean text
  | .int, text => extractInteger true 32 text
  | .uint16, text => extractInteger false 16 text
  | .uint64, text => extractInteger false 64 text
  | .seconds, text => readDuration second text
  | .milliseconds, text => readDuration millisecond text
  | .path, text => extractPath text

def valueText : (kind : OptionKind) → kind.Value → Bytes
  | .string, value => value
  | .bool, value => boolText value
  | .int, value => integerText value
  | .uint16, value => integerText value
  | .uint64, value => integerText value
  | .seconds, value => durationText second value
  | .milliseconds, value => durationText millisecond value
  | .path, value => value

end OptionKind
end SessionRouter
