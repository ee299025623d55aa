import Stm32Emulator.Foundation.Word

/-!
# The text of a signal line

A client of the ECU I/O device sends lines `name=value`.  The bytes of a line are decoded as UTF-8
with replacement of what is not, trimmed, split at the first equals sign, and the value is read as a
number.
-/

namespace Stm32Emulator.Ecu

/-! ## Decoding -/

/-- What stands for bytes that are not UTF-8. -/
def replacementCharacter : Char := '\ufffd'

def isContinuation (b : U8) : Bool := b &&& 0xc0 = 0x80

/-- The bytes that may follow the first byte of three. -/
def isSecondOfThree (b c : U8) : Bool :=
  if b = 0xe0 then decide (0xa0 ≤ c ∧ c ≤ 0xbf)
  else if b = 0xed then decide (0x80 ≤ c ∧ c ≤ 0x9f)
  else isContinuation c

/-- The bytes that may follow the first byte of four. -/
def isSecondOfFour (b c : U8) : Bool :=
  if b = 0xf0 then decide (0x90 ≤ c ∧ c ≤ 0xbf)
  else if b = 0xf4 then decide (0x80 ≤ c ∧ c ≤ 0x8f)
  else isContinuation c

/-- The six bits of a continuation byte. -/
def continuationBits (b : U8) : ℕ := (b &&& 0x3f).toNat

/-- The character that a byte begins, or the replacement of the longest part of one, and the number
of further bytes that it takes. -/
def decodeChar (b : U8) (bytes : List U8) : Char × ℕ :=
  -- a byte past the end is no continuation byte
  let c := bytes.getD 0 0
  let d := bytes.getD 1 0
  let e := bytes.getD 2 0
  if b < 0x80 then (Char.ofNat b.toNat, 0)
  else if 0xc2 ≤ b ∧ b ≤ 0xdf then
    if !isContinuation c then (replacementCharacter, 0)
    else (Char.ofNat ((b &&& 0x1f).toNat * 64 + continuationBits c), 1)
  else if 0xe0 ≤ b ∧ b ≤ 0xef then
    if !isSecondOfThree b c then (replacementCharacter, 0)
    else if !isContinuation d then (replacementCharacter, 1)
    else
      (Char.ofNat (((b &&& 0x0f).toNat * 64 + continuationBits c) * 64 + continuationBits d), 2)
  else if 0xf0 ≤ b ∧ b ≤ 0xf4 then
    if !isSecondOfFour b c then (replacementCharacter, 0)
    else if !isContinuation d then (replacementCharacter, 1)
    else if !isContinuation e then (replacementCharacter, 2)
    else
      (Char.ofNat ((((b &&& 0x07).toNat * 64 + continuationBits c) * 64 + continuationBits d) * 64 +
        continuationBits e), 3)
  else (replacementCharacter, 0)

/-- The loop of `fromUtf8Lossy`; each round takes at least one byte. -/
def fromUtf8LossyLoop : ℕ → List U8 → List Char
  | 0, _ => []
  | _, [] => []
  | fuel + 1, b :: bytes =>
    (decodeChar b bytes).1 :: fromUtf8LossyLoop fuel (bytes.drop (decodeChar b bytes).2)

def fromUtf8Lossy (bytes : List U8) : List Char := fromUtf8LossyLoop bytes.length bytes

/-! ## Reading -/

/-- The characters with the property `White_Space`. -/
def isWhitespace (c : Char) : Bool :=
  let n := c.toNat
  decide (0x09 ≤ n ∧ n ≤ 0x0d) || n == 0x20 || n == 0x85 || n == 0xa0 || n == 0x1680 ||
    decide (0x2000 ≤ n ∧ n ≤ 0x200a) || n == 0x2028 || n == 0x2029 || n == 0x202f || n == 0x205f ||
    n == 0x3000

def trim (text : List Char) : List Char :=
  ((text.dropWhile isWhitespace).reverse.dropWhile isWhitespace).reverse

/-- The text before and after the first separator. -/
def splitOnce (sep : Char) (text : List Char) : Option (List Char × List Char) :=
  match text.dropWhile (· != sep) with
  | [] => none
  | _ :: after => some (text.takeWhile (· != sep), after)

/-- A number of 32 bits with an optional sign. -/
def parseI32 (text : List Char) : Option ℤ :=
  let (negative, digits) := match text with
    | '-' :: digits => (true, digits)
    | '+' :: digits => (false, digits)
    | digits => (false, digits)
  if digits = [] ∨ digits.any fun c => !c.isDigit then none
  else
    let magnitude : ℕ := digits.foldl (fun n c => 10 * n + (c.toNat - '0'.toNat)) 0
    let value : ℤ := if negative then -magnitude else magnitude
    if -2 ^ 31 ≤ value ∧ value < 2 ^ 31 then some value else none

/-- What a line is handled as: its text, unless there is none. -/
def decodeLine (line : List U8) : Option (List Char) :=
  match trim (fromUtf8Lossy line) with
  | [] => none
  | text => some text

/-- The signal and the value of a line, if it is well formed. -/
def parseLine (text : List Char) : Option (String × ℤ) :=
  (splitOnce '=' text).bind fun (name, value) =>
    (parseI32 (trim value)).map fun value => (String.ofList (trim name), value)

/-- The bytes of a line for the client. -/
def outputLine (name : String) (value : ℤ) : List U8 :=
  (name ++ "=" ++ toString value ++ "\n").toUTF8.data.toList.map UInt8.toBitVec

example : parseLine "din1 = -40".toList = some ("din1", -40) := by decide +kernel

end Stm32Emulator.Ecu
