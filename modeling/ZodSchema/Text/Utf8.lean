import ZodSchema.Text.Numeral
import ZodSchema.Text.Literal

/-!
# Reading text from bytes

* `Utf8.decode`    the characters of a byte sequence, or where and why it is not UTF-8
* `unifyBreaks`    every line ended by a line feed alone
-/

namespace ZodSchema.Text

namespace Utf8

inductive Reason where
  | start | continuation | truncated
  deriving DecidableEq, Repr

def Reason.message : Reason → String
  | start => "invalid start byte"
  | continuation => "invalid continuation byte"
  | truncated => "unexpected end of data"

/-- `count` bytes from position `first` on that begin no character; `byte` is the first -/
structure Fault where
  byte : UInt8
  first : Nat
  count : Nat
  reason : Reason
  deriving DecidableEq, Repr

def byteHex (b : UInt8) : String := String.ofList [hexDigit (b.toNat / 16), hexDigit (b.toNat % 16)]

def Fault.message (f : Fault) : String :=
  "'utf-8' codec can't decode " ++
    (if f.count = 1 then "byte 0x" ++ byteHex f.byte ++ " in position " ++ natText f.first
      else "bytes in position " ++ natText f.first ++ "-" ++ natText (f.first + f.count - 1)) ++
    ": " ++ f.reason.message

/-- the six payload bits of a later byte -/
def low (b : UInt8) : Nat := b.toNat % 64

def isLater (b : UInt8) : Bool := 0x80 ≤ b && b < 0xC0

/-- `c` may follow the first byte `b`: no overlong form, no surrogate, nothing above the last
code point -/
def isSecond (b c : UInt8) : Bool :=
  if b = 0xE0 then 0xA0 ≤ c && c < 0xC0
  else if b = 0xED then 0x80 ≤ c && c < 0xA0
  else if b = 0xF0 then 0x90 ≤ c && c < 0xC0
  else if b = 0xF4 then 0x80 ≤ c && c < 0x90
  else isLater c

/-- number of bytes of a character by its first byte, 0 when none begins so -/
def width (b : UInt8) : Nat :=
  if b < 0x80 then 1 else if b < 0xC2 then 0 else if b < 0xE0 then 2
  else if b < 0xF0 then 3 else if b < 0xF5 then 4 else 0

/-- `decode` from position `i` on -/
def decodeFrom (i : Nat) : List UInt8 → Except Fault (List Char)
  | [] => .ok []
  | b :: rest =>
    let fail (n : Nat) (r : Reason) : Except Fault (List Char) := .error ⟨b, i, n, r⟩
    match width b, rest with
    | 1, rest => (decodeFrom (i + 1) rest).map (Char.ofNat b.toNat :: ·)
    | 0, _ => fail 1 .start
    | _, [] => fail 1 .truncated
    | w, c :: rest =>
      if !isSecond b c then fail 1 .continuation
      else if w = 2 then
        (decodeFrom (i + 2) rest).map (Char.ofNat (b.toNat % 32 * 64 + low c) :: ·)
      else
        match rest with
        | [] => fail 2 .truncated
        | d :: rest =>
          if !isLater d then fail 2 .continuation
          else if w = 3 then
            (decodeFrom (i + 3) rest).map
              (Char.ofNat ((b.toNat % 16 * 64 + low c) * 64 + low d) :: ·)
          else
            match rest with
            | [] => fail 3 .truncated
            | e :: rest =>
              if !isLater e then fail 3 .continuation
              else
                (decodeFrom (i + 4) rest).map
                  (Char.ofNat (((b.toNat % 8 * 64 + low c) * 64 + low d) * 64 + low e) :: ·)

def decode (bytes : ByteArray) : Except Fault (List Char) := decodeFrom 0 bytes.data.toList

end Utf8

/-- every line ended by a line feed alone -/
def unifyBreaks : List Char → List Char
  | [] => []
  | '\r' :: '\n' :: cs => '\n' :: unifyBreaks cs
  | '\r' :: cs => '\n' :: unifyBreaks cs
  | c :: cs => c :: unifyBreaks cs

end ZodSchema.Text
