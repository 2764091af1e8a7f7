/-!
# Bytes in sixty-four letters

Four letters hold three bytes; equals signs fill the last four up.

* `Base64.decode?`   the bytes of a text; signs that are no letters are passed over
-/

namespace ZodSchema.Text.Base64

/-- the six bits of a letter -/
def bits? (c : Char) : Option Nat :=
  if 'A' ≤ c ∧ c ≤ 'Z' then some (c.toNat - 65)
  else if 'a' ≤ c ∧ c ≤ 'z' then some (c.toNat - 71)
  else if '0' ≤ c ∧ c ≤ '9' then some (c.toNat + 4)
  else if c = '+' then some 62
  else if c = '/' then some 63
  else none

/-- `decode?` inside a group of four: `count` letters of it were read, `fill` equals signs stand
behind the last one, and `held` are its bits that made no byte yet -/
def decodeFrom (count fill held : Nat) : List Char → Option (List UInt8)
  | [] => if count = 0 then some [] else none
  | c :: cs =>
    if c = '=' ∧ 2 ≤ count then
      if 3 ≤ count + fill then some [] else decodeFrom count (fill + 1) held cs
    else
      match bits? c, count with
      | none, _ => decodeFrom count fill held cs
      | some v, 0 => decodeFrom 1 0 v cs
      | some v, 1 => (decodeFrom 2 0 (v % 16) cs).map (UInt8.ofNat (held * 4 + v / 16) :: ·)
      | some v, 2 => (decodeFrom 3 0 (v % 4) cs).map (UInt8.ofNat (held * 16 + v / 4) :: ·)
      | some v, _ => (decodeFrom 0 0 0 cs).map (UInt8.ofNat (held * 64 + v) :: ·)

/-- the bytes of a text; behind a group that was filled up nothing is read -/
def decode? (cs : List Char) : Option (List UInt8) := decodeFrom 0 0 0 cs

end ZodSchema.Text.Base64
