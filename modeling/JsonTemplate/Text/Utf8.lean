import JsonTemplate.Text.CodePoint

set_option autoImplicit false

/-!
# UTF-8

Texts as octets. Decoding names the first fault; encoding fails on a surrogate.
-/

namespace JsonTemplate.Utf8

inductive Fault where
  | invalidStart
  | invalidContinuation
  | unexpectedEnd
deriving DecidableEq, Repr

def Fault.message : Fault → Text
  | .invalidStart => lit "invalid start byte"
  | .invalidContinuation => lit "invalid continuation byte"
  | .unexpectedEnd => lit "unexpected end of data"

/-- A sequence that has begun: how many octets are missing, the bounds of the
next one, and the bits gathered so far. -/
structure Pending where
  missing : Nat
  low : UInt8
  high : UInt8
  bits : Nat

/-- How a sequence continues after its first octet. The bounds exclude overlong
forms, surrogates, and numbers above `U+10FFFF`. -/
def lead? (octet : UInt8) : Option Pending :=
  if octet < 0xC2 then none
  else if octet < 0xE0 then some ⟨1, 0x80, 0xBF, octet.toNat - 0xC0⟩
  else if octet = 0xE0 then some ⟨2, 0xA0, 0xBF, 0⟩
  else if octet = 0xED then some ⟨2, 0x80, 0x9F, 0xD⟩
  else if octet < 0xF0 then some ⟨2, 0x80, 0xBF, octet.toNat - 0xE0⟩
  else if octet = 0xF0 then some ⟨3, 0x90, 0xBF, 0⟩
  else if octet < 0xF4 then some ⟨3, 0x80, 0xBF, octet.toNat - 0xF0⟩
  else if octet = 0xF4 then some ⟨3, 0x80, 0x8F, 4⟩
  else none

def decodeFrom : Option Pending → List UInt8 → Except Fault Text
  | none, [] => .ok []
  | some _, [] => .error .unexpectedEnd
  | none, octet :: rest =>
      if octet < 0x80 then (.ofNat octet.toNat :: ·) <$> decodeFrom none rest
      else
        match lead? octet with
        | none => .error .invalidStart
        | some pending => decodeFrom (some pending) rest
  | some pending, octet :: rest =>
      if pending.low ≤ octet ∧ octet ≤ pending.high then
        let bits := pending.bits * 64 + (octet.toNat - 0x80)
        if pending.missing ≤ 1 then (.ofNat bits :: ·) <$> decodeFrom none rest
        else decodeFrom (some ⟨pending.missing - 1, 0x80, 0xBF, bits⟩) rest
      else .error .invalidContinuation

def decode (octets : List UInt8) : Except Fault Text :=
  decodeFrom none octets

/-- The octets without the mark `EF BB BF` in front; at most one is dropped. -/
def dropMark : List UInt8 → List UInt8
  | 0xEF :: 0xBB :: 0xBF :: rest => rest
  | octets => octets

def encodePoint? : CodePoint → Option (List UInt8)
  | .surrogate _ => none
  | .scalar character =>
      let number := character.toNat
      let tail (bits : Nat) : UInt8 := .ofNat (0x80 + bits % 64)
      if number < 0x80 then some [.ofNat number]
      else if number < 0x800 then some [.ofNat (0xC0 + number / 64), tail number]
      else if number < 0x10000 then
        some [.ofNat (0xE0 + number / 4096), tail (number / 64), tail number]
      else
        some [.ofNat (0xF0 + number / 262144), tail (number / 4096), tail (number / 64),
          tail number]

def encode? : Text → Option (List UInt8)
  | [] => some []
  | point :: rest => do
      let octets ← encodePoint? point
      let following ← encode? rest
      return octets ++ following

end JsonTemplate.Utf8
