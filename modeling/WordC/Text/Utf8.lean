import WordC.Text.Hex

namespace WordC.Text.Utf8

inductive Reason where
  | invalidStart
  | invalidContinuation
  | unexpectedEnd
deriving DecidableEq, Repr

-- The first bytes of a text that encode nothing: where they start, the first of them and how many.
structure Fault where
  start : Nat
  first : UInt8
  length : Nat
  reason : Reason
deriving DecidableEq, Repr

def Reason.message : Reason → String
  | .invalidStart => "invalid start byte"
  | .invalidContinuation => "invalid continuation byte"
  | .unexpectedEnd => "unexpected end of data"

def Fault.message (fault : Fault) : String :=
  let place :=
    if fault.length = 1 then
      s!"byte 0x{hexLower 2 fault.first.toNat} in position {fault.start}"
    else s!"bytes in position {fault.start}-{fault.start + fault.length - 1}"
  s!"'utf-8' codec can't decode {place}: {fault.reason.message}"

-- How many bytes follow a first byte, and the range of the second one. The ranges leave out overlong
-- forms, surrogates and code points past the last.
def follow? (first : UInt8) : Option (Nat × UInt8 × UInt8) :=
  if 0xc2 ≤ first && first ≤ 0xdf then some (1, 0x80, 0xbf)
  else if first = 0xe0 then some (2, 0xa0, 0xbf)
  else if first = 0xed then some (2, 0x80, 0x9f)
  else if 0xe1 ≤ first && first ≤ 0xef then some (2, 0x80, 0xbf)
  else if first = 0xf0 then some (3, 0x90, 0xbf)
  else if 0xf1 ≤ first && first ≤ 0xf3 then some (3, 0x80, 0xbf)
  else if first = 0xf4 then some (3, 0x80, 0x8f)
  else none

def isContinuation (byte : UInt8) : Bool := 0x80 ≤ byte && byte ≤ 0xbf

def low (byte : UInt8) : Nat := byte.toNat % 64

-- The characters that the bytes encode, or the first fault. `start` is the position of the first byte.
def decodeFrom (start : Nat) : List UInt8 → Except Fault (List Char)
  | [] => .ok []
  | first :: rest =>
    if first < 0x80 then
      (decodeFrom (start + 1) rest).map (Char.ofNat first.toNat :: ·)
    else match follow? first with
    | none => .error ⟨start, first, 1, .invalidStart⟩
    | some (count, least, most) =>
      match rest with
      | [] => .error ⟨start, first, 1, .unexpectedEnd⟩
      | second :: rest =>
        if second < least || most < second then .error ⟨start, first, 1, .invalidContinuation⟩
        else if count = 1 then
          (decodeFrom (start + 2) rest).map
            (Char.ofNat (first.toNat % 32 * 64 + low second) :: ·)
        else match rest with
        | [] => .error ⟨start, first, 2, .unexpectedEnd⟩
        | third :: rest =>
          if !isContinuation third then .error ⟨start, first, 2, .invalidContinuation⟩
          else if count = 2 then
            (decodeFrom (start + 3) rest).map
              (Char.ofNat ((first.toNat % 16 * 64 + low second) * 64 + low third) :: ·)
          else match rest with
          | [] => .error ⟨start, first, 3, .unexpectedEnd⟩
          | fourth :: rest =>
            if !isContinuation fourth then .error ⟨start, first, 3, .invalidContinuation⟩
            else (decodeFrom (start + 4) rest).map
              (Char.ofNat (((first.toNat % 8 * 64 + low second) * 64 + low third) * 64 + low fourth) :: ·)

def decode (bytes : List UInt8) : Except Fault (List Char) := decodeFrom 0 bytes

end WordC.Text.Utf8
