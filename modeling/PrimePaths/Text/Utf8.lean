import PrimePaths.Text.Quoted

namespace PrimePaths.Text

/-- What is wrong with bytes that are no UTF-8. -/
inductive Utf8Reason
  | badStart
  | unexpectedEnd
  | badContinuation
  deriving DecidableEq, Repr

def Utf8Reason.text : Utf8Reason → String
  | badStart => "invalid start byte"
  | unexpectedEnd => "unexpected end of data"
  | badContinuation => "invalid continuation byte"

/-- The first byte of a fault, its place and the place after its last byte. -/
structure Utf8Fault where
  byte : UInt8
  start : Nat
  stop : Nat
  reason : Utf8Reason
  deriving DecidableEq, Repr

def Utf8Fault.message (f : Utf8Fault) : String :=
  let place :=
    if f.stop = f.start + 1 then
      s!"byte 0x{String.ofList (hex 2 f.byte.toNat)} in position {f.start}"
    else s!"bytes in position {f.start}-{f.stop - 1}"
  s!"'utf-8' codec can't decode {place}: {f.reason.text}"

/-- What may follow the first byte of a character: how many bytes, and the range of the first of them. -/
structure Following where
  count : Nat
  low : UInt8
  high : UInt8

/-- The bytes that a first byte asks for; none if no character starts so. -/
def following? (b : UInt8) : Option Following :=
  if b < 0x80 then some ⟨0, 0x80, 0xbf⟩
  else if b < 0xc2 then none
  else if b < 0xe0 then some ⟨1, 0x80, 0xbf⟩
  else if b = 0xe0 then some ⟨2, 0xa0, 0xbf⟩
  else if b = 0xed then some ⟨2, 0x80, 0x9f⟩
  else if b < 0xf0 then some ⟨2, 0x80, 0xbf⟩
  else if b = 0xf0 then some ⟨3, 0x90, 0xbf⟩
  else if b < 0xf4 then some ⟨3, 0x80, 0xbf⟩
  else if b = 0xf4 then some ⟨3, 0x80, 0x8f⟩
  else none

/-- How many of the bytes a first byte asks for are there. -/
def followed (f : Following) (bs : List UInt8) : Nat :=
  match f.count, bs with
  | 0, _ => 0
  | _, [] => 0
  | n + 1, b :: bs =>
    if f.low ≤ b && b ≤ f.high then
      1 + ((bs.take n).takeWhile fun c => 0x80 ≤ c && c ≤ 0xbf).length
    else 0

def fault? (place : Nat) (bytes : List UInt8) : Option Utf8Fault :=
  match bytes with
  | [] => none
  | b :: bs =>
    match following? b with
    | none => some ⟨b, place, place + 1, .badStart⟩
    | some f =>
      let n := followed f bs
      if n = f.count then fault? (place + 1 + n) (bs.drop n)
      else if n = bs.length then some ⟨b, place, place + 1 + n, .unexpectedEnd⟩
      else some ⟨b, place, place + 1 + n, .badContinuation⟩
termination_by bytes.length
decreasing_by
  simp only [List.length_drop, List.length_cons]
  omega

/-- The text of UTF-8 bytes, or their first fault. -/
def decode (bytes : ByteArray) : Except Utf8Fault String :=
  match String.fromUTF8? bytes with
  | some s => .ok s
  | none => .error ((fault? 0 bytes.data.toList).getD ⟨0, 0, 1, .badStart⟩)

/-- Whether a fault is only that the bytes end too soon. Two bytes of a surrogate at the end count as such:
the fault is not seen before the third. -/
def Utf8Fault.isOpen (bytes : ByteArray) (f : Utf8Fault) : Bool :=
  f.reason == .unexpectedEnd ||
    f.byte == 0xed && f.start + 2 == bytes.size &&
      (bytes[f.start + 1]?).any fun b => 0xa0 ≤ b && b ≤ 0xbf

/-- The text of bytes after which more may come: a character that they break off is left out. -/
def decodeOpen (bytes : ByteArray) : Except Utf8Fault String :=
  match decode bytes with
  | .ok s => .ok s
  | .error f => if f.isOpen bytes then decode (bytes.extract 0 f.start) else .error f

end PrimePaths.Text
