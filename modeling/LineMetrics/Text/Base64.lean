/-!
# Base64

Bytes are written three at a time as four characters of the standard alphabet. A
last group of one or two bytes is filled up with equals signs.
-/

namespace LineMetrics
namespace Text
namespace Base64

/-- The standard alphabet, in the order of the values of its characters. -/
def alphabet : List Char :=
  "ABCDEFGHIJKLMNOPQRSTUVWXYZabcdefghijklmnopqrstuvwxyz0123456789+/".toList

/-- The character for six bits. -/
def digit (value : Nat) : Char := alphabet.getD (value % 64) 'A'

/-- The value of a character of the alphabet. -/
def digitValue? (character : Char) : Option Nat := alphabet.idxOf? character

/-- The characters for a list of bytes. -/
def encode : List UInt8 -> List Char
  | [] => []
  | [first] =>
      let bits := first.toNat * 16
      [digit (bits / 64), digit bits, '=', '=']
  | [first, second] =>
      let bits := (first.toNat * 256 + second.toNat) * 4
      [digit (bits / 4096), digit (bits / 64), digit bits, '=']
  | first :: second :: third :: rest =>
      let bits := (first.toNat * 256 + second.toNat) * 256 + third.toNat
      digit (bits / 262144) :: digit (bits / 4096) :: digit (bits / 64) :: digit bits ::
        encode rest

/-- The bytes that a text in the form written by `encode` stands for. Bits that
fill up a last group must be zero. -/
def decode? : List Char -> Option (List UInt8)
  | [] => some []
  | [first, second, '=', '='] => do
      let bits := (<- digitValue? first) * 64 + (<- digitValue? second)
      if bits % 16 = 0 then some [UInt8.ofNat (bits / 16)] else none
  | [first, second, third, '='] => do
      let bits :=
        ((<- digitValue? first) * 64 + (<- digitValue? second)) * 64 + (<- digitValue? third)
      if bits % 4 = 0 then
        some [UInt8.ofNat (bits / 1024), UInt8.ofNat (bits / 4)]
      else none
  | first :: second :: third :: fourth :: rest => do
      let bits :=
        (((<- digitValue? first) * 64 + (<- digitValue? second)) * 64 +
          (<- digitValue? third)) * 64 + (<- digitValue? fourth)
      let bytes <- decode? rest
      some (UInt8.ofNat (bits / 65536) :: UInt8.ofNat (bits / 256) :: UInt8.ofNat bits :: bytes)
  | _ => none

end Base64
end Text
end LineMetrics
