/-! Bytes in the standard base-64 alphabet, padded. -/

namespace DocStore.Base64

def alphabet : List Char :=
  "ABCDEFGHIJKLMNOPQRSTUVWXYZabcdefghijklmnopqrstuvwxyz0123456789+/".toList

def sextetChar (sextet : Nat) : Char :=
  alphabet.getD sextet '='

def sextet? (c : Char) : Option Nat :=
  alphabet.findIdx? (· == c)

def encode : List UInt8 → List Char
  | [] => []
  | [first] =>
      let bits := first.toNat * 16
      [sextetChar (bits / 64), sextetChar (bits % 64), '=', '=']
  | [first, second] =>
      let bits := (first.toNat * 256 + second.toNat) * 4
      [sextetChar (bits / 4096), sextetChar (bits / 64 % 64), sextetChar (bits % 64), '=']
  | first :: second :: third :: rest =>
      let bits := (first.toNat * 256 + second.toNat) * 256 + third.toNat
      sextetChar (bits / 262144) :: sextetChar (bits / 4096 % 64) ::
        sextetChar (bits / 64 % 64) :: sextetChar (bits % 64) :: encode rest

/-- Reads padded text; the unused bits before the padding must be zero. -/
def decode? : List Char → Option (List UInt8)
  | [] => some []
  | [first, second, '=', '='] => do
      let bits := (← sextet? first) * 64 + (← sextet? second)
      if bits % 16 = 0 then some [UInt8.ofNat (bits / 16)] else none
  | [first, second, third, '='] => do
      let bits := ((← sextet? first) * 64 + (← sextet? second)) * 64 + (← sextet? third)
      if bits % 4 = 0 then
        some [UInt8.ofNat (bits / 1024), UInt8.ofNat (bits / 4)]
      else none
  | first :: second :: third :: fourth :: rest => do
      let bits := (((← sextet? first) * 64 + (← sextet? second)) * 64 +
        (← sextet? third)) * 64 + (← sextet? fourth)
      let bytes ← decode? rest
      return UInt8.ofNat (bits / 65536) :: UInt8.ofNat (bits / 256) :: UInt8.ofNat bits :: bytes
  | _ => none

end DocStore.Base64
