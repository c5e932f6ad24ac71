import DocStore.Text.Base64
import DocStore.Text.Hex

/-!
Bytes written as text are read back.
-/

namespace DocStore

namespace Hex

theorem digitValue?_digit {value : Nat} (small : value < 16) :
    digitValue? (digit value) = some value := by
  have all : ∀ value : Fin 16, digitValue? (digit value) = some value.val := by decide
  exact all ⟨value, small⟩

theorem decode?_encodeByte_append (byte : UInt8) (rest : List Char) :
    decode? (encodeByte byte ++ rest) = (decode? rest).map (byte :: ·) := by
  have bound := byte.toNat_lt
  have whole : 16 * (byte.toNat / 16) + byte.toNat % 16 = byte.toNat := by omega
  rw [encodeByte, List.cons_append, List.cons_append, List.nil_append, decode?,
    digitValue?_digit (by omega), digitValue?_digit (by omega)]
  cases decode? rest with
  | none => rfl
  | some bytes =>
      simp only [bind, Option.bind, pure, whole, Option.map_some]
      rw [UInt8.ofNat_toNat]

theorem decode?_encode (bytes : List UInt8) : decode? (encode bytes) = some bytes := by
  induction bytes with
  | nil => rfl
  | cons byte bytes induction =>
      have step : encode (byte :: bytes) = encodeByte byte ++ encode bytes := rfl
      rw [step, decode?_encodeByte_append, induction]
      rfl

end Hex

namespace Base64

theorem sextet?_sextetChar {sextet : Nat} (small : sextet < 64) :
    sextet? (sextetChar sextet) = some sextet := by
  have all : ∀ sextet : Fin 64, sextet? (sextetChar sextet) = some sextet.val := by decide +kernel
  exact all ⟨sextet, small⟩

theorem sextetChar_ne_padding {sextet : Nat} (small : sextet < 64) : sextetChar sextet ≠ '=' := by
  intro same
  have read := sextet?_sextetChar small
  rw [same] at read
  cases read

theorem decode?_group {first second third fourth : Char} (noPadding : fourth ≠ '=')
    (rest : List Char) :
    decode? (first :: second :: third :: fourth :: rest) = do
      let bits := (((← sextet? first) * 64 + (← sextet? second)) * 64 + (← sextet? third)) * 64 +
        (← sextet? fourth)
      let bytes ← decode? rest
      return UInt8.ofNat (bits / 65536) :: UInt8.ofNat (bits / 256) :: UInt8.ofNat bits :: bytes := by
  rw [decode?]
  · intro _ same
    exact absurd same noPadding
  · intro same
    exact absurd same noPadding

theorem decode?_one (first : UInt8) : decode? (encode [first]) = some [first] := by
  have bound := first.toNat_lt
  have joined : first.toNat * 16 / 64 * 64 + first.toNat * 16 % 64 = first.toNat * 16 := by omega
  have aligned : first.toNat * 16 % 16 = 0 := by omega
  have whole : first.toNat * 16 / 16 = first.toNat := by omega
  simp only [encode, decode?, sextet?_sextetChar (show first.toNat * 16 / 64 < 64 by omega),
    sextet?_sextetChar (show first.toNat * 16 % 64 < 64 by omega), bind, Option.bind, joined,
    aligned, whole, if_true, UInt8.ofNat_toNat]

theorem decode?_two (first second : UInt8) :
    decode? (encode [first, second]) = some [first, second] := by
  have firstBound := first.toNat_lt
  have secondBound := second.toNat_lt
  generalize bits_eq : (first.toNat * 256 + second.toNat) * 4 = bits
  have joined : (bits / 4096 * 64 + bits / 64 % 64) * 64 + bits % 64 = bits := by omega
  have firstByte : UInt8.ofNat (bits / 1024) = first := by
    rw [show bits / 1024 = first.toNat by omega, UInt8.ofNat_toNat]
  have secondByte : UInt8.ofNat (bits / 4) = second := by
    apply UInt8.toNat_inj.mp
    rw [UInt8.toNat_ofNat']
    omega
  have padding := sextetChar_ne_padding (show bits % 64 < 64 by omega)
  simp only [encode, bits_eq]
  rw [decode?]
  · simp only [sextet?_sextetChar (show bits / 4096 < 64 by omega),
      sextet?_sextetChar (show bits / 64 % 64 < 64 by omega),
      sextet?_sextetChar (show bits % 64 < 64 by omega), bind, Option.bind, joined, firstByte,
      secondByte, show bits % 4 = 0 by omega, if_true]
  · exact padding

theorem decode?_encode (bytes : List UInt8) : decode? (encode bytes) = some bytes := by
  induction bytes using encode.induct with
  | case1 => rfl
  | case2 first => exact decode?_one first
  | case3 first second => exact decode?_two first second
  | case4 first second third rest induction =>
      have firstBound := first.toNat_lt
      have secondBound := second.toNat_lt
      have thirdBound := third.toNat_lt
      generalize bits_eq : (first.toNat * 256 + second.toNat) * 256 + third.toNat = bits
      have joined : ((bits / 262144 * 64 + bits / 4096 % 64) * 64 + bits / 64 % 64) * 64 +
          bits % 64 = bits := by omega
      have firstByte : UInt8.ofNat (bits / 65536) = first := by
        rw [show bits / 65536 = first.toNat by omega, UInt8.ofNat_toNat]
      have secondByte : UInt8.ofNat (bits / 256) = second := by
        apply UInt8.toNat_inj.mp
        rw [UInt8.toNat_ofNat']
        omega
      have thirdByte : UInt8.ofNat bits = third := by
        apply UInt8.toNat_inj.mp
        rw [UInt8.toNat_ofNat']
        omega
      have padding := sextetChar_ne_padding (show bits % 64 < 64 by omega)
      rw [encode, bits_eq, decode?_group padding, induction]
      simp only [sextet?_sextetChar (show bits / 262144 < 64 by omega),
        sextet?_sextetChar (show bits / 4096 % 64 < 64 by omega),
        sextet?_sextetChar (show bits / 64 % 64 < 64 by omega),
        sextet?_sextetChar (show bits % 64 < 64 by omega), bind, Option.bind, pure, joined,
        firstByte, secondByte, thirdByte]

end Base64

end DocStore
