import PhotoIntake.Text.Base64
import Mathlib.Tactic.Common

/-!
# Bytes are read back from base 64

Three bytes make four digits and back.  One or two bytes at the end make two or three digits whose
last bits are zero, and equals signs, which no digit is.

* `decode?_encode`: any list of bytes is read back from its text.
* `encode_of_decode?`: what bytes are read from is their text, so `decode?_eq_some_iff`.
* `not_mem_encode`: the characters of a text.
-/

namespace PhotoIntake.Text.Base64

theorem value?_digit : ∀ n, n < 64 → value? (digit n) = some n := by
  decide +kernel

theorem digit_ne : ∀ n, n < 64 → digit n ≠ '=' := by
  decide +kernel

/-- Four digits, none of them an equals sign, are three bytes, and the rest follows. -/
theorem decode?_four {a b c d : Nat} (ha : a < 64) (hb : b < 64) (hc : c < 64) (hd : d < 64)
    (rest : List Char) :
    decode? (digit a :: digit b :: digit c :: digit d :: rest) =
      (decode? rest).map fun bytes =>
        let n := ((a * 64 + b) * 64 + c) * 64 + d
        UInt8.ofNat (n / 65536) :: UInt8.ofNat (n / 256) :: UInt8.ofNat n :: bytes := by
  rw [decode?]
  · simp only [value?_digit, ha, hb, hc, hd, Option.bind_eq_bind, Option.bind_some]
    cases decode? rest <;> rfl
  · exact fun _ hfour _ => digit_ne d hd hfour
  · exact fun hfour _ => digit_ne d hd hfour

/-- Three digits and an equals sign are two bytes, if the last two bits are zero. -/
theorem decode?_three {a b c : Nat} (ha : a < 64) (hb : b < 64) (hc : c < 64)
    (hzero : ((a * 64 + b) * 64 + c) % 4 = 0) :
    decode? [digit a, digit b, digit c, '='] =
      let n := (a * 64 + b) * 64 + c
      some [UInt8.ofNat (n / 1024), UInt8.ofNat (n / 4)] := by
  rw [decode?]
  · simp only [value?_digit, ha, hb, hc, Option.bind_eq_bind, Option.bind_some, hzero, if_true]
  · exact digit_ne c hc

/-- Two digits and two equals signs are one byte, if the last four bits are zero. -/
theorem decode?_two {a b : Nat} (ha : a < 64) (hb : b < 64) (hzero : (a * 64 + b) % 16 = 0) :
    decode? [digit a, digit b, '=', '='] = some [UInt8.ofNat ((a * 64 + b) / 16)] := by
  rw [decode?]
  simp only [value?_digit, ha, hb, Option.bind_eq_bind, Option.bind_some, hzero, if_true]

theorem ofNat_eq_of_mod {n : Nat} {b : UInt8} (h : n % 256 = b.toNat) : UInt8.ofNat n = b := by
  rw [← UInt8.toNat_inj, UInt8.toNat_ofNat', h]

/-- The bytes of a text are read back. -/
theorem decode?_encode (bytes : List UInt8) : decode? (encode bytes) = some bytes := by
  fun_induction encode bytes with
  | case1 a b c rest n ih =>
    have ha := a.toNat_lt
    have hb := b.toNat_lt
    have hc := c.toNat_lt
    rw [decode?_four (by omega) (by omega) (by omega) (by omega), ih, Option.map_some]
    have hn : ((n / 262144 * 64 + n / 4096 % 64) * 64 + n / 64 % 64) * 64 + n % 64 = n := by omega
    simp only [hn]
    rw [ofNat_eq_of_mod (b := a) (by omega), ofNat_eq_of_mod (b := b) (by omega),
      ofNat_eq_of_mod (b := c) (by omega)]
  | case2 a b n =>
    have ha := a.toNat_lt
    have hb := b.toNat_lt
    have hn : (n / 4096 * 64 + n / 64 % 64) * 64 + n % 64 = n := by omega
    rw [decode?_three (by omega) (by omega) (by omega) (by omega)]
    simp only [hn]
    rw [ofNat_eq_of_mod (b := a) (by omega), ofNat_eq_of_mod (b := b) (by omega)]
  | case3 a n =>
    have ha := a.toNat_lt
    have hn : n / 64 * 64 + n % 64 = n := by omega
    rw [decode?_two (by omega) (by omega) (by omega), hn, ofNat_eq_of_mod (b := a) (by omega)]
  | case4 => rfl

/-! ## Each list of bytes has one text -/

theorem digit_mem_alphabet (n : Nat) : digit n ∈ alphabet := by
  rw [digit, List.getD_eq_getElem?_getD]
  cases hget : alphabet[n]? with
  | none => decide
  | some c => exact List.mem_of_getElem? hget

/-- A digit is the digit of its value. -/
theorem digit_of_value? {c : Char} {n : Nat} (h : value? c = some n) : n < 64 ∧ digit n = c := by
  have hindex : alphabet.findIdx? (· == c) = some n := h
  obtain ⟨hlt, hget, -⟩ := List.findIdx?_eq_some_iff_getElem.1 hindex
  refine ⟨hlt, ?_⟩
  rw [digit, List.getD_eq_getElem?_getD, List.getElem?_eq_getElem hlt, Option.getD_some]
  exact eq_of_beq hget

/-- Three bytes of a number have its four digits. -/
theorem encode_three {n : Nat} (h : n < 16777216) (bytes : List UInt8) :
    encode (UInt8.ofNat (n / 65536) :: UInt8.ofNat (n / 256) :: UInt8.ofNat n :: bytes) =
      digit (n / 262144) :: digit (n / 4096 % 64) :: digit (n / 64 % 64) :: digit (n % 64) ::
        encode bytes := by
  have hbytes : ((UInt8.ofNat (n / 65536)).toNat * 256 + (UInt8.ofNat (n / 256)).toNat) * 256 +
      (UInt8.ofNat n).toNat = n := by
    simp only [UInt8.toNat_ofNat']
    omega
  simp only [encode, hbytes]

/-- Two bytes of a number with two zero bits have its three digits. -/
theorem encode_two {n : Nat} (h : n < 262144) (hzero : n % 4 = 0) :
    encode [UInt8.ofNat (n / 1024), UInt8.ofNat (n / 4)] =
      [digit (n / 4096), digit (n / 64 % 64), digit (n % 64), '='] := by
  have hbytes : ((UInt8.ofNat (n / 1024)).toNat * 256 + (UInt8.ofNat (n / 4)).toNat) * 4 = n := by
    simp only [UInt8.toNat_ofNat']
    omega
  simp only [encode, hbytes]

/-- A byte of a number with four zero bits has its two digits. -/
theorem encode_one {n : Nat} (h : n < 4096) (hzero : n % 16 = 0) :
    encode [UInt8.ofNat (n / 16)] = [digit (n / 64), digit (n % 64), '=', '='] := by
  have hbyte : (UInt8.ofNat (n / 16)).toNat * 16 = n := by
    rw [UInt8.toNat_ofNat']
    omega
  simp only [encode, hbyte]

/-- A text is that of the bytes that are read from it. -/
theorem encode_of_decode? {s : List Char} {bytes : List UInt8} (h : decode? s = some bytes) :
    encode bytes = s := by
  fun_induction decode? s generalizing bytes with
  | case1 =>
    obtain rfl := Option.some.inj h
    rfl
  | case2 a b =>
    simp only [Option.bind_eq_bind, Option.bind_eq_some_iff, Option.ite_none_right_eq_some,
      Option.some.injEq] at h
    obtain ⟨x, hx, y, hy, hzero, rfl⟩ := h
    obtain ⟨hx, rfl⟩ := digit_of_value? hx
    obtain ⟨hy, rfl⟩ := digit_of_value? hy
    have hfirst : (x * 64 + y) / 64 = x := by omega
    have hsecond : (x * 64 + y) % 64 = y := by omega
    rw [encode_one (by omega) hzero, hfirst, hsecond]
  | case3 a b c hne =>
    simp only [Option.bind_eq_bind, Option.bind_eq_some_iff, Option.ite_none_right_eq_some,
      Option.some.injEq] at h
    obtain ⟨x, hx, y, hy, z, hz, hzero, rfl⟩ := h
    obtain ⟨hx, rfl⟩ := digit_of_value? hx
    obtain ⟨hy, rfl⟩ := digit_of_value? hy
    obtain ⟨hz, rfl⟩ := digit_of_value? hz
    have hfirst : ((x * 64 + y) * 64 + z) / 4096 = x := by omega
    have hsecond : ((x * 64 + y) * 64 + z) / 64 % 64 = y := by omega
    have hthird : ((x * 64 + y) * 64 + z) % 64 = z := by omega
    rw [encode_two (by omega) hzero, hfirst, hsecond, hthird]
  | case4 a b c d rest _ _ ih =>
    simp only [Option.bind_eq_bind, Option.bind_eq_some_iff, Option.pure_def,
      Option.some.injEq] at h
    obtain ⟨x, hx, y, hy, z, hz, w, hw, others, hothers, rfl⟩ := h
    obtain ⟨hx, rfl⟩ := digit_of_value? hx
    obtain ⟨hy, rfl⟩ := digit_of_value? hy
    obtain ⟨hz, rfl⟩ := digit_of_value? hz
    obtain ⟨hw, rfl⟩ := digit_of_value? hw
    have hfirst : (((x * 64 + y) * 64 + z) * 64 + w) / 262144 = x := by omega
    have hsecond : (((x * 64 + y) * 64 + z) * 64 + w) / 4096 % 64 = y := by omega
    have hthird : (((x * 64 + y) * 64 + z) * 64 + w) / 64 % 64 = z := by omega
    have hfourth : (((x * 64 + y) * 64 + z) * 64 + w) % 64 = w := by omega
    rw [encode_three (by omega), hfirst, hsecond, hthird, hfourth, ih hothers]
  | case5 => exact nomatch h

/-- Bytes are read from their text and from no other. -/
theorem decode?_eq_some_iff {s : List Char} {bytes : List UInt8} :
    decode? s = some bytes ↔ s = encode bytes :=
  ⟨fun h => (encode_of_decode? h).symm, fun h => h ▸ decode?_encode bytes⟩

/-- A text has digits and equals signs only. -/
theorem not_mem_encode {c : Char} (hdigit : c ∉ alphabet) (hpad : c ≠ '=') (bytes : List UInt8) :
    c ∉ encode bytes := by
  have hne (n : Nat) : c ≠ digit n := fun h => hdigit (h ▸ digit_mem_alphabet n)
  fun_induction encode bytes with
  | case1 a b c' rest n ih => simp [hne, ih]
  | case2 a b n => simp [hne, hpad]
  | case3 a n => simp [hne, hpad]
  | case4 => exact List.not_mem_nil

end PhotoIntake.Text.Base64
