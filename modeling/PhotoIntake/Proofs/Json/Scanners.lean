import PhotoIntake.Json.Reader
import PhotoIntake.Json.Writer
import PhotoIntake.Proofs.Decimal.Digits

/-!
# Texts and numbers are read back

The scanners take what the writer makes of a text or a number and leave what follows it.  A text
ends at its closing quote; a number ends where nothing follows that could go on with it.

* `quoted?_quote`: a text between quotes, whose characters are all read from their escapes.
* `number?_chars`: a number whose places are digits.
-/

namespace PhotoIntake.Json

/-! ## Spacing -/

/-- The characters may stand between two tokens. -/
def Spacing (s : List Char) : Prop :=
  s.all isSpacing = true

theorem skipSpacing_append {space : List Char} (h : Spacing space) (s : List Char) :
    skipSpacing (space ++ s) = skipSpacing s :=
  List.dropWhile_append_of_pos fun c hc => List.all_eq_true.1 h c hc

theorem skipSpacing_cons {c : Char} (h : isSpacing c = false) (s : List Char) :
    skipSpacing (c :: s) = c :: s :=
  List.dropWhile_cons_of_neg (by simp [h])

/-- Spacing in front of a value makes no difference. -/
theorem value?_append {space : List Char} (h : Spacing space) (fuel : Nat) (s : List Char) :
    value? fuel (space ++ s) = value? fuel s := by
  cases fuel with
  | zero => rfl
  | succ fuel => rw [value?, value?, skipSpacing_append h]

/-! ## Quoted texts -/

/-- The two digits of a control character are read as its number. -/
theorem hexUnit?_control :
    ∀ n, n < 0x20 → hexUnit? '0' '0' (hexDigit (n / 16)) (hexDigit (n % 16)) = some n := by
  decide

theorem ofUnit_control {c : Char} (h : c.toNat < 0x20) : Piece.ofUnit c.toNat = .char c := by
  rw [Piece.ofUnit, if_neg (by omega), if_neg (by omega), Char.ofNat_toNat]

theorem pieces?_plain {c : Char} (hquote : c ≠ '"') (hbackslash : c ≠ '\\')
    (hcontrol : ¬ c.toNat < 0x20) (s : List Char) :
    pieces? (c :: s) = (pieces? s).map fun (pieces, rest) => (.char c :: pieces, rest) := by
  rw [pieces?.eq_def]
  simp only [if_neg hquote, if_neg hbackslash, if_neg hcontrol]
  cases pieces? s <;> rfl

theorem pieces?_letter {e c : Char} (he : e ≠ 'u') (hc : escaped? e = some c) (s : List Char) :
    pieces? ('\\' :: e :: s) = (pieces? s).map fun (pieces, rest) => (.char c :: pieces, rest) := by
  rw [pieces?.eq_def]
  simp only [if_neg (show '\\' ≠ '"' by decide), if_pos, if_neg he, hc]
  cases pieces? s <;> rfl

theorem pieces?_control {c : Char} (hc : c.toNat < 0x20) (s : List Char) :
    pieces? ('\\' :: 'u' :: '0' :: '0' :: hexDigit (c.toNat / 16) :: hexDigit (c.toNat % 16) :: s) =
      (pieces? s).map fun (pieces, rest) => (.char c :: pieces, rest) := by
  rw [pieces?.eq_def]
  simp only [if_neg (show '\\' ≠ '"' by decide), if_pos, hexUnit?_control _ hc]
  cases pieces? s with
  | none => rfl
  | some result => simp only [ofUnit_control hc]; rfl

/-- The form of a character is read as one piece. -/
theorem pieces?_escape (c : Char) (s : List Char) :
    pieces? (escape c ++ s) = (pieces? s).map fun (pieces, rest) => (.char c :: pieces, rest) := by
  unfold escape
  split_ifs with hquote hbackslash hnewline hcarriage htab hbell hfeed hcontrol
  case pos => subst hquote; exact pieces?_letter (by decide) rfl s
  case pos => subst hbackslash; exact pieces?_letter (by decide) rfl s
  case pos => subst hnewline; exact pieces?_letter (by decide) rfl s
  case pos => subst hcarriage; exact pieces?_letter (by decide) rfl s
  case pos => subst htab; exact pieces?_letter (by decide) rfl s
  case pos => subst hbell; exact pieces?_letter (by decide) rfl s
  case pos => subst hfeed; exact pieces?_letter (by decide) rfl s
  case pos => exact pieces?_control hcontrol s
  case neg => exact pieces?_plain hquote hbackslash hcontrol s

theorem pieces?_flatMap_escape (text s : List Char) :
    pieces? (text.flatMap escape ++ '"' :: s) = some (text.map .char, s) := by
  induction text with
  | nil => rw [pieces?.eq_def]; rfl
  | cons c text ih => rw [List.flatMap_cons, List.append_assoc, pieces?_escape, ih]; rfl

theorem joinPieces?_map_char (text : List Char) : joinPieces? (text.map .char) = some text := by
  induction text with
  | nil => rfl
  | cons c text ih => rw [List.map_cons, joinPieces?, ih]; rfl

/-- A text between quotes is read back. -/
theorem quoted?_quote (text : String) (s : List Char) :
    quoted? (text.toList.flatMap escape ++ '"' :: s) = some (.text text, s) := by
  rw [quoted?, pieces?_flatMap_escape, Option.map_some]
  simp only [joinPieces?_map_char, String.ofList_toList]

/-! ## Numbers -/

/-- What follows a number does not go on with it. -/
def EndsNumber (s : List Char) : Prop :=
  ∀ c ∈ s.head?, c.isDigit = false ∧ c ≠ '.' ∧ c ≠ 'e' ∧ c ≠ 'E'

theorem EndsNumber.no_digit {s : List Char} (h : EndsNumber s) :
    ∀ c ∈ s.head?, c.isDigit = false :=
  fun c hc => (h c hc).1

theorem power?_chars (e : Int) {s : List Char} (h : ∀ c ∈ s.head?, c.isDigit = false) :
    power? ((if e < 0 then ['-'] else []) ++ Decimal.digits e.natAbs ++ s) = some (e, s) := by
  have htake := Decimal.takeWhile_isDigit (fun _ => Decimal.isDigit_of_mem_digits (n := e.natAbs)) h
  have hdrop := Decimal.dropWhile_isDigit (fun _ => Decimal.isDigit_of_mem_digits (n := e.natAbs)) h
  have hne : (Decimal.digits e.natAbs).isEmpty = false := by simp [Decimal.digits_ne_nil]
  by_cases hneg : e < 0
  · rw [if_pos hneg, List.cons_append, List.cons_append, List.nil_append, power?]
    simp only [htake, hdrop, hne, Decimal.ofDigitChars_digits]
    simp only [Bool.false_eq_true, if_false, if_true]
    have heq : -(e.natAbs : Int) = e := by omega
    rw [heq]
  · rw [if_neg hneg, List.nil_append, power?]
    · simp only [htake, hdrop, hne, Decimal.ofDigitChars_digits]
      simp only [Bool.false_eq_true, if_false]
      have heq : (e.natAbs : Int) = e := by omega
      rw [heq]
    · exact fun rest => Decimal.digits_append_ne (by decide) _ s rest
    · exact fun rest => Decimal.digits_append_ne (by decide) _ s rest

/-- The form of a power of ten. -/
def exponentChars : Option Int → List Char
  | none => []
  | some e => 'e' :: ((if e < 0 then ['-'] else []) ++ Decimal.digits e.natAbs)

/-- The form of the places after a point. -/
def placeChars (places : List Char) : List Char :=
  if places.isEmpty then [] else '.' :: places

theorem Number.chars_eq (n : Number) :
    n.chars = (if n.negative then ['-'] else []) ++
      (Decimal.digits n.whole ++ (placeChars n.places ++ exponentChars n.exponent)) := by
  rw [← List.append_assoc, ← List.append_assoc]
  obtain ⟨negative, whole, places, _ | e⟩ := n <;> rfl

/-- A power of ten begins with neither a digit nor a point. -/
theorem head?_exponentChars (e : Option Int) {s : List Char} (h : EndsNumber s) :
    ∀ c ∈ (exponentChars e ++ s).head?, c.isDigit = false ∧ c ≠ '.' := by
  intro c hc
  cases e with
  | none => exact ⟨(h c hc).1, (h c hc).2.1⟩
  | some e =>
    obtain rfl : 'e' = c := by simpa [exponentChars] using hc
    decide

/-- Places begin with a point, so that no digit follows the whole part of a number. -/
theorem head?_placeChars (places : List Char) {s : List Char}
    (h : ∀ c ∈ s.head?, c.isDigit = false) :
    ∀ c ∈ (placeChars places ++ s).head?, c.isDigit = false := by
  intro c hc
  by_cases hempty : places.isEmpty
  · rw [placeChars, if_pos hempty] at hc
    exact h c hc
  · rw [placeChars, if_neg hempty] at hc
    obtain rfl : '.' = c := by simpa using hc
    decide

theorem exponent?_chars (e : Option Int) {s : List Char} (h : EndsNumber s) :
    exponent? (exponentChars e ++ s) = some (e, s) := by
  cases e with
  | none =>
    rw [exponentChars, List.nil_append, exponent?]
    · rintro rest rfl
      exact (h 'e' rfl).2.2.1 rfl
    · rintro rest rfl
      exact (h 'E' rfl).2.2.2 rfl
  | some e =>
    rw [exponentChars, List.cons_append, exponent?, power?_chars e h.no_digit]
    rfl

theorem places?_chars {places s : List Char} (hplaces : ∀ c ∈ places, c.isDigit = true)
    (h : ∀ c ∈ s.head?, c.isDigit = false ∧ c ≠ '.') :
    places? (placeChars places ++ s) = some (places, s) := by
  have hdigit : ∀ c ∈ s.head?, c.isDigit = false := fun c hc => (h c hc).1
  by_cases hempty : places.isEmpty
  · rw [placeChars, if_pos hempty, List.nil_append, places?, List.isEmpty_iff.1 hempty]
    rintro rest rfl
    exact (h '.' rfl).2 rfl
  · rw [placeChars, if_neg hempty, List.cons_append, places?]
    simp only [Decimal.takeWhile_isDigit hplaces hdigit, Decimal.dropWhile_isDigit hplaces hdigit,
      if_neg hempty]

theorem unsigned?_chars (n : Number) (hplaces : ∀ c ∈ n.places, c.isDigit = true) {s : List Char}
    (h : EndsNumber s) :
    unsigned? n.negative
      (Decimal.digits n.whole ++ (placeChars n.places ++ (exponentChars n.exponent ++ s))) =
        some (.number n, s) := by
  have hexponent := head?_exponentChars n.exponent h
  have hhead := head?_placeChars n.places fun c hc => (hexponent c hc).1
  have hdigits : ∀ c ∈ Decimal.digits n.whole, c.isDigit = true :=
    fun _ => Decimal.isDigit_of_mem_digits
  unfold unsigned?
  simp only [Decimal.takeWhile_isDigit hdigits hhead, Decimal.dropWhile_isDigit hdigits hhead]
  split
  · next hrun => exact absurd hrun (Decimal.digits_ne_nil n.whole)
  · next hrun =>
    rcases Decimal.digits_cases n.whole with hzero | ⟨c, rest, hcons, -, hne⟩
    · simp [hzero] at hrun
    · rw [hcons] at hrun
      exact absurd (List.cons.inj hrun).1 hne
  · rw [places?_chars hplaces hexponent]
    simp only [Option.bind_eq_bind, Option.bind_some, exponent?_chars n.exponent h,
      Decimal.ofDigitChars_digits]
    rfl

/-- A number whose places are digits is read back. -/
theorem number?_chars (n : Number) (hplaces : ∀ c ∈ n.places, c.isDigit = true) {s : List Char}
    (h : EndsNumber s) : number? (n.chars ++ s) = some (.number n, s) := by
  have hunsigned := unsigned?_chars n hplaces h
  rw [Number.chars_eq, List.append_assoc, List.append_assoc, List.append_assoc]
  cases hnegative : n.negative with
  | true =>
    rw [hnegative] at hunsigned
    rw [if_pos rfl, List.cons_append, List.nil_append, number?, hunsigned]
  | false =>
    rw [hnegative] at hunsigned
    rw [if_neg Bool.false_ne_true, List.nil_append, number?, hunsigned]
    exact fun rest => Decimal.digits_append_ne (by decide) _ _ rest

end PhotoIntake.Json
