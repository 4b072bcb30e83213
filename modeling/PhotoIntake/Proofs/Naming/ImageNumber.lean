import PhotoIntake.Proofs.Naming.RoundTrip
import PhotoIntake.Proofs.Text.Lines
import Mathlib.Data.List.DropRight

/-!
# The number at the end of a file name

Cameras number their files, and a field shows the digits that end a name: all of them, or the last
few.  They can be found in two ways.  One goes back through the characters for as long as they are
digits.  The other one looks in the bytes, from the first one on, for an offset behind which there
are digits and nothing else; it cuts the text there, and of what it finds it cuts off the last bytes
by their number.  An ASCII digit is one byte, and no other character has such a byte, so no cut
splits a character and both ways lead to the same digits.

* `Decimal.isLastRun_iff`: the digits that end a text are the longest such run.
* `firstMatch?_append`: the first offset that matches is the one behind the last byte of no digit.
* `sliceFrom?_eq_some_iff`: a text is cut where characters end.
* `sliced?_eq`: what is cut from the bytes is what is found in the characters.
* `render_image_number`: all of it for the fields.
-/

namespace PhotoIntake

/-! ## The longest run -/

namespace Decimal

/-- The run is the longest one of ASCII digits that ends the text. -/
structure IsLastRun (s run : List Char) : Prop where
  suffix : run <:+ s
  isDigit : ∀ c ∈ run, c.isDigit = true
  longest : ∀ other, other <:+ s → (∀ c ∈ other, c.isDigit = true) → other.length ≤ run.length

variable {s run : List Char}

theorem trailingDigits_suffix (s : List Char) : trailingDigits s <:+ s :=
  List.rtakeWhile_suffix _ s

theorem isDigit_of_mem_trailingDigits {c : Char} (h : c ∈ trailingDigits s) : c.isDigit = true :=
  List.mem_rtakeWhile_imp (l := s) h

/-- Digits at the end of a text are digits at the end of its last run. -/
theorem suffix_trailingDigits (h : run <:+ s) (hrun : ∀ c ∈ run, c.isDigit = true) :
    run <:+ trailingDigits s := by
  obtain ⟨front, rfl⟩ := h
  have hback : ∀ c ∈ run.reverse, c.isDigit = true := fun c hc => hrun c (List.mem_reverse.1 hc)
  rw [trailingDigits, List.reverse_append, List.takeWhile_append_of_pos hback, List.reverse_append,
    List.reverse_reverse]
  exact List.suffix_append _ run

/-- A text has one longest run at its end. -/
theorem isLastRun_iff : IsLastRun s run ↔ run = trailingDigits s := by
  constructor
  · rintro ⟨hsuffix, hdigit, hlongest⟩
    exact (suffix_trailingDigits hsuffix hdigit).eq_of_length_le
      (hlongest _ (trailingDigits_suffix s) fun _ => isDigit_of_mem_trailingDigits)
  · rintro rfl
    exact ⟨trailingDigits_suffix s, fun _ => isDigit_of_mem_trailingDigits,
      fun _ hsuffix hdigit => (suffix_trailingDigits hsuffix hdigit).length_le⟩

/-- In front of the last run there is no digit. -/
theorem exists_trailingDigits (s : List Char) :
    ∃ front, s = front ++ trailingDigits s ∧ ∀ c ∈ front.getLast?, c.isDigit = false := by
  refine ⟨s.rdropWhile Char.isDigit, List.rdropWhile_append_rtakeWhile.symm, fun c hc => ?_⟩
  have hstop := List.head?_dropWhile_not Char.isDigit s.reverse
  rw [List.rdropWhile, List.getLast?_reverse, Option.mem_def] at hc
  rwa [hc] at hstop

end Decimal

/-! ## The first match in the bytes -/

namespace Text

/-- The byte is that of an ASCII digit. -/
def isDigitByte (b : UInt8) : Bool :=
  48 ≤ b && b ≤ 57

/-- The first offset behind which there is a digit and nothing but digits up to the end, which is
where the expression `[0-9]+$` matches. -/
def firstMatch? (bytes : List UInt8) : Option Nat :=
  (List.range bytes.length).find? fun start => (bytes.drop start).all isDigitByte

/-- The text behind an offset, if it is within the text and does not split a character. -/
def sliceFrom? (s : String) (offset : Nat) : Option String :=
  if offset ≤ (bytes s).length then ofBytes? ((bytes s).drop offset) else none

/-- The text from its first match on; without a match it is empty. -/
def matched? (s : String) : Option String :=
  match firstMatch? (bytes s) with
  | some start => sliceFrom? s start
  | none => some ""

/-- The last bytes of a text that has more of them, and any other text as it is. -/
def lastBytes? (n : Nat) (s : String) : Option String :=
  if n < (bytes s).length then sliceFrom? s ((bytes s).length - n) else some s

/-- The match at the end of a text, or the last bytes of it. -/
def sliced? (s : String) (limit : Option Nat) : Option String :=
  (matched? s).bind fun run =>
    match limit with
    | some n => lastBytes? n run
    | none => some run

theorem bytes_ofList (s : List Char) :
    bytes (String.ofList s) = s.flatMap String.utf8EncodeChar := by
  rw [bytes_eq, String.toList_ofList]

theorem isDigitByte_iff {b : UInt8} : isDigitByte b = true ↔ 48 ≤ b.toNat ∧ b.toNat ≤ 57 := by
  simp [isDigitByte, UInt8.le_iff_toNat_le]

/-- The byte of a digit is no part of another character. -/
theorem isDigit_of_mem_utf8EncodeChar {c : Char} {b : UInt8} (h : b ∈ String.utf8EncodeChar c)
    (hb : isDigitByte b = true) : c.isDigit = true := by
  rw [isDigitByte_iff] at hb
  rw [Char.isDigit_iff_toNat, toNat_eq_of_mem_utf8EncodeChar h (by omega)]
  exact hb

/-- A digit is one byte. -/
theorem utf8EncodeChar_of_isDigit {c : Char} (h : c.isDigit = true) :
    ∃ b, isDigitByte b = true ∧ String.utf8EncodeChar c = [b] := by
  have hrange : 48 ≤ c.toNat ∧ c.toNat ≤ 57 := Char.isDigit_iff_toNat.1 h
  have hone : c.toNat ≤ 127 := by omega
  refine ⟨UInt8.ofNat c.toNat, ?_, by simp [String.utf8EncodeChar, hone]⟩
  rwa [isDigitByte_iff, UInt8.toNat_ofNat_of_lt' (show c.toNat < 256 by omega)]

variable {run front : List Char}

/-- A run of digits has a byte for each of them. -/
theorem length_bytes_digits (h : ∀ c ∈ run, c.isDigit = true) :
    (bytes (String.ofList run)).length = run.length := by
  rw [bytes_ofList]
  induction run with
  | nil => rfl
  | cons c run ih =>
    obtain ⟨b, -, hc⟩ := utf8EncodeChar_of_isDigit (h c List.mem_cons_self)
    rw [List.flatMap_cons, hc, List.singleton_append, List.length_cons, List.length_cons,
      ih fun d hd => h d (List.mem_cons_of_mem c hd)]

theorem isDigitByte_of_mem_bytes (h : ∀ c ∈ run, c.isDigit = true) :
    ∀ b ∈ bytes (String.ofList run), isDigitByte b = true := by
  intro b hb
  rw [bytes_ofList, List.mem_flatMap] at hb
  obtain ⟨c, hc, hb⟩ := hb
  obtain ⟨d, hd, hone⟩ := utf8EncodeChar_of_isDigit (h c hc)
  rw [hone, List.mem_singleton] at hb
  rwa [hb]

/-- Behind a character that is no digit there is no byte of one. -/
theorem isDigitByte_getLast?_bytes (h : ∀ c ∈ front.getLast?, c.isDigit = false) :
    ∀ b ∈ (bytes (String.ofList front)).getLast?, isDigitByte b = false := by
  intro b hb
  rw [bytes_ofList] at hb
  cases hlast : front.getLast? with
  | none =>
    rw [List.getLast?_eq_none_iff.1 hlast] at hb
    cases hb
  | some c =>
    obtain ⟨init, rfl⟩ := List.getLast?_eq_some_iff.1 hlast
    rw [List.flatMap_append, List.flatMap_singleton,
      List.getLast?_append_of_ne_nil _ String.utf8EncodeChar_ne_nil] at hb
    by_contra hdigit
    have hc := isDigit_of_mem_utf8EncodeChar (List.mem_of_mem_getLast? hb) (by simpa using hdigit)
    rw [h c hlast] at hc
    cases hc

/-- The first offset that matches is the one behind the last byte of no digit. -/
theorem firstMatch?_append {before behind : List UInt8}
    (hbehind : ∀ b ∈ behind, isDigitByte b = true)
    (hbefore : ∀ b ∈ before.getLast?, isDigitByte b = false) :
    firstMatch? (before ++ behind) = if behind = [] then none else some before.length := by
  -- Behind an earlier offset there is also the last byte in front, which is no digit.
  have hearlier : ∀ start < before.length,
      (!((before ++ behind).drop start).all isDigitByte) = true := by
    intro start hstart
    rw [List.drop_append_of_le_length (by omega), List.all_append]
    have hlast : (before.drop start).getLast? = before.getLast? := by
      rw [List.getLast?_drop, if_neg (by omega)]
    have hne : before ≠ [] := List.ne_nil_of_length_pos (by omega)
    have hmem : before.getLast hne ∈ before.drop start :=
      List.mem_of_mem_getLast? (hlast ▸ List.getLast?_eq_some_getLast hne)
    have hnone := hbefore _ (List.getLast?_eq_some_getLast hne)
    simp only [Bool.not_and, Bool.or_eq_true, Bool.not_eq_true', List.all_eq_false]
    exact Or.inl ⟨_, hmem, by simp [hnone]⟩
  unfold firstMatch?
  split_ifs with hempty
  · subst hempty
    rw [List.find?_range_eq_none]
    exact fun start hstart => hearlier start (by simpa using hstart)
  · rw [List.find?_range_eq_some]
    refine ⟨?_, ?_, hearlier⟩
    · rw [List.drop_left]
      exact List.all_eq_true.2 hbehind
    · have hpos := List.length_pos_iff.2 hempty
      rw [List.mem_range, List.length_append]
      omega

/-- A text is cut where characters end, and nowhere else. -/
theorem sliceFrom?_eq_some_iff {s t : String} {offset : Nat} :
    sliceFrom? s offset = some t ↔
      ∃ front : String, s = front ++ t ∧ (bytes front).length = offset := by
  constructor
  · intro h
    rw [sliceFrom?] at h
    split_ifs at h with hle
    have hextract : s.toByteArray.extract offset s.utf8ByteSize = t.toByteArray := by
      refine ByteArray.ext (Array.toList_inj.1 ?_)
      rw [ByteArray.data_extract, ← length_bytes, Array.toList_extract, List.extract_eq_take_drop]
      exact (List.take_of_length_le List.length_drop.le).trans (bytes_of_ofBytes? h).symm
    have hvalid : String.Pos.Raw.IsValid s ⟨offset⟩ := by
      refine String.Pos.Raw.isValid_iff_isValidUTF8_extract_utf8ByteSize.2 ⟨?_, ?_⟩
      · rw [length_bytes] at hle
        exact String.Pos.Raw.le_iff.2 hle
      · exact hextract ▸ t.isValidUTF8
    obtain ⟨front, behind, rfl, hoffset⟩ := String.Pos.Raw.isValid_iff_exists_append.1 hvalid
    have hfront : (bytes front).length = offset := by
      rw [length_bytes]
      exact (congrArg String.Pos.Raw.byteIdx hoffset).symm
    rw [bytes_append, List.drop_left' hfront, ofBytes?_bytes] at h
    exact ⟨front, by rw [Option.some.inj h], hfront⟩
  · rintro ⟨front, rfl, rfl⟩
    rw [sliceFrom?, bytes_append, if_pos (by simp), List.drop_left, ofBytes?_bytes]

theorem sliceFrom?_append (front run : List Char) :
    sliceFrom? (String.ofList (front ++ run)) (bytes (String.ofList front)).length =
      some (String.ofList run) :=
  sliceFrom?_eq_some_iff.2 ⟨String.ofList front, String.ofList_append, rfl⟩
/-- The match of a text is its last run of digits. -/
theorem matched?_eq (s : String) :
    matched? s = some (String.ofList (Decimal.trailingDigits s.toList)) := by
  obtain ⟨front, hs, hfront⟩ := Decimal.exists_trailingDigits s.toList
  have hdigits : ∀ c ∈ Decimal.trailingDigits s.toList, c.isDigit = true :=
    fun _ => Decimal.isDigit_of_mem_trailingDigits
  have htext : s = String.ofList (front ++ Decimal.trailingDigits s.toList) := by
    rw [← hs, String.ofList_toList]
  have hbytes : bytes s = bytes (String.ofList front) ++
      bytes (String.ofList (Decimal.trailingDigits s.toList)) := by
    rw [← bytes_append, ← String.ofList_append, ← htext]
  have hmatch := firstMatch?_append (isDigitByte_of_mem_bytes hdigits)
    (isDigitByte_getLast?_bytes hfront)
  rw [← hbytes] at hmatch
  rw [matched?, hmatch]
  split_ifs with hempty
  · have hnone := length_bytes_digits hdigits
    rw [hempty, List.length_nil, eq_comm, List.length_eq_zero_iff] at hnone
    rw [hnone]
  · have hslice := sliceFrom?_append front (Decimal.trailingDigits s.toList)
    rwa [← htext] at hslice

/-- The last bytes of digits are the last digits. -/
theorem lastBytes?_digits (n : Nat) (h : ∀ c ∈ run, c.isDigit = true) :
    lastBytes? n (String.ofList run) = some (String.ofList (run.drop (run.length - n))) := by
  rw [lastBytes?, length_bytes_digits h]
  split_ifs with hn
  · have hslice := sliceFrom?_append (run.take (run.length - n)) (run.drop (run.length - n))
    have hfront : ∀ c ∈ run.take (run.length - n), c.isDigit = true :=
      fun c hc => h c (List.mem_of_mem_take hc)
    rwa [List.take_append_drop, length_bytes_digits hfront, List.length_take,
      Nat.min_eq_left (Nat.sub_le _ _)] at hslice
  · rw [Nat.sub_eq_zero_of_le (by omega), List.drop_zero]

/-- What is cut from the bytes is what is found in the characters. -/
theorem sliced?_eq (s : String) (count : Naming.DigitCount) :
    sliced? s count.limit? =
      some (String.ofList (count.choose (Decimal.trailingDigits s.toList))) := by
  rw [sliced?, matched?_eq, Option.bind_some, Naming.DigitCount.choose]
  cases count.limit? with
  | none => rfl
  | some n => exact lastBytes?_digits n fun _ => Decimal.isDigit_of_mem_trailingDigits

end Text

/-! ## The fields -/

namespace Naming

namespace DigitCount

theorem choose_suffix (count : DigitCount) (run : List Char) : count.choose run <:+ run := by
  unfold choose
  split
  · exact List.drop_suffix _ run
  · exact List.suffix_refl run

theorem length_choose {count : DigitCount} {n : Nat} (h : count.limit? = some n)
    (run : List Char) : (count.choose run).length = min n run.length := by
  rw [choose, h, List.length_drop]
  omega

end DigitCount

/-- The title of the field for the number of an image. -/
def imageNumberTitle (count : DigitCount) : String :=
  "Image number (" ++ count.title ++ ")"

theorem render_imageNumberTitle (o : Occasion) (count : DigitCount) :
    (Token.ofTitle (imageNumberTitle count)).render o =
      String.ofList (count.choose (Decimal.trailingDigits o.image.stem.toList)) := by
  have htitle : imageNumberTitle count = (Field.imageNumber count).title := by
    cases count <;> rfl
  rw [htitle, Token.ofTitle, Field.ofTitle?_title]
  rfl

/-- The field for all digits writes the longest run of ASCII digits that ends the name of the image
before its extension, whatever else is in the name.  The field for the last digits writes the end of
this run, as many digits as it says or as there are.  Either is what is cut from the bytes of the
name, which never fails, and the name ends with it. -/
theorem render_image_number (o : Occasion) :
    let stem := o.image.stem
    let shown (count : DigitCount) := (Token.ofTitle (imageNumberTitle count)).render o
    Decimal.IsLastRun stem.toList (shown .all).toList ∧
    (∀ count n, count.limit? = some n →
      (shown count).toList <:+ (shown .all).toList ∧
        (shown count).length = min n (shown .all).length) ∧
    ∀ count, Text.sliced? stem count.limit? = some (shown count) ∧
      (shown count).toList <:+ stem.toList := by
  intro stem shown
  have hshown (count : DigitCount) : (shown count).toList =
      count.choose (Decimal.trailingDigits stem.toList) := by
    rw [show shown count = _ from render_imageNumberTitle o count, String.toList_ofList]
  have hall : (shown .all).toList = Decimal.trailingDigits stem.toList := hshown .all
  refine ⟨Decimal.isLastRun_iff.2 hall, fun count n hn => ?_, fun count => ⟨?_, ?_⟩⟩
  · rw [← String.length_toList, ← String.length_toList, hall, hshown]
    exact ⟨count.choose_suffix _, DigitCount.length_choose hn _⟩
  · rw [Text.sliced?_eq, ← hshown, String.ofList_toList]
  · rw [hshown]
    exact (count.choose_suffix _).trans (Decimal.trailingDigits_suffix _)

/-- A line break and a digit of another script in front of the number. -/
theorem render_image_number_sample :
    let o : Occasion := ⟨Image.ofName "12\n٣0042.jpg" "card/12\n٣0042.jpg", .first, .epoch⟩
    let shown (count : DigitCount) := (Token.ofTitle (imageNumberTitle count)).render o
    DigitCount.limit? .lastTwo = some 2 ∧ shown .all = "0042" ∧ shown .lastTwo = "42" ∧
      (shown .lastTwo).length = min 2 (shown .all).length ∧
      Text.sliced? "12\n٣0042" (some 2) = some (shown .lastTwo) := by
  intro o shown
  have hstem : o.image.stem = "12\n٣0042" := by decide +kernel
  obtain ⟨-, hlast, hsliced⟩ := render_image_number o
  have hcut := (hsliced .lastTwo).1
  rw [hstem] at hcut
  exact ⟨rfl, by decide +kernel, by decide +kernel, (hlast .lastTwo 2 rfl).2, hcut⟩

end Naming

end PhotoIntake
