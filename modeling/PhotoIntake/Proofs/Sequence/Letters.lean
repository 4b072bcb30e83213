import PhotoIntake.Proofs.Text.Casing
import PhotoIntake.Sequence.Letters
import Mathlib.Data.List.Induction
import Mathlib.Data.List.Shortlex
import Mathlib.Tactic.Common

/-!
# The letters of a number

Letters are digits from one to twenty-six.  Each step takes the last one off, so what is proved of a
number is proved of its quotient first.

* `ofLetters?_letters` and `letters_of_ofLetters?`: numbers and words of capital letters are read
  back from each other, so `letters_injective`.
* `isCapital_of_mem_letters`: all letters are capital letters.
* `shortlex_letters_iff`: numbers are in the order of their words, shorter words first and then by
  the alphabet, so `length_letters_mono`.
* `takesOff_lettersUp`: quotients and remainders of 32 bits give the same letters, and the quotient
  that a `Z` borrows from is never zero.
* `letters_bijective`: all of it for numbers of 32 bits.
-/

namespace PhotoIntake.Sequence

open Text (IsCapital)

/-! ## One letter -/

theorem isCapital_letter (n : Nat) : IsCapital (letter (n % 26 + 1)) := by
  have hall : ∀ r, r < 26 → IsCapital (letter (r + 1)) := by decide
  exact hall _ (Nat.mod_lt n (by decide))

/-- The value of a letter is what it was made of. -/
theorem value_letter (n : Nat) : (letter (n % 26 + 1)).toNat - 'A'.toNat + 1 = n % 26 + 1 := by
  have hall : ∀ r, r < 26 → (letter (r + 1)).toNat - 'A'.toNat + 1 = r + 1 := by decide
  exact hall _ (Nat.mod_lt n (by decide))

/-- A capital letter is the letter of its value. -/
theorem letter_value {c : Char} (h : IsCapital c) : letter (c.toNat - 'A'.toNat + 1) = c := by
  have hle : 'A'.toNat ≤ c.toNat := UInt32.le_iff_toNat_le.1 h.1
  rw [letter, Nat.add_sub_cancel, Nat.add_sub_cancel' hle, Char.ofNat_toNat]

theorem letter_lt {m n : Nat} (h : m % 26 < n % 26) :
    letter (m % 26 + 1) < letter (n % 26 + 1) := by
  have hall : ∀ r, r < 26 → ∀ s, s < r → letter (s + 1) < letter (r + 1) := by decide
  exact hall _ (Nat.mod_lt n (by decide)) _ h

/-! ## All letters -/

@[simp] theorem lettersUp_zero : lettersUp 0 = [] := by
  simp [lettersUp]

/-- A number more than zero ends in a letter, with the letters of the quotient in front. -/
theorem lettersUp_succ (n : Nat) :
    lettersUp (n + 1) = letter (n % 26 + 1) :: lettersUp (n / 26) := by
  rw [lettersUp, dif_neg (Nat.succ_ne_zero n), Nat.add_sub_cancel]

@[simp] theorem letters_zero : letters 0 = "" := by
  rw [letters, lettersUp_zero]
  rfl

/-- The letters of a number more than zero are those of the quotient and one more. -/
theorem toList_letters_succ (n : Nat) :
    (letters (n + 1)).toList = (letters (n / 26)).toList ++ [letter (n % 26 + 1)] := by
  rw [letters, letters, lettersUp_succ, List.reverse_cons, String.toList_ofList,
    String.toList_ofList]

theorem isCapital_of_mem_lettersUp {n : Nat} {c : Char} (h : c ∈ lettersUp n) : IsCapital c := by
  induction n using Nat.strongRecOn with
  | ind n ih =>
    cases n with
    | zero => simp at h
    | succ n =>
      rw [lettersUp_succ] at h
      rcases List.mem_cons.1 h with rfl | h
      · exact isCapital_letter n
      · exact ih (n / 26) (by omega) h

theorem isCapital_of_mem_letters {n : Nat} {c : Char} (h : c ∈ (letters n).toList) :
    IsCapital c := by
  rw [letters, String.toList_ofList, List.mem_reverse] at h
  exact isCapital_of_mem_lettersUp h

/-- A word is read letter by letter, so its last letter is read last. -/
theorem ofLetters?_snoc (value : Nat) (word : List Char) (c : Char) :
    ofLetters? value (word ++ [c]) = (ofLetters? value word).bind fun v => ofLetters? v [c] := by
  induction word generalizing value with
  | nil => rfl
  | cons d rest ih =>
    rw [List.cons_append, ofLetters?, ofLetters?]
    split
    · exact ih _
    · rfl

theorem ofLetters?_cons (value : Nat) (c : Char) (rest : List Char) :
    ofLetters? value (c :: rest) =
      if IsCapital c then ofLetters? (value * 26 + (c.toNat - 'A'.toNat + 1)) rest else none :=
  rfl

theorem ofLetters?_singleton {c : Char} (h : IsCapital c) (value : Nat) :
    ofLetters? value [c] = some (value * 26 + (c.toNat - 'A'.toNat + 1)) := by
  rw [ofLetters?_cons, if_pos h, ofLetters?]

/-- The letters of a number are read back. -/
theorem ofLetters?_letters (n : Nat) : ofLetters? 0 (letters n).toList = some n := by
  induction n using Nat.strongRecOn with
  | ind n ih =>
    cases n with
    | zero => rw [letters_zero, String.toList_empty, ofLetters?]
    | succ n =>
      rw [toList_letters_succ, ofLetters?_snoc, ih (n / 26) (by omega), Option.bind_some,
        ofLetters?_singleton (isCapital_letter n), value_letter]
      congr 1
      omega

theorem letters_injective : Function.Injective letters := by
  intro m n h
  have hread := ofLetters?_letters m
  rw [h, ofLetters?_letters n] at hread
  exact (Option.some.inj hread).symm

/-! ## All words -/

/-- Words of capital letters have a number, and no others have one. -/
theorem isSome_ofLetters?_iff {value : Nat} {word : List Char} :
    (ofLetters? value word).isSome ↔ ∀ c ∈ word, IsCapital c := by
  induction word generalizing value with
  | nil => simp [ofLetters?]
  | cons c rest ih =>
    rw [ofLetters?_cons, List.forall_mem_cons]
    by_cases hcapital : IsCapital c
    · rw [if_pos hcapital, ih]
      exact (and_iff_right hcapital).symm
    · rw [if_neg hcapital]
      simp [hcapital]

/-- A word is what its number is written as. -/
theorem letters_of_ofLetters? {word : List Char} {n : Nat} (h : ofLetters? 0 word = some n) :
    (letters n).toList = word := by
  induction word using List.reverseRecOn generalizing n with
  | nil =>
    obtain rfl : 0 = n := Option.some.inj h
    rw [letters_zero, String.toList_empty]
  | append_singleton front c ih =>
    rw [ofLetters?_snoc] at h
    obtain ⟨quotient, hfront, hlast⟩ := Option.bind_eq_some_iff.1 h
    have hcapital : IsCapital c :=
      isSome_ofLetters?_iff.1 (Option.isSome_of_eq_some hlast) c List.mem_cons_self
    rw [ofLetters?_singleton hcapital] at hlast
    obtain rfl := Option.some.inj hlast
    have hvalue : c.toNat - 'A'.toNat < 26 := by
      have hle : c.toNat ≤ 'Z'.toNat := UInt32.le_iff_toNat_le.1 hcapital.2
      have hlast : 'Z'.toNat = 'A'.toNat + 25 := rfl
      omega
    have hquotient : (quotient * 26 + (c.toNat - 'A'.toNat)) / 26 = quotient := by omega
    have hremainder : (quotient * 26 + (c.toNat - 'A'.toNat)) % 26 = c.toNat - 'A'.toNat := by
      omega
    rw [← Nat.add_assoc, toList_letters_succ, hquotient, hremainder, letter_value hcapital,
      ih hfront]

/-! ## The order of words -/

/-- Words stay in their order when each gets a letter more. -/
theorem shortlex_concat {s t : List Char} (h : List.Shortlex (· < ·) s t) (c d : Char) :
    List.Shortlex (· < ·) (s ++ [c]) (t ++ [d]) := by
  rcases List.shortlex_def.1 h with hlength | ⟨hlength, hlex⟩
  · exact .of_length_lt (by simpa using hlength)
  · refine .of_lex (by simp [hlength]) ?_
    clear h
    induction hlex with
    | nil => simp at hlength
    | cons _ ih => exact .cons (ih (by simpa using hlength))
    | rel hlt => exact .rel hlt

/-- The word of a smaller number comes first.  Where the quotients differ the order is theirs, and
else it is that of the last letters. -/
theorem shortlex_letters {m n : Nat} (h : m < n) :
    List.Shortlex (· < ·) (letters m).toList (letters n).toList := by
  induction n using Nat.strongRecOn generalizing m with
  | ind n ih =>
    obtain ⟨n, rfl⟩ : ∃ k, n = k + 1 := Nat.exists_eq_succ_of_ne_zero (by omega)
    cases m with
    | zero =>
      rw [letters_zero, toList_letters_succ]
      exact .of_length_lt (by simp)
    | succ m =>
      rw [toList_letters_succ, toList_letters_succ]
      by_cases hquotient : m / 26 < n / 26
      · exact shortlex_concat (ih (n / 26) (by omega) hquotient) _ _
      · have hsame : m / 26 = n / 26 := by omega
        have hlast : letter (m % 26 + 1) < letter (n % 26 + 1) := letter_lt (by omega)
        rw [hsame]
        exact ((List.shortlex_singleton_iff _ _).2 hlast).append_left _

theorem shortlex_letters_iff {m n : Nat} :
    List.Shortlex (· < ·) (letters m).toList (letters n).toList ↔ m < n := by
  refine ⟨fun h => ?_, shortlex_letters⟩
  rcases Nat.lt_trichotomy m n with hlt | rfl | hgt
  · exact hlt
  · exact absurd h (Std.Asymm.asymm _ _ h)
  · exact absurd h (Std.Asymm.asymm _ _ (shortlex_letters hgt))

/-- A greater number has at least as many letters. -/
theorem length_letters_mono {m n : Nat} (h : m ≤ n) : (letters m).length ≤ (letters n).length := by
  rcases Nat.eq_or_lt_of_le h with rfl | hlt
  · exact Nat.le_refl _
  · rw [← String.length_toList, ← String.length_toList]
    rcases List.shortlex_def.1 (shortlex_letters hlt) with hlength | ⟨hlength, -⟩
    · exact Nat.le_of_lt hlength
    · exact Nat.le_of_eq hlength

/-! ## Numbers of 32 bits -/

/-- Take the last letter off a number of 32 bits: the letter, and what is left.  A remainder of zero
is a `Z`, for which one is borrowed from the quotient; a quotient of zero has none to borrow. -/
def takeLetter? (num : UInt32) : Option (Char × UInt32) :=
  let quotient := num / 26
  let remainder := num % 26
  if remainder = 0 then
    if quotient = 0 then none else some (letter 26, quotient - 1)
  else some (letter remainder.toNat, quotient)

/-- The letters that are taken off a number until nothing of it is left. -/
inductive TakesOff : UInt32 → List Char → Prop where
  | done : TakesOff 0 []
  | pass {num rest : UInt32} {c : Char} {word : List Char} (hnum : num ≠ 0)
      (htake : takeLetter? num = some (c, rest)) (hrest : TakesOff rest word) :
      TakesOff num (c :: word)

/-- There is always one to borrow, and what is left is the quotient of the number before. -/
theorem takeLetter?_eq {num : UInt32} {n : Nat} (h : num.toNat = n + 1) : ∃ rest : UInt32,
    takeLetter? num = some (letter (n % 26 + 1), rest) ∧ rest.toNat = n / 26 := by
  have hquotient : (num / 26).toNat = num.toNat / 26 := UInt32.toNat_div num 26
  have hremainder : (num % 26).toNat = num.toNat % 26 := UInt32.toNat_mod num 26
  have hzero : num % 26 = 0 ↔ num.toNat % 26 = 0 := by
    rw [← hremainder]
    exact UInt32.toNat_inj.symm
  by_cases hlast : num.toNat % 26 = 0
  · have hletter : n % 26 + 1 = 26 := by omega
    have hone : (1 : UInt32) ≤ num / 26 := by
      rw [UInt32.le_iff_toNat_le, hquotient]
      exact Nat.div_pos (by omega) (by decide)
    have hborrow : num / 26 ≠ 0 := by
      intro h0
      rw [h0] at hone
      exact absurd hone (by decide)
    refine ⟨num / 26 - 1, ?_, ?_⟩
    · rw [takeLetter?, if_pos (hzero.2 hlast), if_neg hborrow, hletter]
    · have hless : (num / 26 - 1).toNat = num.toNat / 26 - 1 := by
        rw [UInt32.toNat_sub_of_le _ _ hone, hquotient]
        rfl
      omega
  · have hletter : n % 26 + 1 = num.toNat % 26 := by omega
    refine ⟨num / 26, ?_, by omega⟩
    rw [takeLetter?, if_neg (mt hzero.1 hlast), hletter, hremainder]

/-- Every number of 32 bits is taken apart into its letters. -/
theorem takesOff_lettersUp (num : UInt32) : TakesOff num (lettersUp num.toNat) := by
  induction hn : num.toNat using Nat.strongRecOn generalizing num with
  | ind n ih =>
    cases n with
    | zero =>
      obtain rfl : num = 0 := UInt32.toNat_inj.1 hn
      rw [lettersUp_zero]
      exact .done
    | succ n =>
      obtain ⟨rest, htake, hrest⟩ := takeLetter?_eq hn
      have hnum : num ≠ 0 := by
        rintro rfl
        exact absurd hn (Nat.succ_ne_zero n).symm
      rw [lettersUp_succ]
      exact .pass hnum htake (ih (n / 26) (by omega) rest hrest)

/-- Taking letters off a number of 32 bits comes to an end, with the letters of the number, the last
one first.  They are capital letters.  Just the words of capital letters are numbers, the first
letter counting most, and a word is that of a number if and only if it is written as that word.
Numbers are in the order of their words: shorter words come first, and words of one length are in
the order of the alphabet. -/
theorem letters_bijective (m n : UInt32) (word : String) :
    TakesOff n (letters n.toNat).toList.reverse ∧
    (∀ c ∈ (letters n.toNat).toList, IsCapital c) ∧
    ((ofLetters? 0 word.toList).isSome ↔ ∀ c ∈ word.toList, IsCapital c) ∧
    (ofLetters? 0 word.toList = some n.toNat ↔ letters n.toNat = word) ∧
    (m < n ↔ List.Shortlex (· < ·) (letters m.toNat).toList (letters n.toNat).toList) := by
  have hreverse : (letters n.toNat).toList.reverse = lettersUp n.toNat := by
    rw [letters, String.toList_ofList, List.reverse_reverse]
  have hword : ofLetters? 0 word.toList = some n.toNat ↔ letters n.toNat = word := by
    constructor
    · exact fun h => String.toList_inj.1 (letters_of_ofLetters? h)
    · rintro rfl
      exact ofLetters?_letters n.toNat
  have horder : m < n ↔ m.toNat < n.toNat := UInt32.lt_iff_toNat_lt
  refine ⟨?_, fun _ => isCapital_of_mem_letters, isSome_ofLetters?_iff, hword, ?_⟩
  · rw [hreverse]
    exact takesOff_lettersUp n
  · rw [horder]
    exact shortlex_letters_iff.symm

end PhotoIntake.Sequence
