import PhotoIntake.Proofs.Sequence.Saving

/-!
# Counters in words

The counters are words of 32 bits.  Behind the last word they go on with zero, so after enough
images they are the same again.

* `word`: what is left of a number in a word.
* `Sequences.incrementWord`: one image more in words, the same as in numbers where those fit.
* `Durable.CountedSince`: counters that come from others by counting images on the days that begin
  meanwhile; `CountedSince.eq_iff` says when they are the same.
-/

namespace PhotoIntake

open Calendar (Date)
open Decimal (wordBound)

namespace Sequence

/-! ## Words -/

/-- What is left of a number in a word of 32 bits. -/
def word (n : Nat) : Nat :=
  (UInt32.ofNat n).toNat

theorem word_eq (n : Nat) : word n = n % wordBound 32 :=
  UInt32.toNat_ofNat'

theorem word_lt (n : Nat) : word n < wordBound 32 :=
  (UInt32.ofNat n).toNat_lt

theorem word_of_lt {n : Nat} (h : n < wordBound 32) : word n = n := by
  rw [word_eq, Nat.mod_eq_of_lt h]

/-- Words can be added before or after they are cut. -/
@[simp] theorem word_word_add (m n : Nat) : word (word m + n) = word (m + n) := by
  rw [word_eq, word_eq, word_eq, Nat.mod_add_mod]

/-- A word is back where it was after a multiple of their number. -/
theorem word_add_eq_iff {m n : Nat} (h : m < wordBound 32) :
    word (m + n) = m ↔ wordBound 32 ∣ n := by
  have hbound : wordBound 32 = 4294967296 := rfl
  rw [word_eq, hbound]
  omega

namespace Durable

/-- The counters, each in a word. -/
def toWords (d : Durable) : Durable :=
  ⟨{ d.daily with count := word d.daily.count }, word d.storedNumber⟩

theorem inWords_toWords (d : Durable) : d.toWords.InWords :=
  ⟨word_lt _, word_lt _⟩

theorem toWords_of_inWords {d : Durable} (h : d.InWords) : d.toWords = d := by
  rw [toWords, word_of_lt h.1, word_of_lt h.2]

/-! ## Counting in words -/

/-- These counters come from earlier ones by counting some images: the stored number went on by
them, and so did the count of the day, unless a later day has begun. -/
structure CountedSince (d d' : Durable) (images : Nat) : Prop where
  stored : d.storedNumber = word (d'.storedNumber + images)
  daily : d'.daily.date < d.daily.date ∨
    d.daily.date = d'.daily.date ∧ d.daily.count = word (d'.daily.count + images)

namespace CountedSince

variable {d d' d'' : Durable} {today : Date} {images more : Nat}

theorem refl (h : d.InWords) : d.CountedSince d 0 :=
  ⟨(word_of_lt h.2).symm, Or.inr ⟨rfl, (word_of_lt h.1).symm⟩⟩

theorem trans (h : d.CountedSince d' more) (h' : d'.CountedSince d'' images) :
    d.CountedSince d'' (images + more) where
  stored := by rw [h.stored, h'.stored, word_word_add, Nat.add_assoc]
  daily := by
    rcases h.daily with hlater | ⟨hsame, hcount⟩
    · rcases h'.daily with hlater' | ⟨hsame', -⟩
      · exact Or.inl (Date.lt_trans hlater' hlater)
      · exact Or.inl (hsame' ▸ hlater)
    · rcases h'.daily with hlater' | ⟨hsame', hcount'⟩
      · exact Or.inl (hsame ▸ hlater')
      · refine Or.inr ⟨hsame.trans hsame', ?_⟩
        rw [hcount, hcount', word_word_add, Nat.add_assoc]

/-- A look at the count of the day counts nothing. -/
theorem on (h : d.InWords) (today : Date) : (d.on today).CountedSince d 0 := by
  rcases d.daily.on_cases today with hsame | ⟨hlater, hon⟩
  · have hd : d.on today = d := by rw [Durable.on, hsame]
    rw [hd]
    exact refl h
  · refine ⟨(word_of_lt h.2).symm, Or.inl ?_⟩
    rw [Durable.on, hon]
    exact hlater

theorem increment (d : Durable) (today : Date) :
    CountedSince (toWords ⟨d.daily.increment today, d.storedNumber + 1⟩) d 1 := by
  refine ⟨rfl, ?_⟩
  show d.daily.date < (d.daily.on today).date ∨ (d.daily.on today).date = d.daily.date ∧
    word ((d.daily.on today).count + 1) = word (d.daily.count + 1)
  rcases d.daily.on_cases today with hsame | ⟨hlater, hon⟩
  · exact Or.inr (by rw [hsame]; exact ⟨rfl, rfl⟩)
  · exact Or.inl (by rwa [hon])

/-- The counters are the same again if no later day has begun and the images come to a multiple of
the number of words. -/
theorem eq_iff (h : d.CountedSince d' images) (hwords : d'.InWords) :
    d = d' ↔ ¬ d'.daily.date < d.daily.date ∧ wordBound 32 ∣ images := by
  constructor
  · rintro rfl
    exact ⟨Date.lt_irrefl _, (word_add_eq_iff hwords.2).1 h.stored.symm⟩
  · rintro ⟨hnot, hmultiple⟩
    obtain ⟨hdate, hcount⟩ := h.daily.resolve_left hnot
    rw [(word_add_eq_iff hwords.1).2 hmultiple] at hcount
    have hstored := h.stored
    rw [(word_add_eq_iff hwords.2).2 hmultiple] at hstored
    obtain ⟨⟨date, count⟩, stored⟩ := d
    obtain ⟨⟨date', count'⟩, stored'⟩ := d'
    simp_all

end CountedSince

end Durable

end Sequence

namespace Sequences

open Sequence

variable {s : Sequences} {t : FileTree} {today : Date}

/-- One image more on every counter, where the counters are words. -/
def incrementWord (s : Sequences) (t : FileTree) (today : Date) : Sequences :=
  let s := s.increment t today
  { s with durable := s.durable.map Durable.toWords, sessionNumber := word s.sessionNumber }

theorem incrementWord_eq (s : Sequences) (t : FileTree) (today : Date) :
    let d := s.durableIn t today
    s.incrementWord t today =
      { s with
        durable := some (Durable.toWords ⟨d.daily.increment today, d.storedNumber + 1⟩)
        sessionNumber := word (s.sessionNumber + 1)
        isDirty := true } := by
  intro d
  unfold incrementWord
  rw [increment_eq]
  rfl

/-- In words an image counts as it does in numbers, as long as these fit. -/
theorem incrementWord_eq_increment (hsession : s.sessionNumber + 1 < wordBound 32)
    (hwords : ∀ d ∈ (s.increment t today).durable, d.InWords) :
    s.incrementWord t today = s.increment t today := by
  rw [incrementWord_eq, increment_eq, word_of_lt hsession]
  rw [increment_eq] at hwords
  rw [Durable.toWords_of_inWords (hwords _ rfl)]

end Sequences

end PhotoIntake
