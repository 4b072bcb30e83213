import PhotoIntake.Text.Lines
import Mathlib.Tactic.Common

/-!
# Lines of texts

A text is a run of bytes, and only the line break is written with the byte of a line feed.  So texts
without line breaks that are written one behind the other, each with a line break at its end, are
the lines of the stream.

* `toNat_eq_of_mem_utf8EncodeChar` and `lineFeed_mem_bytes`: where a byte comes from.
* `lines_append`: the first line of a stream.
* `lines_bytes_join`: the lines of texts that were written with line breaks.
* `prefix_of_fromUTF8?`: a text whose bytes were cut.
-/

namespace PhotoIntake.Text

/-- The bytes of a text. -/
def bytes (s : String) : List UInt8 :=
  s.toUTF8.data.toList

theorem ofBytes?_bytes (s : String) : ofBytes? (bytes s) = some s := by
  rw [ofBytes?, bytes, Array.toArray_toList]
  exact dif_pos s.isValidUTF8

theorem bytes_of_ofBytes? {b : List UInt8} {s : String} (h : ofBytes? b = some s) :
    bytes s = b := by
  unfold ofBytes? String.fromUTF8? at h
  split_ifs at h
  obtain rfl := Option.some.inj h
  rfl

theorem length_bytes (s : String) : (bytes s).length = s.utf8ByteSize := by
  rw [bytes, Array.length_toList]
  rfl

theorem bytes_eq (s : String) : bytes s = s.toList.flatMap String.utf8EncodeChar := by
  rw [bytes, String.toUTF8_eq_toByteArray, ← String.utf8Encode_toList]
  simp [List.utf8Encode]

theorem bytes_append (s t : String) : bytes (s ++ t) = bytes s ++ bytes t := by
  simp [bytes_eq]

/-- A character of several bytes is written with bytes from 128 on, so a byte below is a character
of its own. -/
theorem toNat_eq_of_mem_utf8EncodeChar {c : Char} {b : UInt8} (h : b ∈ String.utf8EncodeChar c)
    (hb : b.toNat < 128) : c.toNat = b.toNat := by
  have hhigh {n : Nat} (hlow : 128 ≤ n) (hbound : n < 256) : b ≠ UInt8.ofNat n := fun heq => by
    have hval := congrArg UInt8.toNat heq
    rw [UInt8.toNat_ofNat_of_lt' hbound] at hval
    omega
  simp only [String.utf8EncodeChar] at h
  split_ifs at h with hone htwo hthree
  · rw [List.mem_singleton.1 h, UInt8.toNat_ofNat_of_lt' (show c.val.toNat < 256 by omega)]
    rfl
  all_goals
    simp only [List.mem_cons, List.not_mem_nil, or_false] at h
  · rcases h with h | h <;> exact absurd h (hhigh (by omega) (by omega))
  · rcases h with h | h | h <;> exact absurd h (hhigh (by omega) (by omega))
  · rcases h with h | h | h | h <;> exact absurd h (hhigh (by omega) (by omega))

/-- The byte of a line feed is the line break, and no part of another character. -/
theorem eq_lineBreak_of_mem {c : Char} (h : lineFeed ∈ String.utf8EncodeChar c) : c = '\n' :=
  Char.toNat_inj.1 (toNat_eq_of_mem_utf8EncodeChar h (by decide))

theorem lineFeed_mem_bytes {s : String} (h : lineFeed ∈ bytes s) : '\n' ∈ s.toList := by
  rw [bytes_eq, List.mem_flatMap] at h
  obtain ⟨c, hmem, hc⟩ := h
  rwa [eq_lineBreak_of_mem hc] at hmem

theorem lines_append {line : List UInt8} (h : lineFeed ∉ line) (rest : List UInt8) :
    lines (line ++ lineFeed :: rest) = line :: lines rest := by
  induction line with
  | nil => rfl
  | cons b line ih =>
    rw [List.mem_cons, not_or] at h
    rw [List.cons_append, lines, if_neg (Ne.symm h.1), ih h.2]

/-- Texts without line breaks are the lines of what they write, each with a line break. -/
theorem lines_bytes_join {texts : List String} (h : ∀ s ∈ texts, '\n' ∉ s.toList) :
    lines (bytes (String.join (texts.map (· ++ "\n")))) = texts.map bytes := by
  induction texts with
  | nil => simp [bytes_eq, lines]
  | cons s texts ih =>
    have hfeed : lineFeed ∉ bytes s := fun hmem =>
      h s List.mem_cons_self (lineFeed_mem_bytes hmem)
    have hrest := ih fun t ht => h t (List.mem_cons_of_mem s ht)
    have hbreak : bytes "\n" = [lineFeed] := by decide
    rw [List.map_cons, List.map_cons, String.join_cons, bytes_append, bytes_append, hbreak,
      List.append_assoc, List.singleton_append, lines_append hfeed, hrest]

/-! ## The first bytes of a text -/

/-- No character is written with the first bytes of another one, so the characters that are written
first are known from their bytes. -/
theorem prefix_of_bytes {cs ds : List Char} {rest : List UInt8}
    (h : ds.flatMap String.utf8EncodeChar = cs.flatMap String.utf8EncodeChar ++ rest) :
    cs <+: ds := by
  induction cs generalizing ds with
  | nil => exact List.nil_prefix
  | cons c cs ih =>
    rw [List.flatMap_cons, List.append_assoc] at h
    have hfirst (c : Char) (more : List UInt8) :
        (String.utf8EncodeChar c ++ more).toByteArray.utf8DecodeChar? 0 = some c := by
      rw [List.toByteArray_append]
      exact ByteArray.utf8DecodeChar?_utf8EncodeChar_append
    have hc := hfirst c (cs.flatMap String.utf8EncodeChar ++ rest)
    cases ds with
    | nil =>
      rw [← h] at hc
      cases hc
    | cons d ds =>
      rw [List.flatMap_cons] at h
      rw [← h, hfirst d] at hc
      obtain rfl := Option.some.inj hc
      exact List.cons_prefix_cons.2 ⟨rfl, ih (List.append_cancel_left h)⟩

/-- The first bytes of a text, if they are those of a text, are those of a part of it from its
start; this is the whole text only if no byte is missing. -/
theorem prefix_of_fromUTF8? {s part : String} {n : Nat}
    (h : String.fromUTF8? (s.toUTF8.extract 0 n) = some part) :
    part.toList <+: s.toList ∧ (n < s.toUTF8.size → part ≠ s) := by
  have hbytes : bytes part = (bytes s).take n := by
    unfold String.fromUTF8? at h
    split_ifs at h with hvalid
    obtain rfl := Option.some.inj h
    show (s.toUTF8.extract 0 n).data.toList = _
    simp [bytes]
  constructor
  · apply prefix_of_bytes
    rw [← bytes_eq, ← bytes_eq, hbytes, List.take_append_drop]
  · rintro hn rfl
    have hlength := congrArg List.length hbytes
    have hsize : (bytes part).length = part.toUTF8.size := rfl
    rw [List.length_take, hsize] at hlength
    omega

end PhotoIntake.Text
