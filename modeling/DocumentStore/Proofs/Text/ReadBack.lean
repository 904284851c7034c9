import DocumentStore.Document.Query
import Mathlib.Data.List.Infix
set_option autoImplicit false

/-!
# Texts that are read back

A number, a list of bytes or a place in query results is passed around as a text.  Reading the text
gives the same thing again; numbers have to stay within the range that readers accept.
-/

namespace DocumentStore

namespace Text

/-! ## Numerals -/

theorem digitValue?_of_isDigit {c : Char} (h : c.isDigit = true) :
    digitValue? c = some (c.toNat - '0'.toNat) := by
  obtain ⟨hlow, hhigh⟩ := Char.isDigit_iff_toNat.mp h
  have hrange : '0' ≤ c ∧ c ≤ '9' := by
    rw [Char.le_def, Char.le_def]
    exact ⟨hlow, hhigh⟩
  rw [digitValue?, if_pos hrange]

theorem digitsFrom_of_isDigit {s : List Char} (h : ∀ c ∈ s, c.isDigit = true) (acc : Nat) :
    digitsFrom acc s = some (Nat.ofDigitChars 10 s acc) := by
  induction s generalizing acc with
  | nil => rw [digitsFrom, Nat.ofDigitChars_nil]
  | cons c rest ih =>
    have hc := digitValue?_of_isDigit (h c (List.mem_cons_self ..))
    rw [digitsFrom, hc]
    dsimp only
    rw [ih (fun d hd => h d (List.mem_cons_of_mem _ hd)), Nat.ofDigitChars_cons, Nat.mul_comm]

theorem digits?_toDigits (n : Nat) : digits? (Nat.toDigits 10 n) = some n := by
  have hdigits : ∀ c ∈ Nat.toDigits 10 n, c.isDigit = true := fun c hc =>
    Nat.isDigit_of_mem_toDigits (by decide) (by decide) hc
  rw [digits?.eq_def]
  split
  · next hnil => exact absurd hnil Nat.toDigits_ne_nil
  · rw [digitsFrom_of_isDigit hdigits, Nat.ofDigitChars_ten_toDigits]

/-- A character that is no digit does not begin a numeral. -/
theorem toDigits_ne_cons {c : Char} (h : c.isDigit = false) (n : Nat) (rest : List Char) :
    Nat.toDigits 10 n ≠ c :: rest := by
  intro heq
  have hdigit : c.isDigit = true :=
    Nat.isDigit_of_mem_toDigits (b := 10) (n := n) (by decide) (by decide) (by simp [heq])
  rw [h] at hdigit
  cases hdigit

theorem natural?_toDigits_eq (n : Nat) :
    natural? (Nat.toDigits 10 n) = if n < wordBound then some n else none := by
  unfold natural?
  dsimp only
  split
  · next hplus => exact absurd hplus (toDigits_ne_cons rfl n _)
  · rw [digits?_toDigits, Option.filter_some]
    simp only [decide_eq_true_eq]

theorem natural?_toDigits {n : Nat} (h : n < wordBound) :
    natural? (Nat.toDigits 10 n) = some n := by
  rw [natural?_toDigits_eq, if_pos h]

theorem integer?_toDigits {n : Nat} (h : n < signedBound) :
    integer? (Nat.toDigits 10 n) = some (Int.ofNat n) := by
  unfold integer?
  dsimp only
  split
  · next hplus => exact absurd hplus (toDigits_ne_cons rfl n _)
  · next hminus => exact absurd hminus (toDigits_ne_cons rfl n _)
  · rw [digits?_toDigits, Option.map_some, Option.filter_some, if_pos]
    simp only [Bool.and_eq_true, decide_eq_true_eq]
    constructor <;> simp only [Int.ofNat_eq_natCast] <;> omega

theorem integer?_minus_toDigits {n : Nat} (h : n ≤ signedBound) :
    integer? ('-' :: Nat.toDigits 10 n) = some (-Int.ofNat n) := by
  rw [integer?, digits?_toDigits, Option.map_some, Option.filter_some, if_pos]
  simp only [Bool.and_eq_true, decide_eq_true_eq]
  have hpos : 0 < signedBound := by decide
  constructor <;> simp only [Int.ofNat_eq_natCast] <;> omega

/-! ## Base 64 -/

namespace Base64

theorem digitValue?_digit {n : Nat} (h : n < 64) : digitValue? (digit n) = some n := by
  have hall : ∀ i : Fin 64, digitValue? (digit i) = some i.val := by decide
  exact hall ⟨n, h⟩

theorem digit_ne_padding {n : Nat} (h : n < 64) : digit n ≠ '=' := by
  have hall : ∀ i : Fin 64, digit i ≠ '=' := by decide
  exact hall ⟨n, h⟩

/-- Four characters of the alphabet in front of a text. -/
theorem decode_group {i j k l : Nat} (hi : i < 64) (hj : j < 64) (hk : k < 64) (hl : l < 64)
    (rest : List Char) :
    decode (digit i :: digit j :: digit k :: digit l :: rest) =
      (decode rest).map fun tail =>
        let n := ((i * 64 + j) * 64 + k) * 64 + l
        UInt8.ofNat (n / 65536) :: UInt8.ofNat (n / 256) :: UInt8.ofNat n :: tail := by
  rw [decode]
  · simp only [digitValue?_digit, hi, hj, hk, hl]
    cases decode rest <;> rfl
  · intro _ heq _
    exact absurd heq (digit_ne_padding hl)
  · intro heq _
    exact absurd heq (digit_ne_padding hl)

/-- Decoding undoes encoding. -/
theorem decode_encode (bytes : List UInt8) : decode (encode bytes) = some bytes := by
  fun_induction encode bytes with
  | case1 => rfl
  | case2 a n =>
    have ha := a.toNat_lt
    rw [decode, digitValue?_digit (by omega), digitValue?_digit (by omega)]
    have hn : n / 64 * 64 + n % 64 = n := by omega
    simp only [Option.bind_eq_bind, Option.bind_some, hn]
    rw [if_pos (by omega), show n / 16 = a.toNat by omega, UInt8.ofNat_toNat]
  | case3 a b n =>
    have ha := a.toNat_lt
    have hb := b.toNat_lt
    have hlast := digit_ne_padding (n := n % 64) (by omega)
    rw [decode, digitValue?_digit (by omega), digitValue?_digit (by omega),
      digitValue?_digit (by omega)]
    · have hn : (n / 4096 * 64 + n / 64 % 64) * 64 + n % 64 = n := by omega
      simp only [Option.bind_eq_bind, Option.bind_some, hn]
      have hhigh : UInt8.ofNat (n / 1024) = a := by
        rw [show n / 1024 = a.toNat by omega, UInt8.ofNat_toNat]
      have hlow : UInt8.ofNat (n / 4) = b := by
        apply UInt8.toNat_inj.mp
        rw [UInt8.toNat_ofNat']
        omega
      rw [if_pos (by omega), hhigh, hlow]
    · intro heq
      exact absurd heq hlast
  | case4 a b c rest n ih =>
    have ha := a.toNat_lt
    have hb := b.toNat_lt
    have hc := c.toNat_lt
    rw [decode_group (by omega) (by omega) (by omega) (by omega), ih]
    have hn : ((n / 262144 * 64 + n / 4096 % 64) * 64 + n / 64 % 64) * 64 + n % 64 = n := by omega
    simp only [Option.map_some, hn]
    have hhigh : UInt8.ofNat (n / 65536) = a := by
      rw [show n / 65536 = a.toNat by omega, UInt8.ofNat_toNat]
    have hmiddle : UInt8.ofNat (n / 256) = b := by
      apply UInt8.toNat_inj.mp
      rw [UInt8.toNat_ofNat']
      omega
    have hlow : UInt8.ofNat n = c := by
      apply UInt8.toNat_inj.mp
      rw [UInt8.toNat_ofNat']
      omega
    rw [hhigh, hmiddle, hlow]

end Base64

end Text

/-! ## Cursors -/

namespace Cursor

open Text

theorem asciiChars?_asciiBytes {s : List Char} (h : ∀ c ∈ s, c.toNat < 128) :
    asciiChars? (asciiBytes s) = some s := by
  have hbyte : ∀ c ∈ s, (UInt8.ofNat c.toNat).toNat = c.toNat := by
    intro c hc
    have := h c hc
    rw [UInt8.toNat_ofNat']
    omega
  have hall : (asciiBytes s).all (· < 128) = true := by
    rw [asciiBytes, List.all_map, List.all_eq_true]
    intro c hc
    rw [Function.comp_apply, decide_eq_true_eq, UInt8.lt_iff_toNat_lt, hbyte c hc]
    exact h c hc
  rw [asciiChars?, if_pos hall, asciiBytes, List.map_map]
  have hid : s.map ((fun b : UInt8 => Char.ofNat b.toNat) ∘ fun c => UInt8.ofNat c.toNat) =
      s.map id := by
    apply List.map_congr_left
    intro c hc
    rw [Function.comp_apply, hbyte c hc, Char.ofNat_toNat, id]
  rw [hid, List.map_id]

theorem toNat_lt_of_mem_label {c : Char} (hc : c ∈ label) : c.toNat < 128 := by
  have hlabel : label.all (·.toNat < 128) = true := rfl
  exact of_decide_eq_true (List.all_eq_true.mp hlabel c hc)

/-- A cursor says how many results it comes after, unless readers refuse the number. -/
theorem offset?_ofOffset_eq (n : Nat) :
    (ofOffset n).offset? = if n < wordBound then some n else none := by
  have hascii : ∀ c ∈ label ++ Nat.toDigits 10 n, c.toNat < 128 := by
    intro c hc
    rcases List.mem_append.mp hc with hc | hc
    · exact toNat_lt_of_mem_label hc
    · have hdigit : c.isDigit = true := Nat.isDigit_of_mem_toDigits (by decide) (by decide) hc
      exact Nat.lt_of_le_of_lt (Char.isDigit_iff_toNat.mp hdigit).2 (by decide)
  have hdigits : label.isPrefixOf? (label ++ Nat.toDigits 10 n) = some (Nat.toDigits 10 n) :=
    List.isPrefixOf?_eq_some_iff_append_eq.mpr rfl
  rw [offset?, ofOffset]
  simp only [String.toList_ofList, Base64.decode_encode, Option.bind_eq_bind, Option.bind_some,
    asciiChars?_asciiBytes hascii, hdigits, natural?_toDigits_eq]

theorem offset?_ofOffset {n : Nat} (h : n < wordBound) : (ofOffset n).offset? = some n := by
  rw [offset?_ofOffset_eq, if_pos h]

end Cursor

end DocumentStore
