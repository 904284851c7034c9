import DocumentStore.Proofs.Text.ReadBack
import DocumentStore.Record.Id
import Mathlib.Algebra.Group.Nat.Defs
set_option autoImplicit false

/-!
# Identifiers are read back

The names written for numbers and UUIDs read as what they were written for, so these types are
lawful identifiers like texts.
-/

namespace DocumentStore

/-! ## Numbers -/

theorem Text.integer?_toString {n : Int} (hlow : -Int.ofNat signedBound ≤ n)
    (hhigh : n < Int.ofNat signedBound) : integer? (toString n).toList = some n := by
  cases n with
  | ofNat m =>
    have hm : m < signedBound := Int.ofNat_lt.mp hhigh
    have htext : (toString (Int.ofNat m)).toList = Nat.toDigits 10 m := Nat.toList_repr
    rw [htext, integer?_toDigits hm]
  | negSucc m =>
    have hm : m + 1 ≤ signedBound := by
      simp only [Int.ofNat_eq_natCast] at hlow
      omega
    have htext : (toString (Int.negSucc m)).toList = '-' :: Nat.toDigits 10 (m + 1) := by
      have happend : toString (Int.negSucc m) = "-" ++ (m + 1).repr := rfl
      rw [happend, String.toList_append, Nat.toList_repr]
      rfl
    rw [htext, integer?_minus_toDigits hm]
    rfl

instance : LawfulRecordId Int64 where
  ofName_toName n := by
    have hlow := n.le_toInt
    have hhigh := n.toInt_lt
    have hread := Text.integer?_toString (n := n.toInt) (by simpa [Text.signedBound] using hlow)
      (by simpa [Text.signedBound] using hhigh)
    simp only [RecordId.ofName, RecordId.toName, hread, Int64.ofInt_toInt]

instance : LawfulRecordId UInt64 where
  ofName_toName n := by
    have hread := Text.natural?_toDigits (n := n.toNat) n.toNat_lt
    simp only [RecordId.ofName, RecordId.toName, Nat.toString_eq_repr, Nat.toList_repr, hread,
      UInt64.ofNat_toNat]

/-! ## UUIDs -/

namespace Uuid

theorem length_hexDigits (count n : Nat) : (hexDigits count n).length = count := by
  induction count generalizing n with
  | zero => rfl
  | succ count ih => rw [hexDigits, List.length_append, ih, List.length_singleton]

theorem hexValue?_digitChar {n : Nat} (h : n < 16) : hexValue? (Nat.digitChar n) = some n := by
  have hall : ∀ i : Fin 16, hexValue? (Nat.digitChar i) = some i.val := by decide
  exact hall ⟨n, h⟩

theorem eq_digitChar_of_mem_hexDigits {count n : Nat} {c : Char} (h : c ∈ hexDigits count n) :
    ∃ d, d < 16 ∧ c = Nat.digitChar d := by
  induction count generalizing n with
  | zero => cases h
  | succ count ih =>
    rcases List.mem_append.mp h with h | h
    · exact ih h
    · exact ⟨n % 16, Nat.mod_lt n (by decide), List.mem_singleton.mp h⟩

theorem hexFrom_append (acc : Nat) (front rest : List Char) :
    hexFrom acc (front ++ rest) = (hexFrom acc front).bind fun n => hexFrom n rest := by
  induction front generalizing acc with
  | nil => rfl
  | cons c front ih =>
    rw [List.cons_append, hexFrom, hexFrom]
    cases hexValue? c with
    | none => rfl
    | some d => exact ih _

theorem hexFrom_hexDigits (acc count n : Nat) :
    hexFrom acc (hexDigits count n) = some (acc * 16 ^ count + n % 16 ^ count) := by
  induction count generalizing n with
  | zero => simp [hexDigits, hexFrom, Nat.mod_one]
  | succ count ih =>
    have hlast : hexFrom (acc * 16 ^ count + n / 16 % 16 ^ count) [Nat.digitChar (n % 16)] =
        some ((acc * 16 ^ count + n / 16 % 16 ^ count) * 16 + n % 16) := by
      simp only [hexFrom, hexValue?_digitChar (Nat.mod_lt n (show 16 > 0 by decide))]
    rw [hexDigits, hexFrom_append, ih, Option.bind_some, hlast]
    have hsplit : n % 16 ^ (count + 1) = n / 16 % 16 ^ count * 16 + n % 16 := by
      rw [Nat.pow_succ, Nat.mul_comm, Nat.mod_mul]
      omega
    rw [hsplit, Nat.pow_succ, Nat.add_mul, Nat.mul_assoc, Nat.add_assoc]

/-- The 32 digits of an identifier, without hyphens. -/
theorem ofDigits?_groups (u : Uuid) :
    ofDigits? (hexDigits 8 (u.value.toNat / 16 ^ 24) ++ hexDigits 4 (u.value.toNat / 16 ^ 20) ++
      hexDigits 4 (u.value.toNat / 16 ^ 16) ++ hexDigits 4 (u.value.toNat / 16 ^ 12) ++
      hexDigits 12 (u.value.toNat / 16 ^ 0)) = some u := by
  have hbound : u.value.toNat < 2 ^ 128 := u.value.isLt
  rw [ofDigits?, if_pos (by simp only [List.length_append, length_hexDigits])]
  simp only [hexFrom_append, hexFrom_hexDigits, Option.bind_some, Option.map_some]
  have hvalue : ∀ v : Nat, v < 2 ^ 128 →
      ((((0 * 16 ^ 8 + v / 16 ^ 24 % 16 ^ 8) * 16 ^ 4 + v / 16 ^ 20 % 16 ^ 4) * 16 ^ 4 +
        v / 16 ^ 16 % 16 ^ 4) * 16 ^ 4 + v / 16 ^ 12 % 16 ^ 4) * 16 ^ 12 +
        v / 16 ^ 0 % 16 ^ 12 = v := by
    intro v hv
    omega
  rw [hvalue _ hbound, BitVec.ofNat_toNat, BitVec.setWidth_eq]

/-- Only the digits of the five groups count. -/
theorem ofGroups?_groups {a b c d e : List Char} (ha : a.length = 8) (hb : b.length = 4)
    (hc : c.length = 4) (hd : d.length = 4) (he : e.length = 12) :
    ofGroups? (a ++ '-' :: b ++ '-' :: c ++ '-' :: d ++ '-' :: e) =
      ofDigits? (a ++ b ++ c ++ d ++ e) := by
  simp [ofGroups?, List.drop_append, List.drop_eq_nil_of_le, ha, hb, hc, hd, he]

/-- What begins with a digit has no wrapping. -/
theorem unwrap?_digitChar {n : Nat} (h : n < 16) (rest : List Char) :
    unwrap? (Nat.digitChar n :: rest) = some (Nat.digitChar n :: rest) := by
  have hall : ∀ i : Fin 16, Nat.digitChar i ≠ '\x7b' ∧ (Nat.digitChar i).toLower ≠ 'u' := by decide
  obtain ⟨hbrace, hscheme⟩ := hall ⟨n, h⟩
  rw [unwrap?]
  · rw [if_neg]
    intro heq
    exact hscheme (List.cons.inj heq).1
  · intro _ heq
    exact hbrace (List.cons.inj heq).1

theorem toList_eq (u : Uuid) :
    u.toList = hexDigits 8 (u.value.toNat / 16 ^ 24) ++ '-' :: hexDigits 4 (u.value.toNat / 16 ^ 20) ++
      '-' :: hexDigits 4 (u.value.toNat / 16 ^ 16) ++ '-' :: hexDigits 4 (u.value.toNat / 16 ^ 12) ++
      '-' :: hexDigits 12 (u.value.toNat / 16 ^ 0) := by
  simp only [toList, Nat.pow_eq]

theorem unwrap?_toList (u : Uuid) : unwrap? u.toList = some u.toList := by
  rw [toList_eq]
  cases hfirst : hexDigits 8 (u.value.toNat / 16 ^ 24) with
  | nil =>
    have hlength := length_hexDigits 8 (u.value.toNat / 16 ^ 24)
    rw [hfirst] at hlength
    cases hlength
  | cons c rest =>
    obtain ⟨n, hn, hc⟩ := eq_digitChar_of_mem_hexDigits (hfirst ▸ List.mem_cons_self ..)
    rw [hc]
    exact unwrap?_digitChar hn _

theorem ofText?_toText (u : Uuid) : ofText? u.toText = some u := by
  have hlength : u.toList.length = 36 := by
    simp only [toList_eq, List.length_append, List.length_cons, length_hexDigits]
  rw [ofText?, toText, String.toList_ofList, hlength, if_neg (by decide), unwrap?_toList]
  rw [Option.bind_eq_bind, Option.bind_some, toList_eq, ofGroups?_groups (length_hexDigits ..)
    (length_hexDigits ..) (length_hexDigits ..) (length_hexDigits ..) (length_hexDigits ..)]
  exact ofDigits?_groups u

end Uuid

instance : LawfulRecordId Uuid where
  ofName_toName u := by
    simp only [RecordId.ofName, RecordId.toName, Uuid.ofText?_toText]

end DocumentStore
