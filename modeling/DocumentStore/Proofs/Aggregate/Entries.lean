import DocumentStore.Aggregate.Basic
import DocumentStore.Proofs.Record.Ids
import Mathlib.Data.List.Basic
set_option autoImplicit false

/-!
# Entries of histories as entities

An entry is read back from the entity it was stored as.  Within one aggregate the name of its key says
which event it is, or a snapshot of which version.  Between aggregates it does not always: the
snapshots of one aggregate can be named like those of another whose name ends in a further hyphen.
`HistoryRecord.keyName_eq_iff_of_ne` says when that is so; names of numbers and UUIDs never end so.
-/

namespace DocumentStore

/-! ## Numerals in names -/

namespace Text

/-- The sign of a number as it is written. -/
def sign (n : Int) : List Char := if n < 0 then ['-'] else []

theorem toList_toString (n : Int) : (toString n).toList = sign n ++ Nat.toDigits 10 n.natAbs := by
  cases n with
  | ofNat m => exact Nat.toList_repr
  | negSucc m =>
    have happend : toString (Int.negSucc m) = "-" ++ (m + 1).repr := rfl
    rw [happend, String.toList_append, Nat.toList_repr]
    simp [sign, Int.negSucc_lt_zero]

theorem hyphen_notMem_toDigits (n : Nat) : '-' ∉ Nat.toDigits 10 n := by
  intro h
  have hdigit := Nat.isDigit_of_mem_toDigits (b := 10) (n := n) (by decide) (by decide) h
  cases hdigit

theorem toDigits_injective {m n : Nat} (h : Nat.toDigits 10 m = Nat.toDigits 10 n) : m = n := by
  have hread := digits?_toDigits m
  rw [h, digits?_toDigits] at hread
  exact (Option.some.inj hread).symm

/-- What is before the last separator, and what is after it, are determined by the whole. -/
theorem eq_of_append_cons_eq {α : Type} {separator : α} {front front' rest rest' : List α}
    (hrest : separator ∉ rest) (hrest' : separator ∉ rest')
    (h : front ++ separator :: rest = front' ++ separator :: rest') : front = front' ∧ rest = rest' := by
  have hno {more tail tail' : List α} (htail : separator ∉ tail)
      (h : separator :: tail = more ++ separator :: tail') : more = [] ∧ tail = tail' := by
    cases more with
    | nil => exact ⟨rfl, (List.cons.inj h).2⟩
    | cons c more =>
      refine absurd ?_ htail
      rw [(List.cons.inj h).2]
      exact List.mem_append_right _ (List.mem_cons_self ..)
  rcases List.append_eq_append_iff.mp h with ⟨more, hfront, hback⟩ | ⟨more, hfront, hback⟩
  · obtain ⟨rfl, rfl⟩ := hno hrest hback
    exact ⟨by rw [hfront, List.append_nil], rfl⟩
  · obtain ⟨rfl, rfl⟩ := hno hrest' hback
    exact ⟨by rw [hfront, List.append_nil], rfl⟩

theorem getLast?_append_ne {α : Type} {front rest : List α} {a : α} (hrest : rest ≠ [])
    (h : a ∉ rest) : (front ++ rest).getLast? ≠ some a := by
  rw [List.getLast?_append_of_ne_nil front hrest]
  exact fun hlast => h (List.mem_of_getLast? hlast)

end Text

namespace HistoryRecord

/-! ## Stored and read back -/

/-- The properties that entries are found and ordered by. -/
theorem get?_toEntity (keys : KeyFactory) (aggregate : String) (created : Timestamp)
    (r : HistoryRecord) :
    (toEntity keys aggregate created r).get? aggregateProperty = some (.string aggregate) ∧
      (toEntity keys aggregate created r).get? versionProperty = some (.integer r.version) ∧
      (toEntity keys aggregate created r).get? createdProperty = some (.timestamp created) ∧
      (toEntity keys aggregate created r).get? snapshotProperty = some (.boolean r.isSnapshot) := by
  cases r <;>
    simp [toEntity, Entity.get?, SortedMap.ofList, SortedMap.get?_insert, aggregateProperty,
      createdProperty, versionProperty, snapshotProperty, timestampProperty, historyPayloadProperty,
      eventIdProperty]

/-- An entry is read back from its entity. -/
theorem ofEntity_toEntity (keys : KeyFactory) (aggregate : String) (created : Timestamp)
    (r : HistoryRecord) : ofEntity (toEntity keys aggregate created r) = .ok r := by
  cases r <;>
    simp [ofEntity, field, toEntity, Entity.get?, SortedMap.ofList, SortedMap.get?_insert,
      aggregateProperty, createdProperty, versionProperty, snapshotProperty, timestampProperty,
      historyPayloadProperty, eventIdProperty, NativeValue.integer?, NativeValue.timestamp?,
      NativeValue.blob?, NativeValue.boolean?, NativeValue.string?, Uuid.ofText?_toText, version,
      timestamp, payload, isSnapshot, pure, Except.pure]

/-! ## Names of keys -/

/-- What an entry is kept under in the history of its aggregate: an event under its identifier, a
snapshot under its version. -/
inductive Slot where
  | event (id : Uuid)
  | snapshot (version : Int)
  deriving DecidableEq, Repr, Inhabited

/-- The slot of an entry. -/
def slot : HistoryRecord → Slot
  | .event e => .event e.id
  | .snapshot s => .snapshot s.version

/-- The name of an event does not begin like that of a snapshot. -/
theorem head?_toText (u : Uuid) : u.toText.toList.head? ≠ some 'S' := by
  have hdigit : ∀ n < 16, Nat.digitChar n ≠ 'S' := by decide
  have hlength := Uuid.length_hexDigits 8 (u.value.toNat / 16 ^ 24)
  rw [Uuid.toText, String.toList_ofList, Uuid.toList_eq]
  cases hfirst : Uuid.hexDigits 8 (u.value.toNat / 16 ^ 24) with
  | nil =>
    rw [hfirst] at hlength
    cases hlength
  | cons c more =>
    obtain ⟨n, hn, hc⟩ := Uuid.eq_digitChar_of_mem_hexDigits (hfirst ▸ List.mem_cons_self ..)
    intro heq
    exact hdigit n hn (hc ▸ Option.some.inj heq)

theorem toList_snapshotName (aggregate : String) (version : Int) :
    ("SNAPSHOT-" ++ aggregate ++ "-" ++ toString version).toList =
      ("SNAPSHOT-".toList ++ aggregate.toList ++ Text.sign version) ++
        '-' :: Nat.toDigits 10 version.natAbs := by
  have hsign (rest : List Char) : '-' :: (Text.sign version ++ rest) = Text.sign version ++ '-' :: rest := by
    unfold Text.sign
    split <;> rfl
  rw [String.toList_append, String.toList_append, String.toList_append, Text.toList_toString]
  simp [hsign]

/-- The names of snapshots are the same if the digits of the versions are, and what is before them. -/
theorem snapshotName_eq {a b : String} {v w : Int}
    (h : "SNAPSHOT-" ++ a ++ "-" ++ toString v = "SNAPSHOT-" ++ b ++ "-" ++ toString w) :
    v.natAbs = w.natAbs ∧ a.toList ++ Text.sign v = b.toList ++ Text.sign w := by
  have hlist := congrArg String.toList h
  rw [toList_snapshotName, toList_snapshotName] at hlist
  obtain ⟨hfront, hdigits⟩ := Text.eq_of_append_cons_eq (Text.hyphen_notMem_toDigits _)
    (Text.hyphen_notMem_toDigits _) hlist
  rw [List.append_assoc, List.append_assoc] at hfront
  exact ⟨Text.toDigits_injective hdigits, List.append_cancel_left hfront⟩

/-- Entries with the same key name are both the same event, or both snapshots. -/
theorem slot_of_keyName_eq {a b : String} {r r' : HistoryRecord} (h : r.keyName a = r'.keyName b) :
    (∃ id, r.slot = .event id ∧ r'.slot = .event id) ∨
      ∃ v w, r.slot = .snapshot v ∧ r'.slot = .snapshot w ∧ v.natAbs = w.natAbs ∧
        a.toList ++ Text.sign v = b.toList ++ Text.sign w := by
  have hdifferent (u : Uuid) (aggregate : String) (v : Int) :
      u.toText ≠ "SNAPSHOT-" ++ aggregate ++ "-" ++ toString v := by
    intro heq
    apply head?_toText u
    rw [heq, toList_snapshotName]
    rfl
  cases r with
  | event e =>
    cases r' with
    | event e' =>
      have hread := congrArg Uuid.ofText? (show e.id.toText = e'.id.toText from h)
      rw [Uuid.ofText?_toText, Uuid.ofText?_toText] at hread
      exact .inl ⟨e.id, rfl, congrArg Slot.event (Option.some.inj hread).symm⟩
    | snapshot s' => exact absurd h (hdifferent e.id b s'.version)
  | snapshot s =>
    cases r' with
    | event e' => exact absurd h.symm (hdifferent e'.id a s.version)
    | snapshot s' => exact .inr ⟨s.version, s'.version, rfl, rfl, snapshotName_eq h⟩

/-- Entries of one aggregate have the same key name exactly if they have the same slot. -/
theorem keyName_eq_iff {aggregate : String} {r r' : HistoryRecord} :
    r.keyName aggregate = r'.keyName aggregate ↔ r.slot = r'.slot := by
  constructor
  · intro h
    rcases slot_of_keyName_eq h with ⟨id, hr, hr'⟩ | ⟨v, w, hr, hr', habs, hsign⟩
    · rw [hr, hr']
    · have hsame : Text.sign v = Text.sign w := List.append_cancel_left hsign
      have hlt : v < 0 ↔ w < 0 := by
        unfold Text.sign at hsame
        split at hsame <;> split at hsame <;> first | omega | cases hsame
      rw [hr, hr', show v = w by omega]
  · intro h
    cases r <;> cases r' <;> simp only [slot, Slot.event.injEq, Slot.snapshot.injEq, reduceCtorEq] at h <;>
      simp only [keyName, h]

/-- Whether two entries are of the same event. -/
def SameEvent : HistoryRecord → HistoryRecord → Prop
  | .event e, .event e' => e.id = e'.id
  | _, _ => False

/-- Whether entries of aggregates with these names are snapshots of opposite versions, and what is the
end of one name is read as the minus sign of the other's version. -/
def SnapshotsClash (a b : String) : HistoryRecord → HistoryRecord → Prop
  | .snapshot s, .snapshot s' =>
    s'.version = -s.version ∧ ((s.version < 0 ∧ b = a ++ "-") ∨ (0 < s.version ∧ a = b ++ "-"))
  | _, _ => False

instance (r r' : HistoryRecord) : Decidable (SameEvent r r') :=
  match r, r' with
  | .event e, .event e' => inferInstanceAs (Decidable (e.id = e'.id))
  | .event _, .snapshot _ | .snapshot _, _ => inferInstanceAs (Decidable False)

instance (a b : String) (r r' : HistoryRecord) : Decidable (SnapshotsClash a b r r') :=
  match r, r' with
  | .snapshot _, .snapshot _ => inferInstanceAs (Decidable (_ ∧ _))
  | .snapshot _, .event _ | .event _, _ => inferInstanceAs (Decidable False)

theorem snapshotName_hyphen {a : String} {version : Int} (h : version < 0) :
    "SNAPSHOT-" ++ a ++ "-" ++ toString version =
      "SNAPSHOT-" ++ (a ++ "-") ++ "-" ++ toString (-version) := by
  apply String.toList_inj.mp
  rw [toList_snapshotName, toList_snapshotName, Int.natAbs_neg]
  simp [Text.sign, h, show ¬0 < version by omega]

/-- Entries of two aggregates have the same key name exactly if they are of the same event, or are
snapshots that clash. -/
theorem keyName_eq_iff_of_ne {a b : String} (hab : a ≠ b) {r r' : HistoryRecord} :
    r.keyName a = r'.keyName b ↔ SameEvent r r' ∨ SnapshotsClash a b r r' := by
  constructor
  · intro h
    rcases slot_of_keyName_eq h with ⟨id, hr, hr'⟩ | ⟨v, w, hr, hr', habs, hsign⟩ <;>
      cases r <;> cases r' <;> simp only [slot, Slot.event.injEq, Slot.snapshot.injEq, reduceCtorEq] at hr hr'
    · exact .inl (hr.trans hr'.symm)
    · subst hr hr'
      unfold Text.sign at hsign
      refine .inr ?_
      split at hsign <;> split at hsign
      · exact absurd (String.toList_inj.mp (List.append_cancel_right hsign)) hab
      · next hv hw => exact ⟨by omega, .inl ⟨hv, String.toList_inj.mp (by simp [hsign])⟩⟩
      · next hv hw => exact ⟨by omega, .inr ⟨by omega, String.toList_inj.mp (by simp [← hsign])⟩⟩
      · exact absurd (String.toList_inj.mp (List.append_cancel_right hsign)) hab
  · intro h
    cases r <;> cases r' <;> simp only [SameEvent, SnapshotsClash, or_false, false_or] at h
    · rw [keyName, keyName, h]
    · obtain ⟨hopposite, ⟨hneg, rfl⟩ | ⟨hpos, rfl⟩⟩ := h
      · rw [keyName, keyName, hopposite]
        exact snapshotName_hyphen hneg
      · rw [keyName, keyName, snapshotName_hyphen (a := b) (by omega), hopposite, Int.neg_neg]

end HistoryRecord

/-! ## Identifiers that never clash -/

/-- Identifiers whose names end in something else than a hyphen. -/
class UnhyphenatedId (ι : Type) [RecordId ι] : Prop where
  getLast?_toName (id : ι) : (RecordId.toName id).toList.getLast? ≠ some '-'

instance : UnhyphenatedId Int64 where
  getLast?_toName n := by
    have hname : (RecordId.toName n).toList = Text.sign n.toInt ++ Nat.toDigits 10 n.toInt.natAbs :=
      Text.toList_toString n.toInt
    rw [hname]
    exact Text.getLast?_append_ne Nat.toDigits_ne_nil (Text.hyphen_notMem_toDigits _)

instance : UnhyphenatedId UInt64 where
  getLast?_toName n := by
    have hname : (RecordId.toName n).toList = [] ++ Nat.toDigits 10 n.toNat := Nat.toList_repr
    rw [hname]
    exact Text.getLast?_append_ne Nat.toDigits_ne_nil (Text.hyphen_notMem_toDigits _)

instance : UnhyphenatedId Uuid where
  getLast?_toName u := by
    have hname : (RecordId.toName u).toList = u.toList := String.toList_ofList
    rw [hname, Uuid.toList_eq, List.append_cons]
    refine Text.getLast?_append_ne (fun hnil => ?_) fun hmem => ?_
    · have hlength := Uuid.length_hexDigits 12 (u.value.toNat / 16 ^ 0)
      rw [hnil] at hlength
      cases hlength
    · obtain ⟨n, hn, hc⟩ := Uuid.eq_digitChar_of_mem_hexDigits hmem
      have hdigit : ∀ n < 16, Nat.digitChar n ≠ '-' := by decide
      exact hdigit n hn hc.symm

/-- The snapshots of aggregates that are named by numbers or by UUIDs do not clash. -/
theorem HistoryRecord.not_snapshotsClash {ι : Type} [RecordId ι] [UnhyphenatedId ι] (a b : ι)
    (r r' : HistoryRecord) : ¬SnapshotsClash (RecordId.toName a) (RecordId.toName b) r r' := by
  have hends (name : String) : (name ++ "-").toList.getLast? = some '-' := by
    rw [String.toList_append]
    exact List.getLast?_concat ..
  have ha := UnhyphenatedId.getLast?_toName a
  have hb := UnhyphenatedId.getLast?_toName b
  intro h
  cases r <;> cases r' <;> simp only [SnapshotsClash] at h
  rcases h with ⟨-, ⟨-, heq⟩ | ⟨-, heq⟩⟩
  · exact hb (heq ▸ hends _)
  · exact ha (heq ▸ hends _)

end DocumentStore
