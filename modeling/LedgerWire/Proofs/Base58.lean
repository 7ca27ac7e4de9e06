import LedgerWire.Address.Base58
import LedgerWire.Proofs.Outcome
import LedgerWire.Proofs.Positional
import Mathlib.Data.List.TakeWhile

/-!
# Checked texts

A text is read as octets exactly when it is the text of these octets, with and
without a checksum. Its length is that of the number the octets spell.
-/

namespace LedgerWire

namespace Radix

/-- Zeros in front stand for themselves, and the rest is one number. -/
def recast (source target : Nat) (spelled : List Nat) : List Nat :=
  spelled.takeWhile (· == 0) ++ digits target (value source spelled)

private theorem recast_lt {source target : Nat} (large : 1 < target) (spelled : List Nat) :
    ∀ digit ∈ recast source target spelled, digit < target := by
  intro digit member
  rcases List.mem_append.mp member with leading | behind
  · have isZero := List.mem_takeWhile_imp leading
    simp only [beq_iff_eq] at isZero
    omega
  · exact digits_lt large _ digit behind

private theorem takeWhile_recast (source target : Nat) (spelled : List Nat) :
    (recast source target spelled).takeWhile (· == 0) = spelled.takeWhile (· == 0) := by
  have leading : ∀ digit ∈ spelled.takeWhile (· == 0), (digit == 0) = true := by
    intro digit member
    simpa using List.mem_takeWhile_imp member
  rw [recast, List.takeWhile_append_of_pos leading]
  match shown : digits target (value source spelled) with
  | [] => simp
  | first :: rest =>
      have kept := List.head?_dropWhile_not (fun digit : Nat => digit == 0)
        (lowDigits (value source spelled).log2 target (value source spelled)).reverse
      rw [← digits, shown] at kept
      have nonzero : (first == 0) = false := by simpa using kept
      simp [nonzero]

private theorem value_recast (source target : Nat) (spelled : List Nat) :
    value target (recast source target spelled) = value source spelled := by
  have leading : spelled.takeWhile (· == 0) =
      List.replicate (spelled.takeWhile (· == 0)).length 0 := by
    rw [List.eq_replicate_iff]
    exact ⟨rfl, fun digit member => by simpa using List.mem_takeWhile_imp member⟩
  rw [recast, leading, value_replicate_zero, value_digits]

/-- Changing the base twice changes nothing. -/
theorem recast_recast {source target : Nat} (large : 1 < source) {spelled : List Nat}
    (bounded : ∀ digit ∈ spelled, digit < source) :
    recast target source (recast source target spelled) = spelled := by
  rw [recast, takeWhile_recast, value_recast, digits_value large bounded,
    List.takeWhile_append_dropWhile]

end Radix

namespace Base58

/-! ## Digits -/

theorem digitValue?_digit {value : Nat} (bound : value < 58) :
    (digit value).toNat < 128 ∧ digitValue? (digit value) = some value := by
  have checked : ∀ value < 58,
      (digit value).toNat < 128 ∧ digitValue? (digit value) = some value := by
    decide +kernel
  exact checked value bound

theorem digit_of_digitValue? {c : Char} {value : Nat} (read : digitValue? c = some value) :
    digit value = c ∧ value < 58 := by
  obtain ⟨bound, found, _⟩ := List.findIdx?_eq_some_iff_getElem.mp read
  have size : alphabet.length = 58 := by decide +kernel
  have same : alphabet[value] = c := by simpa using found
  refine ⟨?_, by omega⟩
  simp [digit, List.getD, bound, same]

theorem readDigits_eq_ok {done values : List Nat} {position : Nat} {chars : List Char} :
    readDigits done position chars = .ok values ↔
      ∃ read, values = done.reverse ++ read ∧ chars = read.map digit ∧
        ∀ value ∈ read, value < 58 := by
  fun_induction readDigits done position chars with
  | case1 done position =>
      constructor
      · intro read
        cases read
        exact ⟨[], by simp⟩
      · rintro ⟨read, rfl, empty, _⟩
        simp [List.map_eq_nil_iff.mp empty.symm]
  | case2 done position c rest wide =>
      constructor
      · intro read
        cases read
      · rintro ⟨read, _, shown, bounded⟩
        match read, shown with
        | value :: others, shown =>
            have ascii := (digitValue?_digit (bounded value List.mem_cons_self)).1
            simp only [List.map_cons, List.cons.injEq] at shown
            rw [← shown.1] at ascii
            omega
  | case3 done position c rest ascii unknown =>
      constructor
      · intro read
        cases read
      · rintro ⟨read, _, shown, bounded⟩
        match read, shown with
        | value :: others, shown =>
            have known := (digitValue?_digit (bounded value List.mem_cons_self)).2
            simp only [List.map_cons, List.cons.injEq] at shown
            rw [← shown.1, unknown] at known
            cases known
  | case4 done position c rest ascii value found inductionHypothesis =>
      obtain ⟨same, bound⟩ := digit_of_digitValue? found
      rw [inductionHypothesis]
      constructor
      · rintro ⟨read, rfl, rfl, bounded⟩
        exact ⟨value :: read, by simp, by simp [same], by simpa [bound] using bounded⟩
      · rintro ⟨read, rfl, shown, bounded⟩
        match read, shown with
        | other :: others, shown =>
            simp only [List.map_cons, List.cons.injEq] at shown
            have known := (digitValue?_digit (bounded other List.mem_cons_self)).2
            rw [← shown.1, found] at known
            cases known
            exact ⟨others, by simp, shown.2, fun value member =>
              bounded value (List.mem_cons_of_mem _ member)⟩

/-! ## Octets -/

private theorem encode_eq_recast (bytes : Bytes) :
    encode bytes = String.ofList ((Radix.recast 256 58 (bytes.map UInt8.toNat)).map digit) := by
  have zeros : (bytes.map UInt8.toNat).takeWhile (· == 0) =
      (bytes.takeWhile (· == 0)).map fun _ => 0 := by
    induction bytes with
    | nil =>
        rfl
    | cons byte rest inductionHypothesis =>
        by_cases isZero : byte = 0
        · simp [isZero, inductionHypothesis]
        · have nonzero : byte.toNat ≠ 0 := by
            intro none
            exact isZero (UInt8.toNat_inj.mp none)
          simp [isZero, nonzero]
  simp [encode, Radix.recast, zeros]

/-- The digit for nothing is no digit of the alphabet. -/
theorem zero_notMem_encode (bytes : Bytes) : '0' ∉ (encode bytes).toList := by
  have others : ∀ value < 58, digit value ≠ '0' := by
    decide +kernel
  rw [encode_eq_recast, String.toList_ofList, List.mem_map]
  rintro ⟨value, member, same⟩
  exact others value (Radix.recast_lt (by omega) _ value member) same

private theorem map_toNat_lt (bytes : Bytes) : ∀ value ∈ bytes.map UInt8.toNat, value < 256 := by
  intro value member
  obtain ⟨byte, _, rfl⟩ := List.mem_map.mp member
  exact byte.toNat_lt

private theorem map_ofNat_toNat (bytes : Bytes) :
    (bytes.map UInt8.toNat).map UInt8.ofNat = bytes := by
  rw [List.map_map]
  exact (List.map_congr_left fun byte _ => UInt8.ofNat_toNat).trans (List.map_id bytes)

private theorem map_toNat_ofNat {values : List Nat} (bounded : ∀ value ∈ values, value < 256) :
    (values.map UInt8.ofNat).map UInt8.toNat = values := by
  rw [List.map_map]
  refine (List.map_congr_left fun value member => ?_).trans (List.map_id values)
  exact UInt8.toNat_ofNat_of_lt' (bounded value member)

private theorem decode_eq_readDigits (text : String) :
    decode text = (readDigits [] 0 text.toList).map fun values =>
      (Radix.recast 58 256 values).map UInt8.ofNat := by
  unfold decode
  cases readDigits [] 0 text.toList with
  | error fault =>
      rfl
  | ok values =>
      have zeros : (values.takeWhile (· == 0)).map UInt8.ofNat =
          (values.takeWhile (· == 0)).map fun _ => 0 := by
        refine List.map_congr_left fun value member => ?_
        have isZero : value = 0 := by simpa using List.mem_takeWhile_imp member
        rw [isZero]
        rfl
      simp [Except.map, Radix.recast, zeros]

theorem decode_eq_ok {text : String} {bytes : Bytes} :
    decode text = .ok bytes ↔ text = encode bytes := by
  rw [decode_eq_readDigits, encode_eq_recast]
  constructor
  · intro decoded
    cases read : readDigits [] 0 text.toList with
    | error fault =>
        rw [read] at decoded
        cases decoded
    | ok values =>
        rw [read] at decoded
        cases decoded
        rw [readDigits_eq_ok] at read
        obtain ⟨others, same, shown, bounded⟩ := read
        rw [List.reverse_nil, List.nil_append] at same
        subst same
        rw [map_toNat_ofNat (Radix.recast_lt (by omega) _), Radix.recast_recast (by omega) bounded,
          ← shown, String.ofList_toList]
  · rintro rfl
    have read : readDigits [] 0 (String.ofList
        ((Radix.recast 256 58 (bytes.map UInt8.toNat)).map digit)).toList =
        .ok (Radix.recast 256 58 (bytes.map UInt8.toNat)) := by
      rw [readDigits_eq_ok]
      exact ⟨Radix.recast 256 58 (bytes.map UInt8.toNat), by simp, by simp,
        Radix.recast_lt (by omega) _⟩
    rw [read]
    simp only [Except.map]
    rw [Radix.recast_recast (by omega) (map_toNat_lt bytes), map_ofNat_toNat]

/-! ## Checksums -/

@[simp]
theorem length_checksum (payload : Bytes) : (checksum payload).length = 4 := by
  simp [checksum]

theorem decodeChecked_eq_ok {text : String} {payload : Bytes} :
    decodeChecked text = .ok payload ↔ text = encodeChecked payload := by
  unfold decodeChecked encodeChecked
  constructor
  · intro decoded
    obtain ⟨bytes, read, checked⟩ := Outcome.bind_eq_ok.mp decoded
    rw [decode_eq_ok] at read
    subst read
    by_cases short : bytes.length < 4
    · simp [short] at checked
    · by_cases matching : checksum (bytes.take (bytes.length - 4)) = bytes.drop (bytes.length - 4)
      · simp [short, matching] at checked
        rw [← checked, matching, List.take_append_drop]
      · simp [short, matching] at checked
  · rintro rfl
    have decoded : decode (encode (payload ++ checksum payload)) =
        .ok (payload ++ checksum payload) := by
      rw [decode_eq_ok]
    rw [decoded]
    simp

/-! ## Lengths -/

/-- A text of 35 octets whose first is four or five has 47 digits. -/
theorem length_encode_of_lead {first : UInt8} {rest : Bytes} (lead : first = 4 ∨ first = 5)
    (size : rest.length = 34) : (encode (first :: rest)).length = 47 := by
  have leadValue : first.toNat = 4 ∨ first.toNat = 5 := by
    rcases lead with rfl | rfl
    · exact .inl rfl
    · exact .inr rfl
  have nonzero : (first == 0) = false := by
    rcases lead with rfl | rfl <;> rfl
  have restBound := Radix.value_lt (by omega) (map_toNat_lt rest)
  rw [List.length_map, size] at restBound
  let number := Radix.value 256 (first.toNat :: rest.map UInt8.toNat)
  have split : number = first.toNat * 256 ^ 34 + Radix.value 256 (rest.map UInt8.toNat) := by
    rw [← size, ← List.length_map UInt8.toNat]
    exact Radix.value_cons 256 first.toNat (rest.map UInt8.toNat)
  have least : 58 ^ 46 ≤ number := by
    norm_num at restBound split ⊢
    omega
  have greatest : number < 58 ^ 47 := by
    norm_num at restBound split ⊢
    omega
  have large : 1 < 58 := by omega
  have upper := (Radix.length_digits_le_iff large number 47).mpr greatest
  have lower : ¬ (Radix.digits 58 number).length ≤ 46 := fun few =>
    Nat.not_lt.mpr least ((Radix.length_digits_le_iff large number 46).mp few)
  have shown : (encode (first :: rest)).length = (Radix.digits 58 number).length := by
    simp [encode, nonzero, ← String.length_toList, number]
  omega

end Base58

end LedgerWire
