import LedgerWire.Proofs.IntegerLiterals
import LedgerWire.Proofs.Outcome
import LedgerWire.Proofs.Spelling
import LedgerWire.Value.Scalar

/-!
# Integers out of range

An integer of a document that is given for an unsigned integer of at most four octets is
taken, or it is out of range, as long as it is within the bits that are looked at: 64 for
a literal and 128 for a text. Past these bits it is taken for no integer at all.
-/

namespace LedgerWire

/-! ## Small integers -/

/-- The unsigned integers of at most four octets. -/
inductive NarrowKind
  | uint8
  | uint16
  | uint32

namespace NarrowKind

def kind : NarrowKind → ScalarKind
  | uint8 => .uint8
  | uint16 => .uint16
  | uint32 => .uint32

def typeName : NarrowKind → String
  | uint8 => "UInt8"
  | uint16 => "UInt16"
  | uint32 => "UInt32"

def width : NarrowKind → Nat
  | uint8 => 1
  | uint16 => 2
  | uint32 => 4

def scalar : NarrowKind → Nat → Scalar
  | uint8, value => .uint8 (UInt8.ofNat value)
  | uint16, value => .uint16 (UInt16.ofNat value)
  | uint32, value => .uint32 (UInt32.ofNat value)

/-- The integer that a scalar of a kind is. -/
inductive Holds : NarrowKind → Int → Scalar → Prop
  | uint8 (value : UInt8) : Holds uint8 value.toNat (.uint8 value)
  | uint16 (value : UInt16) : Holds uint16 value.toNat (.uint16 value)
  | uint32 (value : UInt32) : Holds uint32 value.toNat (.uint32 value)

def Fits (narrow : NarrowKind) (value : Int) : Prop :=
  0 ≤ value ∧ value < 256 ^ narrow.width

instance (narrow : NarrowKind) (value : Int) : Decidable (narrow.Fits value) :=
  inferInstanceAs (Decidable (_ ∧ _))

private theorem ofJson_kind (narrow : NarrowKind) (context : Context) (json : Json) :
    Scalar.ofJson context json narrow.kind =
      narrow.scalar <$> Unsigned.ofJson narrow.typeName narrow.width json := by
  cases narrow <;> exact bind_pure_comp _ _

private theorem pow_width_le (narrow : NarrowKind) : (256 : Int) ^ narrow.width ≤ 2 ^ 64 := by
  cases narrow <;> decide

theorem holds_iff {narrow : NarrowKind} {value : Int} {scalar : Scalar} :
    narrow.Holds value scalar ↔ narrow.Fits value ∧ narrow.scalar value.toNat = scalar := by
  constructor
  · rintro (byte | half | word)
    · exact ⟨⟨Int.natCast_nonneg _, Int.ofNat_lt.mpr byte.toNat_lt⟩, by simp [NarrowKind.scalar]⟩
    · exact ⟨⟨Int.natCast_nonneg _, Int.ofNat_lt.mpr half.toNat_lt⟩, by simp [NarrowKind.scalar]⟩
    · exact ⟨⟨Int.natCast_nonneg _, Int.ofNat_lt.mpr word.toNat_lt⟩, by simp [NarrowKind.scalar]⟩
  · rintro ⟨⟨nonnegative, small⟩, rfl⟩
    obtain ⟨number, rfl⟩ := Int.eq_ofNat_of_zero_le nonnegative
    cases narrow with
    | uint8 =>
        have held : (UInt8.ofNat number).toNat = number :=
          UInt8.toNat_ofNat_of_lt (Int.ofNat_lt.mp small)
        have holds := Holds.uint8 (UInt8.ofNat number)
        rwa [held] at holds
    | uint16 =>
        have held : (UInt16.ofNat number).toNat = number :=
          UInt16.toNat_ofNat_of_lt (Int.ofNat_lt.mp small)
        have holds := Holds.uint16 (UInt16.ofNat number)
        rwa [held] at holds
    | uint32 =>
        have held : (UInt32.ofNat number).toNat = number :=
          UInt32.toNat_ofNat_of_lt (Int.ofNat_lt.mp small)
        have holds := Holds.uint32 (UInt32.ofNat number)
        rwa [held] at holds

private theorem ofJson_of_wide (narrow : NarrowKind) {json : Json} {value : Int}
    (nonnegative : 0 ≤ value) (read : Unsigned.wideOfJson narrow.typeName json = .ok value.toNat) :
    Unsigned.ofJson narrow.typeName narrow.width json =
      if narrow.Fits value then .ok value.toNat
      else .error (.outOfRange narrow.typeName (toString value.toNat)) := by
  have fits : narrow.Fits value ↔ value.toNat < 256 ^ narrow.width := by
    rw [Fits, and_iff_right nonnegative, ← Int.ofNat_lt, Int.toNat_of_nonneg nonnegative]
    norm_cast
  rw [Unsigned.ofJson, read, if_congr fits rfl rfl]
  rfl

private theorem ofJson_of_wide_error (narrow : NarrowKind) {json : Json} {fault : Error}
    (refused : Unsigned.wideOfJson narrow.typeName json = .error fault) :
    Unsigned.ofJson narrow.typeName narrow.width json = .error fault := by
  rw [Unsigned.ofJson, refused]
  rfl

end NarrowKind

/-! ## Integers in documents -/

open Decimal (Sign digitChar signed)

/-- The ways a document gives an integer: by a literal, or by a text of digits, perhaps
with a sign and with zeros in front. -/
inductive WrittenInteger
  | literal (negative : Bool) (magnitude : Nat)
  | text (sign : Option Sign) (digits : List (Fin 10)) (nonempty : digits ≠ [])

namespace WrittenInteger

def value : WrittenInteger → Int
  | literal negative magnitude => signed negative magnitude
  | text sign digits _ => signed (Sign.isMinus sign) (Text.wholeValue digits : Int)

def shownText (sign : Option Sign) (digits : List (Fin 10)) : String :=
  String.ofList (Sign.chars sign ++ digits.map digitChar)

/-- The value that is read; a literal past all floating-point numbers is refused before. -/
def json? : WrittenInteger → Option Json
  | literal negative magnitude => Json.parse? (Json.integerLiteral negative magnitude)
  | text sign digits _ => some (.string (shownText sign digits))

/-- Whether the integer is within the bits that are looked at. -/
def Seen : WrittenInteger → Prop
  | literal negative magnitude => Json.Representable negative magnitude
  | integer@(text ..) => -2 ^ 127 ≤ integer.value ∧ integer.value < 2 ^ 127

/-- How an integer that is out of range is named. -/
def named : WrittenInteger → String
  | literal negative magnitude => Json.integerLiteral negative magnitude
  | integer@(text sign digits _) =>
      if 0 ≤ integer.value ∧ integer.value < 2 ^ 64 then
        toString integer.value.toNat
      else
        shownText sign digits

private theorem ofText?_shownText (sign : Option Sign) {digits : List (Fin 10)}
    (nonempty : digits ≠ []) :
    Unsigned.ofText? (shownText sign digits) =
      let value := (text sign digits nonempty).value
      if -2 ^ 127 ≤ value ∧ value < 2 ^ 127 then some value else none := by
  have read : Text.signed? (shownText sign digits).toList =
      some (text sign digits nonempty).value := by
    rw [shownText, String.toList_ofList]
    exact Decimal.signed?_digits sign nonempty
  rw [Unsigned.ofText?, read, Option.filter_some]
  simp only [Bool.and_eq_true, decide_eq_true_eq]

/-- Within the bits that are looked at an integer is taken or out of range. -/
theorem ofJson_of_seen {integer : WrittenInteger} {json : Json} (given : integer.json? = some json)
    (seen : integer.Seen) (narrow : NarrowKind) :
    Unsigned.ofJson narrow.typeName narrow.width json =
      if narrow.Fits integer.value then .ok integer.value.toNat
      else .error (.outOfRange narrow.typeName integer.named) := by
  cases integer with
  | literal negative magnitude =>
      rw [json?, (Json.parse?_integerLiteral negative magnitude).1 seen] at given
      cases given
      cases negative with
      | false =>
          exact narrow.ofJson_of_wide (Int.natCast_nonneg magnitude) rfl
      | true =>
          have outside : ¬ narrow.Fits (literal true magnitude).value := by
            rintro ⟨nonnegative, _⟩
            have positive : 0 < magnitude := seen.1
            change 0 ≤ -(magnitude : Int) at nonnegative
            omega
          rw [if_neg outside]
          exact narrow.ofJson_of_wide_error rfl
  | text sign digits nonempty =>
      cases given
      have read : Unsigned.ofText? (shownText sign digits) =
          some (text sign digits nonempty).value :=
        (ofText?_shownText sign nonempty).trans (if_pos seen)
      by_cases wide : 0 ≤ (text sign digits nonempty).value ∧
          (text sign digits nonempty).value < 2 ^ 64
      · rw [named, if_pos wide]
        apply narrow.ofJson_of_wide wide.1
        rw [Unsigned.wideOfJson, read]
        exact if_pos wide
      · have outside : ¬ narrow.Fits (text sign digits nonempty).value := fun fits =>
          wide ⟨fits.1, Int.lt_of_lt_of_le fits.2 narrow.pow_width_le⟩
        rw [named, if_neg wide, if_neg outside]
        apply narrow.ofJson_of_wide_error
        rw [Unsigned.wideOfJson, read]
        exact if_neg wide

/-- Past them it is called no integer. -/
theorem ofJson_of_not_seen {integer : WrittenInteger} {json : Json}
    (given : integer.json? = some json) (unseen : ¬ integer.Seen) (narrow : NarrowKind) :
    ∃ shown, Unsigned.ofJson narrow.typeName narrow.width json =
      .error (.invalidValue narrow.typeName (.notInteger shown)) := by
  cases integer with
  | literal negative magnitude =>
      obtain ⟨value, rfl⟩ := (Json.parse?_integerLiteral negative magnitude).2 unseen json given
      exact ⟨value.toText, rfl⟩
  | text sign digits nonempty =>
      cases given
      have read : Unsigned.ofText? (shownText sign digits) = none :=
        (ofText?_shownText sign nonempty).trans (if_neg unseen)
      refine ⟨Text.quoted (shownText sign digits), narrow.ofJson_of_wide_error ?_⟩
      rw [Unsigned.wideOfJson, read]

/-- Every integer has a literal and a text. -/
theorem exists_written (integer : Int) : ∃ literal text : WrittenInteger,
    (literal.value = integer ∧ literal.json? = Json.parse? (toString integer)) ∧
      text.value = integer ∧ text.json? = some (.string (toString integer)) := by
  cases integer with
  | ofNat magnitude =>
      obtain ⟨first, rest, shown, spelled, _⟩ := Json.exists_digits magnitude
      refine ⟨literal false magnitude, text none (first :: rest) (List.cons_ne_nil _ _),
        ⟨rfl, congrArg Json.parse? String.empty_append⟩, ?_, ?_⟩
      · change ((Text.wholeValue (first :: rest) : Nat) : Int) = magnitude
        rw [spelled]
      · change some (Json.string (String.ofList ((first :: rest).map digitChar))) = _
        rw [← shown, String.ofList_toList]
        rfl
  | negSucc predecessor =>
      obtain ⟨first, rest, shown, spelled, _⟩ := Json.exists_digits (predecessor + 1)
      refine ⟨literal true (predecessor + 1),
        text (some .minus) (first :: rest) (List.cons_ne_nil _ _), ⟨rfl, rfl⟩, ?_, ?_⟩
      · change -((Text.wholeValue (first :: rest) : Nat) : Int) = _
        rw [spelled]
        rfl
      · change some (Json.string (String.ofList (['-'] ++ (first :: rest).map digitChar))) = _
        rw [← shown, String.ofList_append, String.ofList_toList]
        rfl

end WrittenInteger

/-! ## What becomes of an integer -/

namespace NarrowKind

/-- The three ways an integer may go. It is called no integer unless it is within the bits
that are looked at, and else it is out of range unless it is one of the kind. -/
structure Judged (narrow : NarrowKind) (outcome : Except Error Scalar) (value : Int)
    (seen : Prop) (named : String) : Prop where
  taken : (∃ scalar, outcome = .ok scalar) ↔ seen ∧ narrow.Fits value
  holds : ∀ scalar, outcome = .ok scalar → narrow.Holds value scalar
  outOfRange : outcome = .error (.outOfRange narrow.typeName named) ↔ seen ∧ ¬ narrow.Fits value
  notInteger : (∃ shown, outcome = .error (.invalidValue narrow.typeName (.notInteger shown))) ↔
    ¬ seen
  /-- All that is refused within the bits is refused for its range. -/
  ranged : ∀ fault, outcome = .error fault → (fault.errorClass = .range ↔ seen)

/-- An integer that fits is taken and another is out of range, unless the literal is past
64 bits or the text past 128. Each literal within them is read. -/
theorem judged_of_integer (narrow : NarrowKind) (context : Context) (integer : WrittenInteger) :
    (integer.Seen → ∃ json, integer.json? = some json) ∧
      ∀ json, integer.json? = some json →
        narrow.Judged (Scalar.ofJson context json narrow.kind) integer.value integer.Seen
          integer.named := by
  refine ⟨fun seen => ?_, fun json given => ?_⟩
  · cases integer with
    | literal negative magnitude =>
        exact ⟨_, (Json.parse?_integerLiteral negative magnitude).1 seen⟩
    | text sign digits nonempty =>
        exact ⟨_, rfl⟩
  · rw [ofJson_kind]
    by_cases seen : integer.Seen
    · rw [integer.ofJson_of_seen given seen narrow]
      by_cases fits : narrow.Fits integer.value
      · rw [if_pos fits]
        have held := holds_iff.mpr ⟨fits, rfl⟩
        constructor <;> simp [seen, fits, held]
      · rw [if_neg fits]
        constructor <;> simp [seen, fits, Error.errorClass]
    · obtain ⟨shown, refused⟩ := integer.ofJson_of_not_seen given seen narrow
      rw [refused]
      constructor <;> simp [seen, Error.errorClass]

/-- The greatest literal within the bits, a text below zero, and one with zeros in front. -/
theorem judged_of_integer_edges :
    Scalar.ofJson Context.standard (.number (.whole 18446744073709551615)) .uint32 =
        .error (.outOfRange "UInt32" "18446744073709551615") ∧
      Scalar.ofJson Context.standard (.string "-5") .uint16 = .error (.outOfRange "UInt16" "-5") ∧
      ∃ scalar, Scalar.ofJson Context.standard (.string "+00255") .uint8 = .ok scalar := by
  have greatest := (judged_of_integer uint32 Context.standard
    (.literal false 18446744073709551615)).2 (.number (.whole 18446744073709551615)) (by rfl)
  have negative := (judged_of_integer uint16 Context.standard
    (.text (some .minus) [5] (by decide))).2 (.string "-5") (by rfl)
  have padded := (judged_of_integer uint8 Context.standard
    (.text (some .plus) [0, 0, 2, 5, 5] (by decide))).2 (.string "+00255") (by rfl)
  have within : 18446744073709551615 < 2 ^ 64 := by decide
  exact ⟨greatest.outOfRange.mpr ⟨within, by decide +kernel⟩,
    negative.outOfRange.mpr ⟨⟨by decide +kernel, by decide +kernel⟩, by decide +kernel⟩,
    padded.taken.mpr ⟨⟨by decide +kernel, by decide +kernel⟩, by decide +kernel⟩⟩

/-- Whether an integer of a document is called none, in every context. -/
def CalledNoInteger (narrow : NarrowKind) (integer : WrittenInteger) (shown : String) : Prop :=
  ∃ json, integer.json? = some json ∧ ∀ context, Scalar.ofJson context json narrow.kind =
    .error (.invalidValue narrow.typeName (.notInteger shown))

private theorem calledNoInteger_of_float {negative : Bool} {magnitude : Nat} {value : Binary64}
    (read : Json.numberOfParts? negative (toString magnitude).toList none none =
      some (.float value)) (narrow : NarrowKind) :
    CalledNoInteger narrow (.literal negative magnitude) value.toText := by
  refine ⟨.number (.float value), ?_, fun context => narrow.ofJson_kind context _⟩
  rw [WrittenInteger.json?, Json.parse?_eq_numberOfParts?, read]
  rfl

/-- The literals just past the bits, a text past them, and a zero behind a minus, which
would fit. -/
theorem integers_called_none :
    CalledNoInteger uint8 (.literal false 18446744073709551616) "1.8446744073709552e+19" ∧
      CalledNoInteger uint32 (.literal true 9223372036854775809) "-9.223372036854776e+18" ∧
      CalledNoInteger uint16 (.text none (Text.wholeDigits (2 ^ 127)) (by decide +kernel))
        "\"170141183460469231731687303715884105728\"" ∧
      uint8.Fits 0 ∧ CalledNoInteger uint8 (.literal true 0) "-0.0" := by
  have above : Json.numberOfParts? false (toString 18446744073709551616).toList none none =
      some (.float ⟨false, 2 ^ 52, 12⟩) := by
    decide +kernel
  have below : Json.numberOfParts? true (toString 9223372036854775809).toList none none =
      some (.float ⟨true, 2 ^ 52, 11⟩) := by
    decide +kernel
  have zero : Json.numberOfParts? true (toString 0).toList none none =
      some (.float ⟨true, 0, -1074⟩) := by
    decide +kernel
  exact ⟨calledNoInteger_of_float above uint8, calledNoInteger_of_float below uint32,
    ⟨_, rfl, fun _ => by rfl⟩, by decide, calledNoInteger_of_float zero uint8⟩

end NarrowKind

end LedgerWire
