import LedgerWire.Proofs.Consumption
import LedgerWire.Proofs.StandardRegistry

/-!
# Headers of registered fields

The header of a field is told apart from all others by its first octet and its length,
if neither of the field's codes is zero. A zero in the first octet stands for a code
that follows, so a field with a zero code has a header that no reader ends with.
-/

namespace LedgerWire

namespace Header

variable {typeCode nth otherType otherNth : Nat}

private theorem half_lt (code : Nat) : half code < 16 := by
  unfold half
  split <;> omega

/-- A code that is not zero needs the longer form if any code with its half does. -/
theorem length_extension_le {code other : Nat} (positive : 0 < code)
    (same : half code = half other) : (extension other).length ≤ (extension code).length := by
  unfold half at same
  unfold extension
  by_cases narrow : other < 16
  · rw [if_pos narrow]
    exact Nat.zero_le _
  · have wide : ¬ code < 16 := by
      intro small
      rw [if_pos small, if_neg narrow] at same
      omega
    rw [if_neg narrow, if_neg wide]
    exact Nat.le_refl 1

private theorem code_unique {code other : Nat} (bound : code < 256) (otherBound : other < 256)
    (halves : half code = half other) (extensions : extension code = extension other) :
    code = other := by
  unfold half at halves
  unfold extension at extensions
  by_cases narrow : code < 16
  · by_cases otherNarrow : other < 16
    · rwa [if_pos narrow, if_pos otherNarrow] at halves
    · rw [if_pos narrow, if_neg otherNarrow] at extensions
      cases extensions
  · by_cases otherNarrow : other < 16
    · rw [if_neg narrow, if_pos otherNarrow] at extensions
      cases extensions
    · rw [if_neg narrow, if_neg otherNarrow] at extensions
      have octets := congrArg UInt8.toNat (List.singleton_inj.mp extensions)
      rwa [UInt8.toNat_ofNat_of_lt' bound, UInt8.toNat_ofNat_of_lt' otherBound] at octets

/-- A header of codes that are not zero starts no header but itself. -/
theorem codes_of_headerOf_prefix (typeBound : typeCode < 256) (nthBound : nth < 256)
    (otherTypeBound : otherType < 256) (otherNthBound : otherNth < 256)
    (typePositive : 0 < typeCode) (nthPositive : 0 < nth)
    (starts : Field.headerOf typeCode nth <+: Field.headerOf otherType otherNth) :
    typeCode = otherType ∧ nth = otherNth := by
  rw [headerOf_eq, headerOf_eq, List.singleton_append, List.singleton_append,
    List.cons_prefix_cons] at starts
  obtain ⟨first, behind⟩ := starts
  have octets := congrArg UInt8.toNat first
  have typeHalf := half_lt typeCode
  have nthHalf := half_lt nth
  have otherTypeHalf := half_lt otherType
  have otherNthHalf := half_lt otherNth
  rw [UInt8.toNat_ofNat_of_lt' (show _ < 256 by omega),
    UInt8.toNat_ofNat_of_lt' (show _ < 256 by omega)] at octets
  have typeSame : half typeCode = half otherType := by omega
  have nthSame : half nth = half otherNth := by omega
  have typeLonger := length_extension_le typePositive typeSame
  have nthLonger := length_extension_le nthPositive nthSame
  have shorter := behind.length_le
  rw [List.length_append, List.length_append] at shorter
  have whole := behind.eq_of_length (by rw [List.length_append, List.length_append]; omega)
  obtain ⟨typeExtension, nthExtension⟩ := List.append_inj whole (by omega)
  exact ⟨code_unique typeBound otherTypeBound typeSame typeExtension,
    code_unique nthBound otherNthBound nthSame nthExtension⟩

/-- Whatever the octets are, no field with a zero code is read from them. -/
theorem positive_of_readField {registry : Registry} {field : Field} {before after : Cursor}
    (succeeded : readField registry before = .ok field after) :
    0 < field.typeCode ∧ 0 < field.nth := by
  obtain ⟨⟨typeCode, nth⟩, middle, headerRead, last⟩ := Read.bind_eq_ok.mp succeeded
  obtain ⟨_, ⟨typePositive, _⟩, nthPositive, _⟩ := read_eq_ok headerRead
  cases found : registry.fieldAt? typeCode nth with
  | none =>
      simp only [found] at last
      cases last
  | some other =>
      simp only [found] at last
      obtain ⟨rfl, rfl⟩ := Read.pure_eq_ok.mp last
      have matched := List.find?_some found
      simp only [Bool.and_eq_true, beq_iff_eq] at matched
      obtain ⟨⟨_, rfl⟩, rfl⟩ := matched
      exact ⟨typePositive, nthPositive⟩

end Header

/-! ## The fields of a registry -/

private theorem Field.header_of_ne_nil {field : Field} (headed : field.header ≠ []) :
    field.serialized = true ∧ field.nth < 256 ∧ field.typeCode < 256 ∧
      field.header = Field.headerOf field.typeCode field.nth := by
  unfold Field.header at headed ⊢
  by_cases fits : field.serialized ∧ field.nth < 256 ∧ field.typeCode < 256
  · rw [if_pos fits]
    exact ⟨fits.1, fits.2.1, fits.2.2, rfl⟩
  · rw [if_neg fits] at headed
    exact absurd rfl headed

namespace Registry

variable {registry : Registry}

private theorem eq_of_header_prefix (distinct : Distinct registry.fields) {field other : Field}
    (member : field ∈ registry.fields) (headed : field.header ≠ [])
    (otherMember : other ∈ registry.fields) (otherHeaded : other.header ≠ [])
    (typePositive : 0 < field.typeCode) (nthPositive : 0 < field.nth)
    (starts : field.header <+: other.header) : other = field := by
  obtain ⟨serialized, nthBound, typeBound, spelled⟩ := Field.header_of_ne_nil headed
  obtain ⟨otherSerialized, otherNthBound, otherTypeBound, otherSpelled⟩ :=
    Field.header_of_ne_nil otherHeaded
  rw [spelled, otherSpelled] at starts
  obtain ⟨typeSame, nthSame⟩ := Header.codes_of_headerOf_prefix typeBound nthBound otherTypeBound
    otherNthBound typePositive nthPositive starts
  have ordinals : other.ordinal = field.ordinal := by
    rw [Field.ordinal, Field.ordinal, typeSame, nthSame]
  exact List.inj_on_of_nodup_map distinct.ordinals
    (List.mem_filter.mpr ⟨otherMember, otherSerialized⟩)
    (List.mem_filter.mpr ⟨member, serialized⟩) ordinals

/-- Of the fields that a loaded registry has headers for, exactly those with neither code
zero are read back from their headers, whatever octets follow, which stay unread. The
header of such a field starts no other field's header. -/
theorem readField_header_iff {text : String} (loaded : Loads text registry) {field : Field}
    (member : field ∈ registry.fields) (headed : field.header ≠ []) :
    ((∀ position rest levels,
        Header.readField registry ⟨position, field.header ++ rest, levels⟩ =
          .ok field ⟨position + field.header.length, rest, levels⟩) ↔
      0 < field.typeCode ∧ 0 < field.nth) ∧
    (0 < field.typeCode → 0 < field.nth → ∀ other ∈ registry.fields, other.header ≠ [] →
      field.header <+: other.header → other = field) := by
  have distinct := distinct_of_loads loaded
  refine ⟨⟨fun taken => ?_, fun positive => ?_⟩, fun typePositive nthPositive other otherMember
    otherHeaded => ?_⟩
  · exact Header.positive_of_readField (taken 0 [] 0)
  · have found := fieldAt?_of_nodup distinct.ordinals member headed
    exact Header.takes_readField positive.1 positive.2 headed found
  · exact eq_of_header_prefix distinct member headed otherMember otherHeaded typePositive
      nthPositive

/-- Definitions of two fields with one place among the fields of their types, of which one
type has the code zero. -/
def zeroType : String :=
  "[\x7b\"UInt8\":0,\"UInt16\":16\x7d,\x7b\x7d,[" ++
    "[\"Zero\",[5,false,true,true,\"UInt8\"]]," ++
    "[\"Sixteen\",[5,false,true,true,\"UInt16\"]]],\x7b\x7d,\x7b\x7d]"

def zeroField : Field := ⟨"Zero", "UInt8", 0, 5, false, true, true⟩

def sixteenField : Field := ⟨"Sixteen", "UInt16", 16, 5, false, true, true⟩

private theorem ofText_zeroType :
    ∃ registry, ofText zeroType = .ok registry ∧ registry.fields = [zeroField, sixteenField] := by
  have evaluated : ((ofText zeroType).toOption.any fun registry =>
      registry.fields == [zeroField, sixteenField]) = true := by
    decide +kernel
  obtain ⟨registry, found, same⟩ := (Option.any_eq_true _ _).mp evaluated
  exact ⟨registry, Outcome.eq_ok_of_toOption found, beq_iff_eq.mp same⟩

/-- The field with a code of its own octet is read back, and its header starts no other. -/
theorem readField_header_iff_sixteen :
    ∃ registry, ofText zeroType = .ok registry ∧ sixteenField ∈ registry.fields ∧
      sixteenField.header = [0x05, 0x10] ∧
      (∀ position rest levels,
        Header.readField registry ⟨position, sixteenField.header ++ rest, levels⟩ =
          .ok sixteenField ⟨position + sixteenField.header.length, rest, levels⟩) ∧
      ¬ sixteenField.header <+: zeroField.header := by
  obtain ⟨registry, loaded, fields⟩ := ofText_zeroType
  have member : sixteenField ∈ registry.fields := by
    rw [fields]
    exact List.mem_cons_of_mem _ (List.mem_singleton_self _)
  have zeroMember : zeroField ∈ registry.fields := by
    rw [fields]
    exact List.mem_cons_self
  obtain ⟨readBack, alone⟩ := readField_header_iff (loads_of_ofText loaded) member (by decide)
  refine ⟨registry, loaded, member, by decide, readBack.mpr (by decide), fun starts => ?_⟩
  have same := alone (by decide) (by decide) zeroField zeroMember (by decide) starts
  exact absurd same (by decide)

/-- The header of the field whose type has the code zero is the first octet of the other
one, and in front of the octet that follows there it is read as the other field. -/
theorem zero_header_read_as_other :
    ∃ registry, ofText zeroType = .ok registry ∧ zeroField ∈ registry.fields ∧
      zeroField.header = [0x05] ∧ sixteenField.header = [0x05, 0x10] ∧
      Header.readField registry (Cursor.start (zeroField.header ++ [0x10])) =
        .ok sixteenField ⟨2, [], 64⟩ := by
  obtain ⟨registry, loaded, fields⟩ := ofText_zeroType
  refine ⟨registry, loaded, ?_, by decide, by decide, ?_⟩
  · rw [fields]
    exact List.mem_cons_self
  · have found : registry.fieldAt? 16 5 = some sixteenField := by
      rw [fieldAt?, fields]
      decide
    have headed : sixteenField.header ≠ [] := by decide
    have taken : Takes (Header.readField registry) sixteenField.header sixteenField :=
      Header.takes_readField (by decide) (by decide) headed found
    exact taken 0 [] 64

end Registry

end LedgerWire
