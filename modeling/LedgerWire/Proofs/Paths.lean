import LedgerWire.Proofs.Amounts
import LedgerWire.Value.PathSet

/-!
# Paths of payments

A hop that has a part starts with an octet that neither separates paths nor ends
the set. So the octets of a set of such hops are read back, but for a lone empty
path, which is read as no path.
-/

namespace LedgerWire

/-! ## Hops -/

namespace Hop

def hasPart (hop : Hop) : Bool := hop.account.isSome || hop.currency.isSome || hop.issuer.isSome

/-- The first octet tells the parts. -/
theorem bits_of_flags (hop : Hop) :
    isFlags hop.flags = true ∧ hasBit hop.flags accountBit = hop.account.isSome ∧
      hasBit hop.flags currencyBit = hop.currency.isSome ∧
      hasBit hop.flags issuerBit = hop.issuer.isSome ∧ hop.flags < 0x40 ∧
      (hop.hasPart = true → hop.flags ≠ 0) := by
  unfold flags hasPart
  generalize hop.account.isSome = account, hop.currency.isSome = currency,
    hop.issuer.isSome = issuer
  revert account currency issuer
  decide

/-- Reads a part that is there. -/
def readPart {α : Type} (present : Bool) (reader : Read α) : Read (Option α) :=
  if present then some <$> reader else pure none

theorem read_eq :
    read = Read.byte >>= fun flags =>
      if !isFlags flags then
        throw (.invalidPathStep (UInt8.ofNat flags))
      else
        readPart (hasBit flags accountBit) (Read.hash 20) >>= fun account =>
          readPart (hasBit flags currencyBit) Currency.read >>= fun currency =>
            readPart (hasBit flags issuerBit) (Read.hash 20) >>= fun issuer =>
              pure { account, currency, issuer } := by
  unfold read readPart
  refine congrArg (Read.byte >>= ·) (funext fun flags => ?_)
  cases isFlags flags with
  | false =>
      rfl
  | true =>
      simp only [Bool.not_true, Bool.false_eq_true, if_false]
      split <;> split <;> split <;> simp

private theorem takes_readPart {α : Type} {reader : Read α} {bytes : α → Bytes}
    (taken : ∀ part, Takes reader (bytes part) part) (part : Option α) :
    Takes (readPart part.isSome reader) (part.elim [] bytes) part := by
  cases part with
  | none =>
      exact Takes.pure none
  | some part =>
      exact (taken part).map some

theorem takes_read (hop : Hop) : Takes read hop.bytes hop := by
  obtain ⟨valid, account, currency, issuer, bound, _⟩ := bits_of_flags hop
  have value : (UInt8.ofNat hop.flags).toNat = hop.flags :=
    UInt8.toNat_ofNat_of_lt' (show _ < 256 by omega)
  have parts : hop.bytes = [UInt8.ofNat hop.flags] ++ (hop.account.elim [] Hash.bytes ++
      (hop.currency.elim [] Currency.bytes ++ hop.issuer.elim [] Hash.bytes)) := by
    simp [bytes]
  rw [parts, read_eq]
  apply (Takes.byte _).bind
  rw [value, valid, account, currency, issuer]
  exact (takes_readPart Takes.hash hop.account).bind <|
    (takes_readPart Currency.takes_read hop.currency).bind <|
      (takes_readPart Takes.hash hop.issuer).bind_pure rfl

/-! ### Documents -/

variable {writing : CheckedText} {entries : List (String × Json)} {hop : Hop}

theorem ofEntries_eq_ok :
    ofEntries writing entries = .ok hop ↔
      (entries.lookup "account").mapM (Account.ofJson writing "account") = .ok hop.account ∧
        (entries.lookup "currency").mapM Currency.ofJson = .ok hop.currency ∧
        (entries.lookup "issuer").mapM (Account.ofJson writing "issuer") = .ok hop.issuer := by
  obtain ⟨account, currency, issuer⟩ := hop
  simp [ofEntries, Outcome.bind_eq_ok]

private theorem hopEntry_eq {α : Type} {read : Json → Except Error α} {key : String}
    {normal : Json → Json} {shown : α → Json} {part : Option α}
    (same : ∀ json value, read json = .ok value → normal json = shown value)
    (found : (entries.lookup key).mapM read = .ok part) :
    NormalForm.hopEntry entries key normal = part.toList.map fun value => (key, shown value) := by
  unfold NormalForm.hopEntry
  cases present : entries.lookup key with
  | none =>
      rw [present] at found
      cases found
      rfl
  | some json =>
      rw [present, Option.mapM_some, map_eq_pure_bind] at found
      obtain ⟨value, given, rfl⟩ := Outcome.bind_pure_eq_ok.mp found
      simp [same json value given]

private theorem normal_of_ofEntries (read : ofEntries writing entries = .ok hop) :
    NormalForm.hop writing (.object entries) = hop.toJson writing := by
  obtain ⟨account, currency, issuer⟩ := ofEntries_eq_ok.mp read
  rw [NormalForm.hop, toJson, hopEntry_eq (fun _ _ => Account.normal_of_ofJson) account,
    hopEntry_eq (fun _ _ => Currency.normal_of_ofJson) currency,
    hopEntry_eq (fun _ _ => Account.normal_of_ofJson) issuer]

private theorem isSome_of_mapM {α : Type} {read : Json → Except Error α} {value : Option Json}
    {part : Option α} (found : value.mapM read = .ok part) : part.isSome = value.isSome := by
  cases value with
  | none =>
      cases found
      rfl
  | some json =>
      rw [Option.mapM_some, map_eq_pure_bind] at found
      obtain ⟨value, _, rfl⟩ := Outcome.bind_pure_eq_ok.mp found
      rfl

end Hop

namespace PathSet

variable {writing : CheckedText}

theorem hopOfJson_eq_ok {json : Json} {hop : Hop} :
    hopOfJson writing json = .ok hop ↔
      ∃ entries, json = .object entries ∧ Hop.ofEntries writing entries = .ok hop := by
  cases json <;> simp [hopOfJson, Json.asObject]

private theorem normal_of_hopOfJson {json : Json} {hop : Hop}
    (read : hopOfJson writing json = .ok hop) :
    NormalForm.hop writing json = hop.toJson writing := by
  obtain ⟨entries, rfl, found⟩ := hopOfJson_eq_ok.mp read
  exact Hop.normal_of_ofEntries found

theorem hopOfJson_toJson (distinctive : writing.Distinctive) (hop : Hop) :
    hopOfJson writing (hop.toJson writing) = .ok hop := by
  refine hopOfJson_eq_ok.mpr ⟨_, rfl, Hop.ofEntries_eq_ok.mpr ?_⟩
  obtain ⟨account, currency, issuer⟩ := hop
  cases account <;> cases currency <;> cases issuer <;>
    simp [List.lookup_cons, Account.ofJson_toJson distinctive, Currency.ofJson_toJson]

theorem pathOfJson_eq_ok {json : Json} {path : Path} :
    pathOfJson writing json = .ok path ↔
      ∃ hops, json = .array hops ∧ hops.mapM (hopOfJson writing) = .ok path := by
  cases json <;> simp [pathOfJson, Json.asArray]

private theorem normal_of_pathOfJson {json : Json} {path : Path}
    (read : pathOfJson writing json = .ok path) :
    NormalForm.path writing json = .array (path.map (Hop.toJson writing)) := by
  obtain ⟨hops, rfl, found⟩ := pathOfJson_eq_ok.mp read
  rw [NormalForm.path, Outcome.map_eq_map_of_mapM found fun _ _ => normal_of_hopOfJson]

theorem ofJson_eq_ok {json : Json} {set : PathSet} :
    ofJson writing json = .ok set ↔
      ∃ paths, json = .array paths ∧ paths.mapM (pathOfJson writing) = .ok set.paths := by
  obtain ⟨read⟩ := set
  cases json <;> simp [ofJson, Json.asArray, Outcome.bind_eq_ok]

/-! ## Octets -/

/-- The set as it is read back: a lone empty path is no path. -/
def settled (set : PathSet) : PathSet := ⟨if set.paths = [[]] then [] else set.paths⟩

theorem bytes_settled (set : PathSet) : set.settled.bytes = set.bytes := by
  obtain ⟨paths⟩ := set
  by_cases lone : paths = [[]]
  · rw [lone]
    rfl
  · rw [settled, if_neg lone]

/-- An octet that ends a path. -/
abbrev IsMark (mark : UInt8) : Prop := mark = separator ∨ mark = terminator

private theorem not_isMark_of_hasPart {hop : Hop} (present : hop.hasPart = true) :
    ¬ IsMark (UInt8.ofNat hop.flags) := by
  obtain ⟨_, _, _, _, bound, nonzero⟩ := Hop.bits_of_flags hop
  have value : (UInt8.ofNat hop.flags).toNat = hop.flags :=
    UInt8.toNat_ofNat_of_lt' (show _ < 256 by omega)
  have positive := nonzero present
  rintro (same | same)
  · have octet := congrArg UInt8.toNat same
    rw [value] at octet
    exact absurd octet (by change hop.flags ≠ 255; omega)
  · have octet := congrArg UInt8.toNat same
    rw [value] at octet
    exact absurd octet positive

/-- Hops are read up to the first octet that ends the path. -/
theorem readHops_eq {path : Path} (stepped : ∀ hop ∈ path, hop.hasPart = true) {mark : UInt8}
    (isMark : IsMark mark) {fuel : Nat} (enough : path.length < fuel) (position : Nat)
    (rest : Bytes) (levels : Nat) :
    readHops fuel ⟨position, pathBytes path ++ mark :: rest, levels⟩ =
      .ok path ⟨position + (pathBytes path).length, mark :: rest, levels⟩ := by
  induction path generalizing fuel position with
  | nil =>
      obtain ⟨fuel, rfl⟩ : ∃ less, fuel = less + 1 := ⟨fuel - 1, by omega⟩
      have seen : Read.peek ⟨position, pathBytes [] ++ mark :: rest, levels⟩ =
          .ok mark ⟨position, mark :: rest, levels⟩ := rfl
      rw [readHops, Read.bind_of_ok seen, if_pos isMark]
      rfl
  | cons hop path inductionHypothesis =>
      obtain ⟨fuel, rfl⟩ : ∃ less, fuel = less + 1 := ⟨fuel - 1, by omega⟩
      have shown : pathBytes (hop :: path) ++ mark :: rest =
          hop.bytes ++ (pathBytes path ++ mark :: rest) := by
        simp [pathBytes]
      have seen : Read.peek ⟨position, hop.bytes ++ (pathBytes path ++ mark :: rest), levels⟩ =
          .ok (UInt8.ofNat hop.flags)
            ⟨position, hop.bytes ++ (pathBytes path ++ mark :: rest), levels⟩ := rfl
      have others := inductionHypothesis
        (fun other member => stepped other (List.mem_cons_of_mem hop member))
        (show path.length < fuel by simpa using enough) (position + hop.bytes.length)
      rw [shown, readHops, Read.bind_of_ok seen,
        if_neg (not_isMark_of_hasPart (stepped hop List.mem_cons_self)),
        Read.bind_of_ok (hop.takes_read position _ levels), Read.bind_of_ok others]
      simp [pathBytes, Nat.add_assoc]

private theorem length_le_pathBytes (path : Path) : path.length ≤ (pathBytes path).length := by
  induction path with
  | nil =>
      exact Nat.le_refl _
  | cons hop path inductionHypothesis =>
      simp only [pathBytes, List.flatMap_cons, List.length_append, List.length_cons,
        Hop.bytes] at inductionHypothesis ⊢
      omega

/-- A path is read with the octet that ends it, and the octet tells whether
another follows. -/
theorem readPaths_step {path : Path} (stepped : ∀ hop ∈ path, hop.hasPart = true) {mark : UInt8}
    (isMark : IsMark mark) (fuel position : Nat) (rest : Bytes) (levels : Nat) :
    readPaths (fuel + 1) ⟨position, pathBytes path ++ mark :: rest, levels⟩ =
      (if mark.toNat = separator.toNat then List.cons path <$> readPaths fuel else pure [path] :
        Read (List Path)) ⟨position + (pathBytes path).length + 1, rest, levels⟩ := by
  have room : path.length <
      Cursor.remaining ⟨position, pathBytes path ++ mark :: rest, levels⟩ + 1 := by
    have bound := length_le_pathBytes path
    simp only [Cursor.remaining, List.length_append]
    omega
  have marked := Takes.byte mark (position + (pathBytes path).length) rest levels
  rw [List.singleton_append] at marked
  rw [readPaths, Read.bind_of_ok (Read.get_apply _),
    Read.bind_of_ok (readHops_eq stepped isMark room position rest levels),
    Read.bind_of_ok marked, map_eq_pure_bind]
  rfl

private theorem readPaths_eq {path : Path} {others : List Path}
    (stepped : ∀ path' ∈ path :: others, ∀ hop ∈ path', hop.hasPart = true) {fuel : Nat}
    (enough : others.length < fuel) (position : Nat) (rest : Bytes) (levels : Nat) :
    readPaths fuel ⟨position, separated (path :: others) ++ terminator :: rest, levels⟩ =
      .ok (path :: others)
        ⟨position + (separated (path :: others) ++ [terminator]).length, rest, levels⟩ := by
  have first := stepped path List.mem_cons_self
  obtain ⟨fuel, rfl⟩ : ∃ less, fuel = less + 1 := ⟨fuel - 1, by omega⟩
  cases others with
  | nil =>
      rw [separated, readPaths_step first (.inr rfl), if_neg (by decide)]
      simp [Nat.add_assoc]
  | cons next others =>
      have later : ∀ path' ∈ next :: others, ∀ hop ∈ path', hop.hasPart = true :=
        fun path' member => stepped path' (List.mem_cons_of_mem path member)
      have fewer : others.length < fuel := by simpa using enough
      have shown : separated (path :: next :: others) ++ terminator :: rest =
          pathBytes path ++ separator :: (separated (next :: others) ++ terminator :: rest) := by
        simp [separated]
      have behind := readPaths_eq later fewer (position + (pathBytes path).length + 1) rest levels
      rw [shown, readPaths_step first (.inl rfl), if_pos rfl, map_eq_pure_bind,
        Read.bind_of_ok behind]
      simp [separated, Nat.add_assoc, Nat.add_comm, Nat.add_left_comm]

private theorem length_le_separated (paths : List Path) :
    paths.length ≤ (separated paths ++ [terminator]).length := by
  match paths with
  | [] =>
      exact Nat.zero_le _
  | [path] =>
      simp [separated]
  | path :: next :: others =>
      have behind := length_le_separated (next :: others)
      simp only [separated, List.length_append, List.length_cons, List.length_nil] at behind ⊢
      omega

theorem takes_read {set : PathSet}
    (stepped : ∀ path ∈ set.paths, ∀ hop ∈ path, hop.hasPart = true) :
    Takes read set.bytes set.settled := by
  intro position rest levels
  obtain ⟨paths⟩ := set
  have bound := length_le_separated paths
  have shown : bytes ⟨paths⟩ ++ rest = separated paths ++ terminator :: rest := by
    simp [bytes]
  rw [shown, read, Read.bind_of_ok (Read.get_apply _)]
  cases paths with
  | nil =>
      have none : ∀ hop ∈ ([] : Path), hop.hasPart = true := by simp
      have single : readPaths (Cursor.remaining ⟨position, terminator :: rest, levels⟩ + 1)
          ⟨position, terminator :: rest, levels⟩ = .ok [[]] ⟨position + 1, rest, levels⟩ :=
        readPaths_step none (.inr rfl) _ position rest levels
      rw [separated, List.nil_append, Read.bind_of_ok single]
      rfl
  | cons path others =>
      have enough : others.length <
          Cursor.remaining
            ⟨position, separated (path :: others) ++ terminator :: rest, levels⟩ + 1 := by
        simp only [Cursor.remaining, List.length_append, List.length_cons, List.length_nil]
          at bound ⊢
        omega
      rw [Read.bind_of_ok (readPaths_eq stepped enough position rest levels)]
      rfl

/-! ## Documents -/

/-- Whether each hop of a set of paths has a part, as a document gives them. -/
def hasSteps : Json → Bool
  | .array paths => paths.all pathHasSteps
  | _ => true
where
  hopHasPart : Json → Bool
    | .object entries =>
        (entries.lookup "account").isSome || (entries.lookup "currency").isSome ||
          (entries.lookup "issuer").isSome
    | _ => true
  pathHasSteps : Json → Bool
    | .array hops => hops.all hopHasPart
    | _ => true

theorem hasPart_of_hopOfJson {json : Json} {hop : Hop} (read : hopOfJson writing json = .ok hop) :
    hop.hasPart = hasSteps.hopHasPart json := by
  obtain ⟨entries, rfl, found⟩ := hopOfJson_eq_ok.mp read
  obtain ⟨account, currency, issuer⟩ := Hop.ofEntries_eq_ok.mp found
  rw [hasSteps.hopHasPart, Hop.hasPart, Hop.isSome_of_mapM account, Hop.isSome_of_mapM currency,
    Hop.isSome_of_mapM issuer]

theorem hasPart_of_hasSteps {json : Json} {set : PathSet} (read : ofJson writing json = .ok set)
    (steps : hasSteps json = true) : ∀ path ∈ set.paths, ∀ hop ∈ path, hop.hasPart = true := by
  intro path pathMember hop hopMember
  obtain ⟨items, rfl, found⟩ := ofJson_eq_ok.mp read
  obtain ⟨item, itemMember, pathRead⟩ :=
    Outcome.exists_of_mem_right (Outcome.mapM_eq_ok.mp found) pathMember
  obtain ⟨hops, rfl, pathFound⟩ := pathOfJson_eq_ok.mp pathRead
  obtain ⟨json, jsonMember, hopRead⟩ :=
    Outcome.exists_of_mem_right (Outcome.mapM_eq_ok.mp pathFound) hopMember
  have pathSteps := List.all_eq_true.mp steps _ itemMember
  rw [hasPart_of_hopOfJson hopRead]
  exact List.all_eq_true.mp pathSteps json jsonMember

/-- What a document gives for a set of paths. -/
structure Faithful (writing : CheckedText) (json : Json) (set : PathSet) : Prop where
  shown : set.settled.toJson writing = NormalForm.pathSet writing json
  again : ofJson writing (set.settled.toJson writing) = .ok set.settled

theorem faithful (distinctive : writing.Distinctive) {json : Json} {set : PathSet}
    (read : ofJson writing json = .ok set) : Faithful writing json set where
  shown := by
    obtain ⟨items, rfl, found⟩ := ofJson_eq_ok.mp read
    obtain ⟨paths⟩ := set
    have same : items.map (NormalForm.path writing) =
        paths.map fun path => .array (path.map (Hop.toJson writing)) :=
      Outcome.map_eq_map_of_mapM found fun _ _ => normal_of_pathOfJson
    unfold NormalForm.pathSet
    split
    · rename_i lone
      cases lone
      obtain rfl : paths = [[]] := by
        simpa [pathOfJson, Json.asArray, eq_comm] using found
      rfl
    · rename_i paths' several same'
      cases same'
      have kept : paths ≠ [[]] := by
        rintro rfl
        rcases Outcome.mapM_eq_ok.mp found with _ | ⟨single, _ | _⟩
        obtain ⟨hops, rfl, none⟩ := pathOfJson_eq_ok.mp single
        cases Outcome.mapM_eq_ok.mp none
        exact several rfl
      rw [settled, if_neg kept, toJson, same]
    · rename_i other
      exact absurd rfl (other items)
  again := by
    refine ofJson_eq_ok.mpr ⟨_, rfl, Outcome.mapM_map_eq_ok fun path _ => ?_⟩
    exact pathOfJson_eq_ok.mpr ⟨_, rfl, Outcome.mapM_map_eq_ok fun hop _ =>
      hopOfJson_toJson distinctive hop⟩

end PathSet

end LedgerWire
