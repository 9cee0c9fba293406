import Nip05d.Scripted

/-!
# Slatepack addresses

An address decodes to a key exactly when its normalized text is the encoding of
the key with one of the two prefixes and either checksum constant
(`decodeGrinAddress_eq_some`). The encoder uses only one of the two, so decoding
is its inverse exactly on the texts that are not spelled with the other.
-/

namespace Nip05d

open Auth Concurrent Handlers Proof

/-- The normalized text is the bech32m encoding of a key. -/
def SpelledBech32m (app : App) (address : String) : Prop :=
  ∃ hrp ∈ grinHrps, ∃ key : Bytes32, normalizeGrinAddress app address =
    Bech32.encode hrp (Bech32.toBase32 key.bytes) .bech32m

/-- The prefix of an address. -/
def addressHrp (app : App) (address : String) : Option String :=
  (Bech32.decode (normalizeGrinAddress app address)).map Prod.fst

section

variable {app : App} {address hrp : String} {key : Bytes32}

theorem grinHrps_checked (known : hrp ∈ grinHrps) :
    Bech32.checkHrp (Text.chars hrp) = some .lower := by
  have all : ∀ hrp ∈ grinHrps, Bech32.checkHrp (Text.chars hrp) = some .lower := by decide
  exact all hrp known

theorem decode_grin (known : hrp ∈ grinHrps) (data : List Bech32.U5) (variant : Bech32.Variant) :
    Bech32.decode (Bech32.encode hrp data variant) = some (hrp, data, variant) :=
  Bech32.decode_encode (grinHrps_checked known) (by decide) data variant

/-- What addresses decode to a key. -/
theorem decodeGrinAddress_eq_some : decodeGrinAddress app address = some key ↔
    ∃ hrp ∈ grinHrps, ∃ variant, normalizeGrinAddress app address =
      Bech32.encode hrp (Bech32.toBase32 key.bytes) variant := by
  constructor
  · intro decoded
    obtain ⟨hrp, known, data, variant, found, bytes⟩ := decodeGrinAddress_parts decoded
    refine ⟨hrp, known, variant, ?_⟩
    rw [Bech32.decode_eq_encode (normalizeGrinAddress_plain address) found,
      Bech32.fromBase32_inj bytes (Bech32.fromBase32_toBase32 key.bytes)]
  · rintro ⟨hrp, known, variant, same⟩
    simp only [decodeGrinAddress, same, decode_grin known, Option.bind_eq_bind, Option.bind_some,
      Bech32.fromBase32_toBase32]
    rw [if_neg (not_not.2 (List.contains_iff_mem.2 known)), Bytes32.ofBytes_eq_some]

/-- Normalizing leaves lower-case visible ASCII alone. -/
theorem normalizeGrinAddress_of_plain (plain : ∀ c ∈ Text.chars address,
    c.toNat < 128 ∧ c.isUpper = false ∧ Text.isWhitespace c = false) :
    normalizeGrinAddress app address = address := by
  have trimmed : Text.Trimmed (Text.chars address) :=
    ⟨fun c first => (plain c (List.mem_of_head? first)).2.2,
      fun c last => (plain c (List.mem_of_getLast? last)).2.2⟩
  have trim_ : Text.trim address = address := by
    rw [Text.trim, trimmed.eq, Text.ofList_chars]
  rw [normalizeGrinAddress, trim_, App.toLowercase, ← Text.chars_inj,
    Text.toLowercase_of_ascii fun c member => (plain c member).1]
  refine (List.map_congr_left fun c member => ?_).trans (List.map_id _)
  exact Text.toLower_of_not_upper (plain c member).2.1

theorem encode_plain (known : hrp ∈ grinHrps) (data : List Bech32.U5) (variant : Bech32.Variant) :
    ∀ c ∈ Text.chars (Bech32.encode hrp data variant),
      c.toNat < 128 ∧ c.isUpper = false ∧ Text.isWhitespace c = false := by
  have table : grinHrps.all (fun hrp => (Text.chars hrp).all fun c =>
      decide (c.toNat < 128) && !c.isUpper && !Text.isWhitespace c) = true := by decide
  have prefixes : ∀ hrp ∈ grinHrps, ∀ c ∈ Text.chars hrp,
      c.toNat < 128 ∧ c.isUpper = false ∧ Text.isWhitespace c = false := by
    intro hrp known c front
    simpa [and_assoc] using List.all_eq_true.1 (List.all_eq_true.1 table hrp known) c front
  have symbols : ∀ v, (Bech32.symbol v).toNat < 128 ∧ (Bech32.symbol v).isUpper = false ∧
      Text.isWhitespace (Bech32.symbol v) = false := by decide
  intro c member
  rw [Bech32.encode, Text.chars_ofList, List.mem_append, List.mem_cons, List.mem_map] at member
  obtain front | rfl | ⟨v, -, rfl⟩ := member
  · exact prefixes hrp known c front
  · decide
  · exact symbols v

/-- Decoding undoes encoding. -/
theorem decode_address (known : hrp ∈ grinHrps) (key : Bytes32) :
    decodeGrinAddress app (grinAddressFromPubkey key hrp) = some key :=
  decodeGrinAddress_eq_some.2 ⟨hrp, known, .bech32,
    normalizeGrinAddress_of_plain (encode_plain known _ _)⟩

theorem classic_iff : (∀ key, decodeGrinAddress app address = some key ↔
      ∃ hrp ∈ grinHrps, normalizeGrinAddress app address = grinAddressFromPubkey key hrp) ↔
    ¬ SpelledBech32m app address := by
  constructor
  · rintro inverse ⟨hrp, known, key, spelled⟩
    obtain ⟨hrp', known', same⟩ :=
      (inverse key).1 (decodeGrinAddress_eq_some.2 ⟨hrp, known, .bech32m, spelled⟩)
    have decoded := decode_grin known (Bech32.toBase32 key.bytes) .bech32m
    rw [← spelled, same, grinAddressFromPubkey, decode_grin known'] at decoded
    cases decoded
  · intro classic key
    rw [decodeGrinAddress_eq_some]
    constructor
    · rintro ⟨hrp, known, variant, same⟩
      cases variant with
      | bech32 => exact ⟨hrp, known, same⟩
      | bech32m => exact absurd ⟨hrp, known, key, same⟩ classic
    · rintro ⟨hrp, known, same⟩
      exact ⟨hrp, known, .bech32, same⟩

end

/-- **Decoding is the inverse of the encoder** exactly on texts that are not
spelled in bech32m. -/
theorem decode_inverts_encode (app : App) :
    (∀ address, (∀ key, decodeGrinAddress app address = some key ↔
        ∃ hrp ∈ grinHrps, normalizeGrinAddress app address = grinAddressFromPubkey key hrp) ↔
      ¬ SpelledBech32m app address) ∧
    (∀ key, ∀ hrp ∈ grinHrps,
      decodeGrinAddress app (grinAddressFromPubkey key hrp) = some key) ∧
    ∀ a b key, ¬ SpelledBech32m app a → ¬ SpelledBech32m app b →
      decodeGrinAddress app a = some key → decodeGrinAddress app b = some key →
      addressHrp app a = addressHrp app b →
      normalizeGrinAddress app a = normalizeGrinAddress app b := by
  refine ⟨fun address => classic_iff, fun key hrp known => decode_address known key, ?_⟩
  intro a b key classicA classicB decodedA decodedB same
  obtain ⟨hrpA, knownA, spelledA⟩ := (classic_iff.2 classicA key).1 decodedA
  obtain ⟨hrpB, knownB, spelledB⟩ := (classic_iff.2 classicB key).1 decodedB
  rw [addressHrp, addressHrp, spelledA, spelledB, grinAddressFromPubkey, grinAddressFromPubkey,
    decode_grin knownA, decode_grin knownB, Option.map_some, Option.map_some,
    Option.some.injEq] at same
  rw [spelledA, spelledB, show hrpA = hrpB from same]

namespace Scripted

/-- The bech32m spelling of the zero key decodes, and no encoding is spelled so. -/
theorem decodes_bech32m : ¬ ∀ address key, decodeGrinAddress app address = some key ↔
    ∃ hrp ∈ grinHrps, normalizeGrinAddress app address = grinAddressFromPubkey key hrp := by
  intro inverse
  have decoded : decodeGrinAddress app (address "grin" .bech32m) = some (key 0) := by
    decide +kernel
  have foreign : ∀ hrp ∈ grinHrps, normalizeGrinAddress app (address "grin" .bech32m) ≠
      grinAddressFromPubkey (key 0) hrp := by
    decide +kernel
  obtain ⟨hrp, known, same⟩ := (inverse _ _).1 decoded
  exact foreign hrp known same

end Scripted

end Nip05d
