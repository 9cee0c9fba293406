import Nip05d.Crates
import Nip05d.Bech32.Code

/-!
# Payment proofs

Slatepack addresses, the message that both parties of a payment sign, and the
six-field proof object with its two signatures.
-/

namespace Nip05d.Proof

open Text

/-- Human-readable prefixes of slatepack addresses. -/
def grinHrps : List String := ["grin", "tgrin"]

/-- A slatepack address as it is compared. -/
def normalizeGrinAddress (app : App) (address : String) : String := app.toLowercase (trim address)

/-- The public key of a slatepack address. The checksum variant that matched is
not looked at. -/
def decodeGrinAddress (app : App) (address : String) : Option Bytes32 := do
  let norm := normalizeGrinAddress app address
  let (hrp, data, _variant) ← Bech32.decode norm
  if ¬ grinHrps.contains hrp then none
  else do
    let bytes ← Bech32.fromBase32 data
    Bytes32.ofBytes bytes

/-- The slatepack address of a key, for one of the two prefixes. -/
def grinAddressFromPubkey (pubkey : Bytes32) (hrp : String) : String :=
  Bech32.encode hrp (Bech32.toBase32 pubkey.bytes) .bech32

/-- A nanogrin amount as eight bytes, most significant first. -/
def amountToBeU64 (amount : Nat) : Bytes :=
  (List.range 8).map fun i => UInt8.ofNat (amount >>> (8 * (7 - i)))

/-- The bytes that receiver and sender sign: amount, kernel excess, sender key. -/
def paymentProofMessage (amount : Nat) (excessHex : String) (senderPubkey : Bytes32) :
    Option Bytes := do
  let excess ← Hex.decode excessHex
  if excess.length ≠ 33 then none
  else return amountToBeU64 amount ++ excess ++ senderPubkey.bytes

structure ParsedPaymentProof where
  amount : Nat
  excessHex : String
  recipientAddress : String
  recipientSigHex : String
  senderAddress : String
  senderSigHex : String

/-- The amount of a proof: a `u64`, as a number or as decimal text. -/
def parseAmount : Json.Value → Option Nat
  | .number n => n.asU64
  | .string s => parseU64 (trim s)
  | _ => none

/-- A proof from its JSON object. All six fields are required. -/
def parsePaymentProof (app : App) (value : Json.Value) : Option ParsedPaymentProof := do
  let amountRaw ← value.get "amount"
  let excess ← (value.get "excess").bind Json.Value.asStr
  let recipientAddress ← (value.get "recipient_address").bind Json.Value.asStr
  let recipientSig ← (value.get "recipient_sig").bind Json.Value.asStr
  let senderAddress ← (value.get "sender_address").bind Json.Value.asStr
  let senderSig ← (value.get "sender_sig").bind Json.Value.asStr
  let amount ← parseAmount amountRaw
  return {
    amount
    excessHex := app.toLowercase excess
    recipientAddress
    recipientSigHex := app.toLowercase recipientSig
    senderAddress
    senderSigHex := app.toLowercase senderSig }

def verifyEd25519 (app : App) (pubkey : Bytes32) (message sig : Bytes) : Bool :=
  app.crates.verifyingKeyFromBytes pubkey && sig.length == 64 &&
    app.crates.verifyingKeyVerify pubkey message sig

/-- Both signatures verify over the message of the proof. -/
def verifySignatures (app : App) (proof : ParsedPaymentProof) : Bool :=
  match decodeGrinAddress app proof.recipientAddress, decodeGrinAddress app proof.senderAddress with
  | some recipientPub, some senderPub =>
    match paymentProofMessage proof.amount proof.excessHex senderPub with
    | some msg =>
      match Hex.decode proof.recipientSigHex, Hex.decode proof.senderSigHex with
      | some recipientSig, some senderSig =>
        verifyEd25519 app recipientPub msg recipientSig && verifyEd25519 app senderPub msg senderSig
      | _, _ => false
    | none => false
  | _, _ => false

/-! ## Addresses -/

variable {app : App}

theorem normalizeGrinAddress_idem (address : String) :
    normalizeGrinAddress app (normalizeGrinAddress app address) =
      normalizeGrinAddress app address :=
  toLowercase_trim_idem address

/-- Only the normalized text of an address is decoded. -/
theorem decodeGrinAddress_normalize (address : String) :
    decodeGrinAddress app (normalizeGrinAddress app address) = decodeGrinAddress app address := by
  rw [decodeGrinAddress, normalizeGrinAddress_idem, decodeGrinAddress]

/-- The prefix and the checksum variant of an address. -/
def spelling (app : App) (address : String) : Option (String × Bech32.Variant) :=
  (Bech32.decode (normalizeGrinAddress app address)).map fun d => (d.1, d.2.2)

/-- What an address decodes from. -/
theorem decodeGrinAddress_parts {address : String} {key : Bytes32}
    (decoded : decodeGrinAddress app address = some key) : ∃ hrp ∈ grinHrps, ∃ data variant,
      Bech32.decode (normalizeGrinAddress app address) = some (hrp, data, variant) ∧
      Bech32.fromBase32 data = some key.bytes := by
  simp only [decodeGrinAddress, Option.bind_eq_bind, Option.bind_eq_some_iff] at decoded
  obtain ⟨⟨hrp, data, variant⟩, found, rest⟩ := decoded
  split at rest
  · cases rest
  · rename_i known
    obtain ⟨bytes, converted, sized⟩ := Option.bind_eq_some_iff.1 rest
    rw [Bytes32.ofBytes_eq_some] at sized
    rw [not_not, List.contains_iff_mem] at known
    exact ⟨hrp, known, data, variant, found, sized ▸ converted⟩

/-- A normalized address has no capital letters. -/
theorem normalizeGrinAddress_plain (address : String) :
    ∀ c ∈ chars (normalizeGrinAddress app address), c.isUpper = false :=
  fun _ member => (mem_toLowercase member).not_upper

/-- **A key has one address of each spelling.** Normalized addresses with the
same prefix, the same checksum variant and the same key are equal. -/
theorem decodeGrinAddress_inj {a b : String} {key : Bytes32}
    (ha : decodeGrinAddress app a = some key) (hb : decodeGrinAddress app b = some key)
    (same : spelling app a = spelling app b) :
    normalizeGrinAddress app a = normalizeGrinAddress app b := by
  obtain ⟨hrpA, -, dataA, variantA, foundA, bytesA⟩ := decodeGrinAddress_parts ha
  obtain ⟨hrpB, -, dataB, variantB, foundB, bytesB⟩ := decodeGrinAddress_parts hb
  simp only [spelling, foundA, foundB, Option.map_some, Option.some.injEq, Prod.mk.injEq] at same
  rw [Bech32.decode_eq_encode (normalizeGrinAddress_plain a) foundA,
    Bech32.decode_eq_encode (normalizeGrinAddress_plain b) foundB, same.1, same.2,
    Bech32.fromBase32_inj bytesA bytesB]

/-! ## Proofs -/

/-- Signatures that verify come with both keys and the signed message. -/
theorem verifySignatures_message {proof : ParsedPaymentProof}
    (verified : verifySignatures app proof = true) :
    ∃ recipient sender msg,
      decodeGrinAddress app proof.recipientAddress = some recipient ∧
      decodeGrinAddress app proof.senderAddress = some sender ∧
      paymentProofMessage proof.amount proof.excessHex sender = some msg ∧
      ∃ recipientSig senderSig,
        Hex.decode proof.recipientSigHex = some recipientSig ∧
        Hex.decode proof.senderSigHex = some senderSig ∧
        verifyEd25519 app recipient msg recipientSig = true ∧
        verifyEd25519 app sender msg senderSig = true := by
  simp only [verifySignatures] at verified
  split at verified
  · rename_i recipient sender hr hs
    split at verified
    · rename_i msg hm
      split at verified
      · rename_i recipientSig senderSig hrs hss
        rw [Bool.and_eq_true] at verified
        exact ⟨recipient, sender, msg, hr, hs, hm, recipientSig, senderSig, hrs, hss,
          verified.1, verified.2⟩
      · cases verified
    · cases verified
  · cases verified

/-- The message is made of the amount, the 33 bytes of the excess and the key. -/
theorem paymentProofMessage_eq {amount : Nat} {excessHex : String} {sender : Bytes32} {msg : Bytes}
    (built : paymentProofMessage amount excessHex sender = some msg) :
    ∃ excess, Hex.decode excessHex = some excess ∧ excess.length = 33 ∧
      msg = amountToBeU64 amount ++ excess ++ sender.bytes := by
  simp only [paymentProofMessage, Option.bind_eq_bind, Option.bind_eq_some_iff] at built
  obtain ⟨excess, decoded, rest⟩ := built
  split at rest
  · cases rest
  · rename_i length
    cases rest
    exact ⟨excess, decoded, not_not.1 length, rfl⟩

/-- The excess of a parsed proof is lower-cased text. -/
theorem parsePaymentProof_excess {value : Json.Value} {proof : ParsedPaymentProof}
    (parsed : parsePaymentProof app value = some proof) :
    ∃ raw, (value.get "excess").bind Json.Value.asStr = some raw ∧
      proof.excessHex = app.toLowercase raw := by
  simp only [parsePaymentProof, Option.bind_eq_bind, Option.bind_eq_some_iff, Option.pure_def,
    Option.some.injEq] at parsed
  obtain ⟨_, -, excess, found, _, -, _, -, _, -, _, -, _, -, rfl⟩ := parsed
  exact ⟨excess, Option.bind_eq_some_iff.2 found, rfl⟩

end Nip05d.Proof
