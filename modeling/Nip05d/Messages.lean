import Nip05d.Scripted
import Nip05d.Payments

/-!
# What a signed message pins

The parts of a signed message are not framed: the amount, the excess and the
sender key follow each other. Each has one width for all inputs and is written
injectively over its whole range, so the message tells all three apart, in every
spelling a proof object may use for them.
-/

namespace Nip05d.Proof

open Text

variable {app : App}

/-- The bytes that the signatures of a proof are over. -/
def ParsedPaymentProof.message (app : App) (proof : ParsedPaymentProof) : Option Bytes := do
  let sender ← decodeGrinAddress app proof.senderAddress
  paymentProofMessage proof.amount proof.excessHex sender

/-- The amount that a proof object names, as a number or as text. -/
def namedAmount (value : Json.Value) : Option Nat := (value.get "amount").bind parseAmount

/-- The excess that a proof object names, as it is spelled. -/
def namedExcess (value : Json.Value) : Option String :=
  (value.get "excess").bind Json.Value.asStr

/-- Two proof objects name one payment: the same integer, the same excess up to
letter case, and addresses of one sender key. -/
structure SamePayment (app : App) (v₁ v₂ : Json.Value) (p₁ p₂ : ParsedPaymentProof) : Prop where
  amount : namedAmount v₁ = namedAmount v₂
  excess : (namedExcess v₁).map app.toLowercase = (namedExcess v₂).map app.toLowercase
  sender : decodeGrinAddress app p₁.senderAddress = decodeGrinAddress app p₂.senderAddress

/-- A key is one of the two that a proof is verified under. -/
def ParsedPaymentProof.HasKey (app : App) (proof : ParsedPaymentProof) (key : Bytes32) : Prop :=
  decodeGrinAddress app proof.recipientAddress = some key ∨
    decodeGrinAddress app proof.senderAddress = some key

/-- Signatures are not forged: one that verifies under a key is by its holder. -/
def Unforged (app : App) (signed : Bytes32 → Bytes → Prop) : Prop :=
  ∀ key msg sig, verifyEd25519 app key msg sig = true → signed key msg

/-! ## The parts of a message -/

/-- The number that bytes stand for, most significant first. -/
def beU64 (bytes : Bytes) : Nat := bytes.foldl (fun n b => 256 * n + b.toNat) 0

theorem beU64_amountToBeU64 {amount : Nat} (range : amount < 2 ^ 64) :
    beU64 (amountToBeU64 amount) = amount := by
  have digit : ∀ k, (UInt8.ofNat (amount >>> k)).toNat = amount / 2 ^ k % 256 := by
    intro k
    rw [UInt8.toNat_ofNat', Nat.shiftRight_eq_div_pow]
  have places : List.range 8 = [0, 1, 2, 3, 4, 5, 6, 7] := rfl
  simp only [beU64, amountToBeU64, places, List.map_cons, List.map_nil, List.foldl_cons,
    List.foldl_nil, digit]
  omega

/-- Amounts are written injectively over the whole range of a `u64`. -/
theorem amountToBeU64_inj {a b : Nat} (ha : a < 2 ^ 64) (hb : b < 2 ^ 64) :
    amountToBeU64 a = amountToBeU64 b ↔ a = b := by
  constructor
  · intro same
    rw [← beU64_amountToBeU64 ha, ← beU64_amountToBeU64 hb, same]
  · rintro rfl
    rfl

theorem paymentProofMessage_length {amount : Nat} {excessHex : String} {sender : Bytes32}
    {msg : Bytes} (built : paymentProofMessage amount excessHex sender = some msg) :
    msg.length = 73 := by
  obtain ⟨excess, -, length, rfl⟩ := paymentProofMessage_eq built
  rw [List.length_append, List.length_append, amountToBeU64_length, length, sender.length]

/-- Lower-case hexadecimal texts of the same bytes are equal. -/
theorem lowered_decode_inj {s t : String} {a b : Bytes}
    (hs : Hex.decode (app.toLowercase s) = some a) (ht : Hex.decode (app.toLowercase t) = some b) :
    app.toLowercase s = app.toLowercase t ↔ a = b := by
  have spelled : ∀ {r : String} {c : Bytes}, Hex.decode (app.toLowercase r) = some c →
      app.toLowercase r = Hex.encode c := by
    intro r c decoded
    exact Hex.decode_settled (fun ch member => mem_toLowercase member) decoded
  rw [spelled hs, spelled ht, Hex.encode_inj]

/-! ## Messages of proofs -/

/-- What the fields of a parsed proof are read from. -/
theorem parsePaymentProof_named {value : Json.Value} {proof : ParsedPaymentProof}
    (parsed : parsePaymentProof app value = some proof) :
    namedAmount value = some proof.amount ∧
      (namedExcess value).map app.toLowercase = some proof.excessHex := by
  obtain ⟨raw, found, lower⟩ := parsePaymentProof_excess parsed
  refine ⟨?_, by rw [namedExcess, found, Option.map_some, lower]⟩
  simp only [parsePaymentProof, Option.bind_eq_bind, Option.bind_eq_some_iff, Option.pure_def,
    Option.some.injEq] at parsed
  obtain ⟨amountRaw, present, _, -, _, -, _, -, _, -, _, -, amount, read, rfl⟩ := parsed
  rw [namedAmount, present, Option.bind_some, read]

theorem parseAmount_lt {value : Json.Value} {amount : Nat} (read : parseAmount value = some amount) :
    amount < 2 ^ 64 := by
  cases value with
  | number n =>
    cases n with
    | posInt n =>
      simp only [parseAmount, Json.Number.asU64] at read
      split at read
      · cases read
        assumption
      · cases read
    | negInt n => cases read
    | float literal => cases read
  | string s => exact parseU64_lt read
  | null => cases read
  | bool b => cases read
  | array items => cases read
  | object fields => cases read

theorem namedAmount_lt {value : Json.Value} {amount : Nat} (named : namedAmount value = some amount) :
    amount < 2 ^ 64 := by
  obtain ⟨raw, -, read⟩ := Option.bind_eq_some_iff.1 named
  exact parseAmount_lt read

theorem message_eq_some {proof : ParsedPaymentProof} {msg : Bytes} :
    proof.message app = some msg ↔ ∃ sender,
      decodeGrinAddress app proof.senderAddress = some sender ∧
      paymentProofMessage proof.amount proof.excessHex sender = some msg := by
  rw [ParsedPaymentProof.message, Option.bind_eq_bind, Option.bind_eq_some_iff]

/-- A message is taken apart into the three values it was made of. -/
theorem message_eq_iff {v₁ v₂ : Json.Value} {p₁ p₂ : ParsedPaymentProof} {m₁ m₂ : Bytes}
    (parsed₁ : parsePaymentProof app v₁ = some p₁) (parsed₂ : parsePaymentProof app v₂ = some p₂)
    (built₁ : p₁.message app = some m₁) (built₂ : p₂.message app = some m₂) :
    m₁ = m₂ ↔ SamePayment app v₁ v₂ p₁ p₂ := by
  obtain ⟨amount₁, excess₁⟩ := parsePaymentProof_named parsed₁
  obtain ⟨amount₂, excess₂⟩ := parsePaymentProof_named parsed₂
  obtain ⟨raw₁, -, lower₁⟩ := parsePaymentProof_excess parsed₁
  obtain ⟨raw₂, -, lower₂⟩ := parsePaymentProof_excess parsed₂
  obtain ⟨sender₁, decoded₁, built₁⟩ := message_eq_some.1 built₁
  obtain ⟨sender₂, decoded₂, built₂⟩ := message_eq_some.1 built₂
  obtain ⟨bytes₁, hex₁, length₁, rfl⟩ := paymentProofMessage_eq built₁
  obtain ⟨bytes₂, hex₂, length₂, rfl⟩ := paymentProofMessage_eq built₂
  have amounts : amountToBeU64 p₁.amount = amountToBeU64 p₂.amount ↔
      namedAmount v₁ = namedAmount v₂ := by
    rw [amountToBeU64_inj (namedAmount_lt amount₁) (namedAmount_lt amount₂), amount₁, amount₂,
      Option.some.injEq]
  have excesses : bytes₁ = bytes₂ ↔
      (namedExcess v₁).map app.toLowercase = (namedExcess v₂).map app.toLowercase := by
    rw [excess₁, excess₂, Option.some.injEq, lower₁, lower₂]
    exact (lowered_decode_inj (lower₁ ▸ hex₁) (lower₂ ▸ hex₂)).symm
  have senders : sender₁.bytes = sender₂.bytes ↔
      decodeGrinAddress app p₁.senderAddress = decodeGrinAddress app p₂.senderAddress := by
    rw [decoded₁, decoded₂, Option.some.injEq]
    constructor
    · intro same
      exact Bytes32.toHex_inj.1 (congrArg Hex.encode same)
    · rintro rfl
      rfl
  constructor
  · intro same
    obtain ⟨front, key⟩ := List.append_inj same (by
      rw [List.length_append, List.length_append, amountToBeU64_length, amountToBeU64_length,
        length₁, length₂])
    obtain ⟨amount, excess⟩ := List.append_inj front (by
      rw [amountToBeU64_length, amountToBeU64_length])
    exact ⟨amounts.1 amount, excesses.1 excess, senders.1 key⟩
  · intro same
    rw [amounts.2 same.amount, excesses.2 same.excess, senders.2 same.sender]

/-- Signatures that verify are over the message of their proof, by both keys. -/
theorem verifySignatures_signed {signed : Bytes32 → Bytes → Prop} {proof : ParsedPaymentProof}
    {key : Bytes32} (unforged : Unforged app signed) (has : proof.HasKey app key)
    (verified : verifySignatures app proof = true) :
    ∃ msg, proof.message app = some msg ∧ signed key msg := by
  obtain ⟨recipient, sender, msg, hr, hs, built, recipientSig, senderSig, -, -, vr, vs⟩ :=
    verifySignatures_message verified
  refine ⟨msg, message_eq_some.2 ⟨sender, hs, built⟩, ?_⟩
  rcases has with receives | sends
  · cases hr.symm.trans receives
    exact unforged _ _ _ vr
  · cases hs.symm.trans sends
    exact unforged _ _ _ vs

/-- **A signed message pins the payment.** It has 73 bytes, and the message of
another proof equals it exactly when the two name one payment. Proofs under a key
that signed nothing else are rejected when they name another one. -/
theorem message_pins {v₁ v₂ : Json.Value} {p₁ p₂ : ParsedPaymentProof} {m₁ : Bytes}
    (parsed₁ : parsePaymentProof app v₁ = some p₁) (parsed₂ : parsePaymentProof app v₂ = some p₂)
    (built₁ : p₁.message app = some m₁) :
    m₁.length = 73 ∧
    (∀ m₂, p₂.message app = some m₂ →
      m₂.length = 73 ∧ (m₁ = m₂ ↔ SamePayment app v₁ v₂ p₁ p₂)) ∧
    ∀ signed key, Unforged app signed → p₂.HasKey app key → (∀ msg, signed key msg → msg = m₁) →
      ¬ SamePayment app v₁ v₂ p₁ p₂ → verifySignatures app p₂ = false := by
  have length : ∀ {p : ParsedPaymentProof} {m : Bytes}, p.message app = some m → m.length = 73 := by
    intro p m built
    obtain ⟨sender, -, built⟩ := message_eq_some.1 built
    exact paymentProofMessage_length built
  refine ⟨length built₁, fun m₂ built₂ => ⟨length built₂,
    message_eq_iff parsed₁ parsed₂ built₁ built₂⟩, ?_⟩
  intro signed key unforged has once differ
  cases verified : verifySignatures app p₂ with
  | false => rfl
  | true =>
    obtain ⟨m₂, built₂, wrote⟩ := verifySignatures_signed unforged has verified
    exact absurd ((message_eq_iff parsed₁ parsed₂ built₁ built₂).1 (once m₂ wrote).symm) differ

end Nip05d.Proof

namespace Nip05d.Scripted

open Proof Text

/-- The message that the payment of the script is signed over. -/
def signedMessage : Bytes := amountToBeU64 5 ++ excess ++ (key 0).bytes

/-- The application in which the zero key has signed that message only. -/
def onceSigned : App :=
  { app with crates := { crates script with
      verifyingKeyVerify := fun author message sig =>
        author == key 0 && message == signedMessage && sig == sign author message } }

/-- The payment of the script with a JSON number for its amount. -/
def repriced (amount : Nat) : Json.Value :=
  match payment with
  | .object fields => .object (("amount", .number (.posInt amount)) ::
      fields.filter (·.1 != "amount"))
  | v => v

/-- The signed payment verifies, also with its amount as a number; with another
amount it does not. -/
theorem payment_pinned : ∃ p₁ p₂ p₃,
    parsePaymentProof onceSigned payment = some p₁ ∧
    parsePaymentProof onceSigned (repriced 5) = some p₂ ∧
    parsePaymentProof onceSigned (repriced 6) = some p₃ ∧ signedMessage.length = 73 ∧
    p₂.message onceSigned = some signedMessage ∧ verifySignatures onceSigned p₂ = true ∧
    verifySignatures onceSigned p₃ = false := by
  have run : ((parsePaymentProof onceSigned payment).any fun p₁ =>
      p₁.message onceSigned == some signedMessage &&
      (parsePaymentProof onceSigned (repriced 5)).any fun p₂ =>
        p₂.message onceSigned == some signedMessage && verifySignatures onceSigned p₂ &&
        (parsePaymentProof onceSigned (repriced 6)).any fun p₃ =>
          decodeGrinAddress onceSigned p₃.senderAddress == some (key 0)) = true := by
    decide +kernel
  simp only [Option.any_eq_true, Bool.and_eq_true, beq_iff_eq] at run
  obtain ⟨p₁, parsed₁, built₁, p₂, parsed₂, ⟨built₂, verified⟩, p₃, parsed₃, sender⟩ := run
  have unforged : Unforged onceSigned fun author msg => author = key 0 ∧ msg = signedMessage := by
    intro author msg sig verified
    simp only [verifyEd25519, onceSigned, Bool.and_eq_true, beq_iff_eq] at verified
    exact verified.2.1
  have pinned := message_pins parsed₁ parsed₃ built₁
  refine ⟨p₁, p₂, p₃, parsed₁, parsed₂, parsed₃, pinned.1, built₂, verified, ?_⟩
  refine pinned.2.2 _ (key 0) unforged (.inr sender) (fun msg signed => signed.2) fun same => ?_
  have amounts : (namedAmount payment == namedAmount (repriced 6)) = false := by decide +kernel
  rw [same.amount, beq_self_eq_true] at amounts
  cases amounts

end Nip05d.Scripted
