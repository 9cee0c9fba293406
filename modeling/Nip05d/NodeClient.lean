import Nip05d.Routes

/-!
# The node client

A query goes through the configured endpoints in order. At each it makes one or
two JSON-RPC calls, each of which may fail in its own way or answer any JSON
value, and the first endpoint whose calls succeed decides. A depth above one is
computed from two heights of one endpoint only.
-/

namespace Nip05d

open Handlers

/-- One JSON-RPC call to an endpoint. -/
structure RpcCall where
  endpoint : String
  method : String
  params : Json.Value

/-- What comes back from a call: nothing, or a response with its status line and
a body, which may not be JSON. -/
inductive Reply where
  | failed (e : String)
  | response (status : Nat) (line : String) (body : Except String Json.Value)

/-- The replies to the calls of one query, by the attempt that makes them. -/
abbrev Network := Nat → RpcCall → Reply

namespace KernelResult

def notFound : KernelResult := ⟨false, 0, none⟩

end KernelResult

structure NodeClient where
  endpoints : List String

namespace NodeClient

/-- The value inside the envelopes of a JSON-RPC response. `text` writes JSON. -/
def unwrap (text : Json.Value → String) (method : String) (value : Json.Value) :
    Except String Json.Value :=
  let result := (value.get "result").getD .null
  match result.get "Err" with
  | some innerErr =>
    let shown := text innerErr
    .error s!"{method} Err: {shown}"
  | none => .ok ((result.get "Ok").getD result)

/-- One foreign-API call. -/
def rpc (text : Json.Value → String) (net : Network) (attempt : Nat) (call : RpcCall) :
    Except String Json.Value :=
  let method := call.method
  match net attempt call with
  | .failed e => .error s!"{method} transport: {e}"
  | .response status line body =>
    if ¬ (200 ≤ status ∧ status < 300) then .error s!"{method} HTTP {line}"
    else
      match body with
      | .error e => .error s!"{method} decode: {e}"
      | .ok value =>
        match value.get "error" with
        | some err =>
          if err.isNull then unwrap text method value
          else
            let shown := text err
            .error s!"{method} error: {shown}"
        | none => unwrap text method value

def getKernel (endpoint excessHex : String) : RpcCall :=
  ⟨endpoint, "get_kernel", .array [.string excessHex, .null, .null]⟩

def getTip (endpoint : String) : RpcCall := ⟨endpoint, "get_tip", .array []⟩

/-- The inclusion height of a `get_kernel` result. -/
def kernelHeight (kernel : Json.Value) : Option UInt64 :=
  ((kernel.item 1).bind Json.Value.asU64).or ((kernel.get "height").bind Json.Value.asU64)

/-- The height of a `get_tip` result. -/
def tipHeightOf (tip : Json.Value) : Option UInt64 := (tip.get "height").bind Json.Value.asU64

/-- A difference that does not go below zero. -/
def saturatingSub (a b : UInt64) : UInt64 := if a < b then 0 else a - b

def larger (a b : UInt64) : UInt64 := if a ≤ b then b else a

/-- A kernel by the heights that one endpoint reports. With a height unreadable it
has one confirmation at least. -/
def depth : Option UInt64 → Option UInt64 → KernelResult
  | some h, some tipH => ⟨true, larger (saturatingSub tipH h + 1) 1, some h⟩
  | h, _ => ⟨true, 1, h⟩

def kernelOne (text : Json.Value → String) (net : Network) (excessHex : String) (attempt : Nat)
    (endpoint : String) : Except String KernelResult := do
  let kernel ← rpc text net attempt (getKernel endpoint excessHex)
  if kernel.isNull then return .notFound
  let tip ← rpc text net attempt (getTip endpoint)
  return depth (kernelHeight kernel) (tipHeightOf tip)

/-- The tip height of one endpoint. -/
def tipOne (text : Json.Value → String) (net : Network) (attempt : Nat) (endpoint : String) :
    Except String UInt64 := do
  let tip ← rpc text net attempt (getTip endpoint)
  match tipHeightOf tip with
  | some h => return h
  | none => .error "get_tip: height missing"

/-- The first endpoint that answers, or the last error. -/
def failover {α : Type} (ask : Nat → String → Except String α) :
    Nat → String → List String → Except String α
  | _, lastErr, [] => .error lastErr
  | attempt, _, endpoint :: rest =>
    match ask attempt endpoint with
    | .ok res => .ok res
    | .error e => failover ask (attempt + 1) e rest

def kernel (client : NodeClient) (text : Json.Value → String) (net : Network)
    (excessHex : String) : Except String KernelResult :=
  failover (kernelOne text net excessHex) 0 "no node endpoints configured" client.endpoints

def tipHeight (client : NodeClient) (text : Json.Value → String) (net : Network) :
    Except String UInt64 :=
  failover (tipOne text net) 0 "no node endpoints configured" client.endpoints

/-- The client as a chain source, while the network replies as given to each
query. -/
def source (client : NodeClient) (text : Json.Value → String) (kernels : String → Network)
    (tip : Network) : ChainSource :=
  ⟨fun excessHex => client.kernel text (kernels excessHex) excessHex, client.tipHeight text tip⟩

end NodeClient

/-! ## Failing over -/

/-- A call was answered with a value: a successful response whose JSON has no error
at either level. -/
structure Answered (net : Network) (attempt : Nat) (call : RpcCall) (value : Json.Value) : Prop where
  reply : ∃ status line body, net attempt call = .response status line (.ok body) ∧
    200 ≤ status ∧ status < 300 ∧ (∀ e, body.get "error" = some e → e.isNull) ∧
    ((body.get "result").getD .null).get "Err" = none ∧
    value = (((body.get "result").getD .null).get "Ok").getD ((body.get "result").getD .null)

/-- A depth above one comes from one endpoint: it answered both calls with heights
in one attempt, after every earlier endpoint failed, and the depth is their exact
difference. -/
structure Deep (client : NodeClient) (text : Json.Value → String) (net : Network)
    (excessHex : String) (k : KernelResult) : Prop where
  heights : ∃ n endpoint kernel tip h tipH, client.endpoints[n]? = some endpoint ∧
    (∀ m < n, ∀ e, client.endpoints[m]? = some e →
      ∃ err, NodeClient.kernelOne text net excessHex m e = .error err) ∧
    Answered net n (NodeClient.getKernel endpoint excessHex) kernel ∧ kernel.isNull = false ∧
    NodeClient.kernelHeight kernel = some h ∧
    Answered net n (NodeClient.getTip endpoint) tip ∧ NodeClient.tipHeightOf tip = some tipH ∧
    (k.confirmations.toNat : Int) = tipH.toNat - h.toNat + 1 ∧ k.height = some h

namespace NodeClient

variable {text : Json.Value → String} {net : Network} {client : NodeClient} {excessHex : String}

section

variable {α : Type} {ask : Nat → String → Except String α}

/-- An answer is the one of an endpoint before which all failed. -/
theorem failover_ok {first : Nat} {lastErr : String} {endpoints : List String} {a : α}
    (ok : failover ask first lastErr endpoints = .ok a) : ∃ n endpoint,
      endpoints[n]? = some endpoint ∧ ask (first + n) endpoint = .ok a ∧
      ∀ m < n, ∀ e, endpoints[m]? = some e → ∃ err, ask (first + m) e = .error err := by
  induction endpoints generalizing first lastErr with
  | nil => cases ok
  | cons endpoint rest ih =>
    rw [failover] at ok
    cases answer : ask first endpoint with
    | ok res =>
      rw [answer] at ok
      cases ok
      exact ⟨0, endpoint, rfl, answer, fun m below => absurd below (Nat.not_lt_zero m)⟩
    | error err =>
      rw [answer] at ok
      obtain ⟨n, there, found, answered, before⟩ := ih ok
      refine ⟨n + 1, there, found, by rw [Nat.add_comm n, ← Nat.add_assoc]; exact answered, ?_⟩
      intro m below e here
      cases m with
      | zero =>
        cases here
        exact ⟨err, answer⟩
      | succ m =>
        rw [Nat.add_comm m, ← Nat.add_assoc]
        exact before m (Nat.lt_of_succ_lt_succ below) e here

/-- There is no answer exactly when every endpoint fails. -/
theorem failover_error {first : Nat} {lastErr : String} {endpoints : List String} :
    (∃ err, failover ask first lastErr endpoints = .error err) ↔
      ∀ n e, endpoints[n]? = some e → ∃ err, ask (first + n) e = .error err := by
  induction endpoints generalizing first lastErr with
  | nil =>
    refine iff_of_true ⟨lastErr, rfl⟩ fun n e here => ?_
    cases here
  | cons endpoint rest ih =>
    rw [failover]
    cases answer : ask first endpoint with
    | ok res =>
      refine iff_of_false (fun ⟨_, failed⟩ => ?_) fun all => ?_
      · cases failed
      · obtain ⟨err, failed⟩ := all 0 endpoint rfl
        rw [Nat.add_zero, answer] at failed
        cases failed
    | error err =>
      refine ih.trans ⟨fun all n e here => ?_, fun all n e here => ?_⟩
      · cases n with
        | zero =>
          cases here
          exact ⟨err, answer⟩
        | succ n =>
          rw [Nat.add_comm n, ← Nat.add_assoc]
          exact all n e here
      · rw [Nat.add_assoc, Nat.add_comm 1]
        exact all (n + 1) e here

end

/-! ## One endpoint -/

theorem unwrap_ok {method : String} {value v : Json.Value} (ok : unwrap text method value = .ok v) :
    ((value.get "result").getD .null).get "Err" = none ∧
      v = (((value.get "result").getD .null).get "Ok").getD ((value.get "result").getD .null) := by
  unfold unwrap at ok
  simp only at ok
  split at ok
  · cases ok
  · rename_i none
    exact ⟨none, (Except.ok.inj ok).symm⟩

/-- A call succeeds on a value without an error envelope only. -/
theorem rpc_ok {attempt : Nat} {call : RpcCall} {v : Json.Value}
    (ok : rpc text net attempt call = .ok v) : Answered net attempt call v := by
  unfold rpc at ok
  simp only at ok
  split at ok
  · cases ok
  · rename_i status line body replied
    split at ok
    · cases ok
    · rename_i success
      split at ok
      · cases ok
      · rename_i value
        rw [not_not] at success
        split at ok
        · rename_i err present
          split at ok
          · rename_i null
            obtain ⟨noErr, inner⟩ := unwrap_ok ok
            refine ⟨status, line, value, replied, success.1, success.2, fun e here => ?_, noErr, inner⟩
            cases present.symm.trans here
            exact null
          · cases ok
        · rename_i absent
          obtain ⟨noErr, inner⟩ := unwrap_ok ok
          refine ⟨status, line, value, replied, success.1, success.2, fun e here => ?_, noErr, inner⟩
          cases absent.symm.trans here

theorem saturatingSub_toNat (a b : UInt64) : (saturatingSub a b).toNat = a.toNat - b.toNat := by
  unfold saturatingSub
  split
  · rename_i below
    have := UInt64.lt_iff_toNat_lt.1 below
    exact (Nat.sub_eq_zero_of_le (Nat.le_of_lt this)).symm
  · rename_i above
    exact UInt64.toNat_sub_of_le _ _ (UInt64.not_lt.1 above)

/-- A sum that wraps around counts as one confirmation. -/
theorem depth_ge_two {height tip : Option UInt64}
    (deep : 2 ≤ (depth height tip).confirmations.toNat) : ∃ h tipH, height = some h ∧
      tip = some tipH ∧ ((depth height tip).confirmations.toNat : Int) = tipH.toNat - h.toNat + 1 ∧
      (depth height tip).height = some h := by
  have one : ¬ 2 ≤ (1 : UInt64).toNat := by decide
  cases height with
  | none => exact absurd deep one
  | some h =>
    cases tip with
    | none => exact absurd deep one
    | some tipH =>
      refine ⟨h, tipH, rfl, rfl, ?_, rfl⟩
      simp only [depth] at deep ⊢
      have bound := tipH.toNat_lt
      have sum : (saturatingSub tipH h + 1).toNat = (tipH.toNat - h.toNat + 1) % 2 ^ 64 := by
        rw [UInt64.toNat_add, saturatingSub_toNat]
        rfl
      unfold larger at deep ⊢
      split at deep
      · exact absurd deep one
      · rename_i above
        rw [if_neg above, sum]
        rw [sum] at deep
        omega

/-- A depth above one is read from two answers of the endpoint. -/
theorem kernelOne_deep {attempt : Nat} {endpoint : String} {k : KernelResult}
    (ok : kernelOne text net excessHex attempt endpoint = .ok k)
    (deep : 2 ≤ k.confirmations.toNat) : ∃ kernel tip h tipH,
      Answered net attempt (getKernel endpoint excessHex) kernel ∧ kernel.isNull = false ∧
      kernelHeight kernel = some h ∧ Answered net attempt (getTip endpoint) tip ∧
      tipHeightOf tip = some tipH ∧ (k.confirmations.toNat : Int) = tipH.toNat - h.toNat + 1 ∧
      k.height = some h := by
  unfold kernelOne at ok
  cases kernel : rpc text net attempt (getKernel endpoint excessHex) with
  | error e =>
    rw [kernel] at ok
    cases ok
  | ok found =>
    rw [kernel] at ok
    change (if found.isNull then _ else _) = _ at ok
    split at ok
    · cases ok
      exact absurd deep (by decide)
    · rename_i null
      cases tip : rpc text net attempt (getTip endpoint) with
      | error e =>
        rw [tip] at ok
        cases ok
      | ok answer =>
        rw [tip] at ok
        cases ok
        obtain ⟨h, tipH, height, top, exact_, reported⟩ := depth_ge_two deep
        exact ⟨found, answer, h, tipH, rpc_ok kernel, by simpa using null, height, rpc_ok tip, top,
          exact_, reported⟩

/-- A depth above one that a query returns is exact. -/
theorem kernel_deep {k : KernelResult} (ok : client.kernel text net excessHex = .ok k)
    (deep : 2 ≤ k.confirmations.toNat) : Deep client text net excessHex k := by
  obtain ⟨n, endpoint, here, answered, before⟩ := failover_ok ok
  rw [Nat.zero_add] at answered
  obtain ⟨kernel, tip, h, tipH, rest⟩ := kernelOne_deep answered deep
  refine ⟨n, endpoint, kernel, tip, h, tipH, here, fun m below e there => ?_, rest⟩
  obtain ⟨err, failed⟩ := before m below e there
  rw [Nat.zero_add] at failed
  exact ⟨err, failed⟩

end NodeClient

/-! ## Claims -/

/-- Check 9 turns away what is not found or not confirmed often enough. -/
theorem claimPaid_unconfirmed {app : App} {w : World} {offer : OfferRow} {now : Int}
    {proof : Proof.ParsedPaymentProof} {deadEndHeight : Option Int}
    (unconfirmed : ∀ k, w.kernel proof.excessHex = .ok k → k.found = true →
      k.confirmations.toNat < app.cfg.transferMinConf) :
    ∃ next, claimPaid app offer proof deadEndHeight now = .step .look id next ∧
      next w = .ret (err 409 "payment_unconfirmed") := by
  refine ⟨_, rfl, ?_⟩
  change Concurrent.Prog.bind (.ret (w.kernel proof.excessHex)) _ = _
  cases answer : w.kernel proof.excessHex with
  | error e => rfl
  | ok k =>
    have refused : ¬ k.found = true ∨ k.confirmations.toNat < app.cfg.transferMinConf := by
      by_cases found : k.found = true
      · exact .inr (unconfirmed k answer found)
      · exact .inl found
    simp only [Concurrent.Prog.bind]
    rw [if_pos refused]
    rfl

/-- **Failing over never overstates a payment's depth.** -/
theorem depth_never_overstated (client : NodeClient) (text : Json.Value → String) (net : Network)
    (excessHex : String) :
    (∀ k, client.kernel text net excessHex = .ok k → 2 ≤ k.confirmations.toNat →
      Deep client text net excessHex k) ∧
    ((∃ err, client.kernel text net excessHex = .error err) ↔ ∀ n e, client.endpoints[n]? = some e →
      ∃ err, NodeClient.kernelOne text net excessHex n e = .error err) ∧
    ∀ (app : App) (w : World) kernels tip offer (proof : Proof.ParsedPaymentProof) deadEndHeight now,
      2 ≤ app.cfg.transferMinConf → w.node = some (client.source text kernels tip) →
      (∃ next, claimPaid app offer proof deadEndHeight now = .step .look id next ∧
        next w = .ret (err 409 "payment_unconfirmed")) ∨
      ∃ k, w.kernel proof.excessHex = .ok k ∧ app.cfg.transferMinConf ≤ k.confirmations.toNat ∧
        Deep client text (kernels proof.excessHex) proof.excessHex k := by
  refine ⟨fun k => NodeClient.kernel_deep, ?_, ?_⟩
  · refine NodeClient.failover_error.trans ⟨fun all n e here => ?_, fun all n e here => ?_⟩
    · rw [← Nat.zero_add n]
      exact all n e here
    · rw [Nat.zero_add]
      exact all n e here
  · intro app w kernels tip offer proof deadEndHeight now least node
    have asked : w.kernel proof.excessHex =
        client.kernel text (kernels proof.excessHex) proof.excessHex := by
      rw [World.kernel, node]
      rfl
    by_cases confirmed : ∃ k, w.kernel proof.excessHex = .ok k ∧
        app.cfg.transferMinConf ≤ k.confirmations.toNat
    · obtain ⟨k, answer, enough⟩ := confirmed
      exact .inr ⟨k, answer, enough,
        NodeClient.kernel_deep (asked ▸ answer) (Nat.le_trans least enough)⟩
    · refine .inl (claimPaid_unconfirmed fun k answer found => ?_)
      exact Nat.lt_of_not_le fun enough => confirmed ⟨k, answer, enough⟩

namespace Scripted

/-- Two endpoints, of which the first answers with an error. -/
def twoNodes : NodeClient := ⟨["https://down.example", "https://node.example"]⟩

/-- The second endpoint has the kernel at height 900 below its tip 1000. -/
def secondReplies : Network
  | 0, _ => .response 200 "200 OK" (.ok (.object [("error", .string "syncing")]))
  | _ + 1, call =>
    .response 200 "200 OK" (.ok (.object [("result", .object [("Ok",
      if call.method = "get_tip" then .object [("height", .number (.posInt 1000))]
      else .array [.null, .number (.posInt 900), .null])])]))

/-- Its depth is the difference of the second endpoint's heights. -/
theorem second_answers : twoNodes.kernel (fun _ => "") secondReplies "08" = .ok ⟨true, 101, some 900⟩ ∧
    Deep twoNodes (fun _ => "") secondReplies "08" ⟨true, 101, some 900⟩ := by
  have answer : twoNodes.kernel (fun _ => "") secondReplies "08" = .ok ⟨true, 101, some 900⟩ := by
    rfl
  exact ⟨answer, (depth_never_overstated twoNodes (fun _ => "") secondReplies "08").1 _ answer
    (by decide)⟩

end Scripted

end Nip05d
