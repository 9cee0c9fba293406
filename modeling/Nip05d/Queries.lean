import Nip05d.Unmounted

/-!
# What a request has asked before

A claim asks the node for its kernel before it runs its transaction, and a
request that ends an offer has read the offer as live and asked the node for the
tip. Each of these looks is a section of the same request: `Asked` says so of the
next section on every path of every handler.
-/

namespace Nip05d

open Auth Concurrent Handlers Proof Text

/-- The kernel that a sale relies on, as the node reported it in one of these
sections. -/
def AskedKernel (cfg : Config) (seen : List (Stmt × World)) (excessHex : String)
    (kernelHeight : Option Int) : Prop :=
  ∃ w k, (Stmt.look, w) ∈ seen ∧ w.kernel excessHex = .ok k ∧ k.found = true ∧
    cfg.transferMinConf ≤ k.confirmations.toNat ∧ kernelHeight = k.height.map heightAsI64

/-- An offer was read as live in one of these sections. -/
def FoundLive (seen : List (Stmt × World)) (offerId : String) : Prop :=
  ∃ w readId offer, (Stmt.look, w) ∈ seen ∧ w.query (·.getOffer readId) = some offer ∧
    offer.offerId = offerId ∧ offer.status = .live

/-- The tip was asked for in one of these sections. -/
def AskedTip (seen : List (Stmt × World)) (endHeight : Option Int) : Prop :=
  ∃ w, (Stmt.look, w) ∈ seen ∧ endHeight = w.tipHeight

/-- What the next section relies on was looked up by the sections so far. -/
def Asked (cfg : Config) (seen : List (Stmt × World)) : Stmt → Prop
  | .claimTxn _ excessHex kernelHeight _ => AskedKernel cfg seen excessHex kernelHeight
  | .markOfferDead offerId _ endHeight _ => FoundLive seen offerId ∧ AskedTip seen endHeight
  | _ => True

section

variable {app : App} {cfg : Config} {headers : Headers}
  {done : List (Stmt × World) → Response → Prop} {seen : List (Stmt × World)} {t : Stmt}

/-- The sections of the registry rely on nothing. -/
theorem asked_registering (seen : List (Stmt × World)) (t : Stmt) (registering : Registering t) :
    Asked cfg seen t := by
  cases t with
  | markOfferDead | claimTxn => exact absurd trivial registering
  | _ => trivial

theorem asked_authorized {bucket : String} {method : Method} {urlPath : String} {body : Bytes}
    {next : String → Handler Response}
    (goes : ∀ key seen, (next key).Paths (Asked cfg) (fun _ _ => True) seen) :
    (authorized app bucket headers method urlPath body next).Paths (Asked cfg) (fun _ _ => True)
      seen := by
  refine (only_timed id fun _ => id).before asked_registering fun allowed more => ?_
  split
  · trivial
  refine paths_look trivial fun w => ?_
  split
  · trivial
  refine (only_timed id fun _ => id).before asked_registering fun fresh more' => ?_
  split
  · trivial
  · exact goes _ _

/-- An offer that was found is settled with a tip that is asked for. -/
theorem asked_settle {w : World} {readId : String} {offer : OfferRow} {now : Int}
    {k : OfferRow → Handler Response} (looked : (Stmt.look, w) ∈ seen)
    (found : w.query (·.getOffer readId) = some offer)
    (next : ∀ o seen, (k o).Paths (Asked cfg) (fun _ _ => True) seen) :
    (settleExpiry cfg offer now >>= k).Paths (Asked cfg) (fun _ _ => True) seen := by
  unfold settleExpiry
  split
  · exact next offer seen
  · rename_i past
    have live : offer.status = .live := not_not.1 (not_or.1 past).1
    refine ⟨trivial, fun w₁ => ⟨?_, fun w₂ => ⟨trivial, fun w₃ => next _ _⟩⟩⟩
    exact ⟨⟨w, readId, offer, by simp [looked], found, rfl, live⟩, w₁, by simp, rfl⟩

theorem lodgeOffer_asked (body : Bytes) :
    (lodgeOffer app headers body).Paths (Asked cfg) (fun _ _ => True) seen := by
  refine asked_authorized fun key seen => ?_
  split
  · trivial
  split
  · trivial
  split
  · trivial
  refine paths_look trivial fun w => ?_
  split
  · trivial
  refine paths_look trivial fun w₁ => ?_
  split
  · trivial
  refine paths_look trivial fun w₂ => ?_
  split
  · trivial
  refine paths_look trivial fun w₃ => ?_
  split
  · trivial
  · exact paths_exec trivial fun w₄ => trivial

theorem readOffer_asked (offerId : String) :
    (readOffer app headers offerId).Paths (Asked app.cfg) (fun _ _ => True) seen := by
  refine (only_timed id fun _ => id).before asked_registering fun allowed more => ?_
  split
  · trivial
  refine paths_look trivial fun w => ?_
  split
  · trivial
  rename_i offer found
  refine paths_look trivial fun w₁ => ?_
  exact asked_settle (by simp) found fun _ _ => trivial

theorem revokeOffer_asked (offerId : String) :
    (revokeOffer app headers offerId).Paths (Asked app.cfg) (fun _ _ => True) seen := by
  refine asked_authorized fun key seen => ?_
  refine paths_look trivial fun w => ?_
  split
  · trivial
  rename_i offer found
  split
  · trivial
  split
  · trivial
  split
  · trivial
  refine paths_look trivial fun w₁ => ?_
  split
  · rename_i live
    refine paths_look trivial fun w₂ => paths_exec ?_ fun w₃ => trivial
    exact ⟨⟨w, offerId, offer, by simp, found, rfl, live⟩, w₂, by simp, rfl⟩
  · exact paths_exec trivial fun w₂ => trivial

/-- A claim asks for the kernel before its transaction. -/
theorem claimPaid_asked {offer : OfferRow} {proof : ParsedPaymentProof} {last : Option Int}
    {now : Int} : (claimPaid app offer proof last now).Paths (Asked app.cfg) (fun _ _ => True)
      seen := by
  refine paths_look trivial fun w => ?_
  split
  · trivial
  rename_i k reported
  split
  · trivial
  rename_i deep
  rw [not_or, not_not, not_lt] at deep
  dsimp only
  split
  · trivial
  refine paths_look trivial fun w₁ => ?_
  split
  · trivial
  refine paths_look trivial fun w₂ => ?_
  split
  · trivial
  refine paths_exec ⟨w, k, by simp, reported, deep.1, deep.2, rfl⟩ fun w₃ => ?_
  unfold claimed
  split
  · exact ⟨trivial, fun _ => trivial⟩
  all_goals trivial

theorem claim_asked (body : Bytes) :
    (claim app headers body).Paths (Asked app.cfg) (fun _ _ => True) seen := by
  refine asked_authorized fun key seen => ?_
  split
  · trivial
  rename_i offerId proof parsed
  refine paths_look trivial fun w => ?_
  split
  · trivial
  rename_i offer found
  refine paths_look trivial fun w₁ => ?_
  refine asked_settle (by simp) found fun offer seen => ?_
  split
  · refine paths_look trivial fun w₂ => ?_
    split
    · split <;> trivial
    · trivial
  unfold claimOpen
  split
  · trivial
  split
  · trivial
  refine paths_look trivial fun w₂ => ?_
  split
  · trivial
  split
  · trivial
  · exact claimPaid_asked

theorem handlers_asked (r : Request) :
    ((authority app).handler r).Paths (Asked app.cfg) (fun _ _ => True) [] := by
  have mount : ∀ {handler : Handler Response},
      handler.Paths (Asked app.cfg) (fun _ _ => True) [] →
      (mounted app handler).Paths (Asked app.cfg) (fun _ _ => True) [] := by
    intro handler asked
    unfold mounted
    split
    · exact asked
    · trivial
  cases r with
  | lodgeOffer headers body => exact mount (lodgeOffer_asked body)
  | readOffer headers offerId => exact mount (readOffer_asked offerId)
  | revokeOffer headers offerId => exact mount (revokeOffer_asked offerId)
  | claim headers body => exact mount (claim_asked body)
  | _ => exact (registry_only id).paths asked_registering

variable {w : World} {c : Conf World Stmt Request Response} {steps : List Step} {i : Nat}
  {r : Request}

/-- **What a section relies on was looked up by its own request.** -/
theorem asked_due (run : Run (authority app) (.start w) steps c) (due : c.due i = some (r, t)) :
    Asked app.cfg (own i steps) t := run.section_due handlers_asked due

end

end Nip05d
