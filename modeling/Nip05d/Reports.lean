import Nip05d.NodeClient
import Nip05d.Queries
import Nip05d.Startup

/-!
# What the tables say about the chain

The heights in the tables come off the network: the claim that wrote a sale had
asked the node, and one endpoint reported the recorded inclusion height, at the
depth that the same endpoint's tip gives; the request that ended an offer had
found it live and asked the node, and one endpoint reported the recorded tip. An
authority whose node URL names no endpoint gets through startup with transfers
enabled; it has nobody to ask, and no claim is honoured.
-/

namespace Nip05d

open Auth Concurrent Handlers Proof Text

/-- The client that the authority asks. -/
def App.client (app : App) : NodeClient := ⟨app.cfg.grinNodeEndpoints⟩

/-- The node answers as the client does, whatever the network replies. -/
def World.Wired (app : App) (w : World) : Prop :=
  ∀ node, w.node = some node →
    ∃ kernels tip, node = app.client.source app.crates.valueToString kernels tip

/-- The node is the client, and the network replies so to its queries. -/
def World.Networked (app : App) (w : World) (kernels : String → Network) (tip : Network) : Prop :=
  w.node = some (app.client.source app.crates.valueToString kernels tip)

/-- A tip height comes from one endpoint, after every earlier endpoint failed. -/
structure Tip (client : NodeClient) (text : Json.Value → String) (net : Network) (h : UInt64) :
    Prop where
  answered : ∃ n endpoint tip, client.endpoints[n]? = some endpoint ∧
    (∀ m < n, ∀ e, client.endpoints[m]? = some e →
      ∃ err, NodeClient.tipOne text net m e = .error err) ∧
    Answered net n (NodeClient.getTip endpoint) tip ∧ NodeClient.tipHeightOf tip = some h

section

variable {app : App} {w : World} {client : NodeClient} {text : Json.Value → String}
  {net : Network} {excessHex : String}

theorem NodeClient.tipOne_ok {attempt : Nat} {endpoint : String} {h : UInt64}
    (ok : tipOne text net attempt endpoint = .ok h) :
    ∃ tip, Answered net attempt (getTip endpoint) tip ∧ tipHeightOf tip = some h := by
  unfold tipOne at ok
  cases asked : rpc text net attempt (getTip endpoint) with
  | error e =>
    rw [asked] at ok
    cases ok
  | ok tip =>
    rw [asked] at ok
    simp only [bind, Except.bind] at ok
    cases height : tipHeightOf tip with
    | none =>
      rw [height] at ok
      cases ok
    | some top =>
      rw [height] at ok
      cases ok
      exact ⟨tip, rpc_ok asked, height⟩

theorem NodeClient.tipHeight_ok {h : UInt64} (ok : client.tipHeight text net = .ok h) :
    Tip client text net h := by
  obtain ⟨n, endpoint, here, answered, before⟩ := failover_ok ok
  rw [Nat.zero_add] at answered
  obtain ⟨tip, asked, height⟩ := tipOne_ok answered
  refine ⟨n, endpoint, tip, here, fun m below e there => ?_, asked, height⟩
  obtain ⟨err, failed⟩ := before m below e there
  rw [Nat.zero_add] at failed
  exact ⟨err, failed⟩

theorem World.Wired.kernel (wired : w.Wired app) {k : KernelResult}
    (answer : w.kernel excessHex = .ok k) :
    ∃ kernels tip, w.Networked app kernels tip ∧
      app.client.kernel app.crates.valueToString (kernels excessHex) excessHex = .ok k := by
  unfold World.kernel at answer
  split at answer
  · rename_i node here
    obtain ⟨kernels, tip, rfl⟩ := wired node here
    exact ⟨kernels, tip, here, answer⟩
  · cases answer

theorem World.Wired.tip (wired : w.Wired app) {height : Int} (answer : w.tipHeight = some height) :
    ∃ kernels tip h, w.Networked app kernels tip ∧
      Tip app.client app.crates.valueToString tip h ∧ height = heightAsI64 h := by
  obtain ⟨node, here, answer⟩ := Option.bind_eq_some_iff.1 answer
  obtain ⟨h, found, rfl⟩ := Option.map_eq_some_iff.1 answer
  obtain ⟨kernels, tip, rfl⟩ := wired node here
  refine ⟨kernels, tip, h, here, NodeClient.tipHeight_ok ?_, rfl⟩
  change (app.client.tipHeight app.crates.valueToString tip).toOption = some h at found
  cases asked : app.client.tipHeight app.crates.valueToString tip with
  | error e =>
    rw [asked] at found
    cases found
  | ok h' =>
    rw [asked] at found
    cases found
    rfl

end

/-! ## Sales and deaths -/

/-- The tip height that a section has read off the node, as one endpoint reported
it. -/
def TipRead (app : App) (seen : List (Stmt × World)) (height : Int) : Prop :=
  ∃ w kernels tip top, (Stmt.look, w) ∈ seen ∧ w.Networked app kernels tip ∧
    w.tipHeight = some height ∧ Tip app.client app.crates.valueToString tip top ∧
    height = heightAsI64 top

/-- The kernel of a sale that a section has read off the node, deep enough and at
the recorded height, as one endpoint reported it. -/
def KernelRead (app : App) (seen : List (Stmt × World)) (row : TransferRow) : Prop :=
  ∃ w kernels tip k height, (Stmt.look, w) ∈ seen ∧ w.Networked app kernels tip ∧
    w.kernel row.kernelExcess = .ok k ∧
    Deep app.client app.crates.valueToString (kernels row.kernelExcess) row.kernelExcess k ∧
    app.cfg.transferMinConf ≤ k.confirmations.toNat ∧ k.height = some height ∧
    row.kernelHeight = some (heightAsI64 height)

/-- A step ends a live offer below a height. -/
structure Ends (s : Step) (offerId : String) (height : Int) : Prop where
  due : ∃ i r status at_, s.event = .run i ∧
    s.before.due i = some (r, .markOfferDead offerId status (some height) at_)
  died : ∃ o ∈ s.before.hist.now.db.offers.rows, ∃ o' ∈ s.after.hist.now.db.offers.rows,
    o.offerId = offerId ∧ o.status = .live ∧ o'.offerId = offerId ∧ o'.Dead ∧
    o'.endHeight = some height

/-- A process runs a section of its own in a life, after the given steps. -/
structure RunsIn (lives : List (Life App World Stmt Request Around Response))
    (life : Life App World Stmt Request Around Response) (earlier : List Step) (s : Step) (i : Nat) :
    Prop where
  mem : life ∈ lives
  steps : ∃ later, life.steps = earlier ++ s :: later
  event : s.event = .run i

/-- An offer was ended in some life by a request that had found it live, at the tip
that one endpoint had reported to it. -/
def EndedIn (lives : List (Life App World Stmt Request Around Response)) (offerId : String)
    (height : Int) : Prop :=
  ∃ life earlier s i, RunsIn lives life earlier s i ∧ Ends s offerId height ∧
    FoundLive (own i earlier) offerId ∧ TipRead life.params (own i earlier) height

/-- A sale was written in some life by a claim, whose kernel one endpoint had
reported to it. -/
def SettledIn (lives : List (Life App World Stmt Request Around Response)) (row : TransferRow) :
    Prop :=
  ∃ life earlier s i o, RunsIn lives life earlier s i ∧ Settles life.params s o row ∧
    KernelRead life.params (own i earlier) row

/-- Before every step the node was the client of its life. -/
def AllWired (log : List LifeStep) : Prop :=
  ∀ e ∈ log, ∀ w ∈ e.step.before.hist.states, w.Wired e.params

section

variable {app : App} {w : World} {c c' : Conf World Stmt Request Response}
  {e : Concurrent.Event Request Around} {log : List LifeStep}

/-- A recorded end height is a tip that was read. -/
theorem Because.tip {L R : Hist World → Hist World → Prop} {r : Request} {h : Hist World}
    {offerId : String} {status : Death} {endHeight : Option Int} {at_ : Int}
    (because : Because app L R r (.markOfferDead offerId status endHeight at_) h) :
    ∃ h₀, R h₀ h ∧ endHeight = h₀.now.tipHeight := by
  cases because with
  | expire _ _ _ _ _ since => exact ⟨_, since, rfl⟩
  | revoke _ _ _ _ _ since => exact ⟨_, since, rfl⟩

/-- A step that gives an offer an end height ends it. -/
theorem step_ends {n : Nat} (reach : Reachable ((authority app).rooted w) c)
    (next : (authority app).step c e = some c')
    (inv : ∀ o ∈ c.hist.now.db.offers.rows, ∀ height, o.endHeight = some height →
      ∃ e ∈ log, Ends e.step o.offerId height) {o : OfferRow}
    (member : o ∈ c'.hist.now.db.offers.rows) {height : Int} (ended : o.endHeight = some height) :
    ∃ e₀ ∈ log ++ [⟨n, app, ⟨c, e, c'⟩⟩], Ends e₀.step o.offerId height := by
  have before : ∀ o ∈ c.hist.now.db.offers.rows, o.endHeight = some height →
      ∃ e₀ ∈ log ++ [⟨n, app, ⟨c, e, c'⟩⟩], Ends e₀.step o.offerId height := by
    intro o member ended
    obtain ⟨e₀, there, ends⟩ := inv o member height ended
    exact ⟨e₀, List.mem_append_left _ there, ends⟩
  obtain ⟨i, r, t, rfl, due, hist⟩ | ⟨-, same⟩ := rooted_step reach next
  · have after := member
    rw [hist, Hist.push_now] at after
    obtain ⟨old, stored, became⟩ | ⟨n, createdAt, -, rfl, -, -⟩ := offers_after after
    · cases became with
      | same => exact before _ stored ended
      | @died status endHeight at_ tag live =>
        subst tag
        simp only at ended
        subst ended
        exact ⟨_, List.mem_append_right _ (List.mem_singleton_self _), {
          due := ⟨i, r, status, at_, rfl, due⟩
          died := ⟨old, stored, _, member, rfl, live, rfl, Death.dead status old _ _, rfl⟩ }⟩
      | revoked _ _ => exact before old stored ended
      | consumed _ _ _ => exact before old stored ended
    · cases ended
  · exact before o (same ▸ member) ended

variable {lives : List (Life App World Stmt Request Around Response)}

theorem ended (run : deployment.Lives lives w) : ∀ o ∈ w.db.offers.rows, ∀ height,
    o.endHeight = some height → ∃ e ∈ entries lives, Ends e.step o.offerId height := by
  refine run.invariant (fun log w => ∀ o ∈ w.db.offers.rows, ∀ height,
    o.endHeight = some height → ∃ e ∈ log, Ends e.step o.offerId height) ?_ ?_ ?_
  · intro s blank
    rw [show s.db = .empty from blank]
    exact List.forall_mem_nil _
  · intro log app s s' inv opens
    rw [opens.db]
    exact inv
  · intro log n app s c e c' inv reach next o member height ended
    exact step_ends reach next inv member ended

/-! ## What the request itself had asked -/

variable {life : Life App World Stmt Request Around Response} {earlier : List Step} {s : Step}
  {i : Nat} {r : Request} {t : Stmt}

theorem RunsIn.of_entry {e : LifeStep} (member : e ∈ entries lives) (event : e.step.event = .run i) :
    ∃ life earlier, RunsIn lives life earlier e.step i ∧ life.params = e.params := by
  obtain ⟨life, found, params, there⟩ := mem_entries.1 member
  obtain ⟨earlier, later, all⟩ := List.append_of_mem there
  exact ⟨life, earlier, ⟨List.mem_of_getElem? found, ⟨later, all⟩, event⟩, params.symm⟩

/-- The run of a life up to a step. -/
theorem RunsIn.run (here : RunsIn lives life earlier s i) (run : deployment.Lives lives w) :
    Run (authority life.params) (.start life.start) earlier s.before ∧
      (authority life.params).step s.before s.event = some s.after := by
  obtain ⟨n, found⟩ := List.mem_iff_getElem?.1 here.mem
  obtain ⟨later, all⟩ := here.steps
  obtain ⟨d, first, rest⟩ := (all ▸ run.run_mem found).of_append
  obtain ⟨rfl, next, -⟩ := rest.of_cons
  exact ⟨first, next⟩

theorem RunsIn.wired (here : RunsIn lives life earlier s i) (wired : AllWired (entries lives))
    (ran : (t, w) ∈ own i earlier) : w.Wired life.params := by
  obtain ⟨n, found⟩ := List.mem_iff_getElem?.1 here.mem
  obtain ⟨later, all⟩ := here.steps
  obtain ⟨s₀, member, -, -, rfl⟩ := mem_own.1 ran
  have there : s₀ ∈ life.steps := all ▸ List.mem_append_left _ member
  exact wired ⟨n, life.params, s₀⟩ (mem_entries.2 ⟨life, found, rfl, there⟩) _ (Hist.now_mem _)

/-- The claim that writes a sale records the height it was told. -/
theorem recorded_height {offer : OfferRow} {excessHex : String} {kernelHeight : Option Int}
    {now : Int} {row : TransferRow} (reach : Reachable ((authority app).rooted w) c)
    (next : (authority app).step c (.run i) = some c')
    (due : c.due i = some (r, .claimTxn offer excessHex kernelHeight now))
    (absent : row ∉ c.hist.now.db.transfers.rows) (written : row ∈ c'.hist.now.db.transfers.rows) :
    row.kernelHeight = kernelHeight := by
  rw [rooted_due reach next due, Hist.push_now] at written
  obtain old | ⟨_, _, _, _, ⟨⟩, -, rfl⟩ := transfers_after written
  · exact absurd old absent
  · rfl

theorem sales_reported (run : deployment.Lives lives w) (wired : AllWired (entries lives))
    (least : ∀ e ∈ entries lives, 2 ≤ e.params.cfg.transferMinConf) :
    ∀ row ∈ w.db.transfers.rows, SettledIn lives row := by
  intro row member
  obtain ⟨earlier, e, later, o, all, -, settles⟩ := (accounted run).transfers row member
  have there : e ∈ entries lives := by rw [all]; simp
  have deepEnough := least e there
  obtain ⟨i, headers, body, offer, kernelHeight, now, -, event, due, -⟩ := settles.claim
  obtain ⟨life, earlier, here, params⟩ := RunsIn.of_entry there event
  rw [← params] at settles deepEnough
  obtain ⟨first, next⟩ := here.run run
  rw [event] at next
  obtain ⟨w', k, looked, reported, -, confirmed, told⟩ := asked_due first due
  obtain ⟨kernels, tip, asked, answer⟩ := (here.wired wired looked).kernel reported
  have deep := NodeClient.kernel_deep answer (Nat.le_trans deepEnough confirmed)
  obtain ⟨_, _, _, _, h, _, _, _, _, _, _, _, _, _, top⟩ := deep.heights
  have height := recorded_height (System.rooted_reach first) next due settles.absent settles.written
  refine ⟨life, earlier, e.step, i, o, here, settles, w', kernels, tip, k, h, looked, asked, reported,
    deep, confirmed, top, ?_⟩
  rw [height, told, top, Option.map_some]

theorem ends_reported (run : deployment.Lives lives w) (wired : AllWired (entries lives)) :
    ∀ o ∈ w.db.offers.rows, ∀ height, o.endHeight = some height →
      EndedIn lives o.offerId height := by
  intro o member height recorded
  obtain ⟨e, there, ends⟩ := ended run o member height recorded
  obtain ⟨i, r, status, at_, event, due⟩ := ends.due
  obtain ⟨life, earlier, here, -⟩ := RunsIn.of_entry there event
  obtain ⟨found, w', looked, read⟩ := asked_due (here.run run).1 due
  obtain ⟨kernels, tip, top, asked, reported, same⟩ := (here.wired wired looked).tip read.symm
  exact ⟨life, earlier, e.step, i, here, ends, found, w', kernels, tip, top, looked, asked,
    read.symm, reported, same⟩

/-- **What the tables say about the chain was reported by one endpoint**: the depth
and height of every sale, to the claim that wrote it, and the height at which an
offer died, to the request that ended it. -/
theorem tables_reported (run : deployment.Lives lives w) (wired : AllWired (entries lives))
    (least : ∀ e ∈ entries lives, 2 ≤ e.params.cfg.transferMinConf) :
    (∀ row ∈ w.db.transfers.rows, SettledIn lives row) ∧
    ∀ o ∈ w.db.offers.rows, ∀ height, o.endHeight = some height →
      EndedIn lives o.offerId height :=
  ⟨sales_reported run wired least, ends_reported run wired⟩

/-- The node stays wired while it changes to other answers of the client. -/
theorem wired_run {steps : List Step} (run : Run (authority app) (.start w) steps c)
    (start : w.Wired app) (changes : ∀ s ∈ steps, ∀ node, s.event = .env (.chain node) →
      ∃ kernels tip, node = app.client.source app.crates.valueToString kernels tip) :
    ∀ x ∈ c.hist.states, x.Wired app := by
  induction run with
  | nil => exact List.forall_mem_singleton.2 start
  | @snoc steps d d' e first next ih =>
    have before := ih fun s member => changes s (List.mem_append_left _ member)
    have here := before d.hist.now d.hist.now_mem
    obtain ⟨r, rfl, hist, -⟩ | ⟨i, r, t, u, n, rfl, found, -, -⟩ | ⟨v, s, rfl, moved, hist, -⟩ :=
      System.step_cases next
    · rwa [hist]
    · rw [rooted_due (System.rooted_reach first) next (Conf.due_eq_some.2 ⟨u, n, found⟩),
        Hist.states_push, List.forall_mem_cons]
      refine ⟨fun node same => here node ?_, before⟩
      rwa [(t.apply_frame app.cfg d.hist.now).2.1] at same
    · rw [hist, Hist.states_push, List.forall_mem_cons]
      refine ⟨?_, before⟩
      cases v with
      | advance clock =>
        change (if d.hist.now.clock.nanos ≤ clock.nanos then _ else none) = some s at moved
        split at moved
        · cases moved
          exact here
        · cases moved
      | chain node =>
        cases moved
        intro node' same
        obtain ⟨old, -, rfl⟩ := Option.map_eq_some_iff.1 same
        exact changes ⟨d, .env (.chain node), d'⟩ (by simp) node rfl
      | database fault =>
        cases moved
        exact here

theorem wired_steps {steps : List Step} (run : Run (authority app) (.start w) steps c)
    (start : w.Wired app) (changes : ∀ s ∈ steps, ∀ node, s.event = .env (.chain node) →
      ∃ kernels tip, node = app.client.source app.crates.valueToString kernels tip) :
    ∀ s ∈ steps, ∀ x ∈ s.before.hist.states, x.Wired app := by
  intro s member
  obtain ⟨earlier, later, rfl⟩ := List.append_of_mem member
  obtain ⟨d, first, rest⟩ := run.of_append
  obtain ⟨rfl, -, -⟩ := rest.of_cons
  exact wired_run first start fun s member => changes s (List.mem_append_left _ member)

end

/-! ## Without endpoints -/

/-- Startup refuses enabled transfers without a node URL. -/
theorem Config.validate_node {cfg : Config} (valid : cfg.validate = .ok ())
    (enabled : cfg.allowTransfers = true) : cfg.grinNodeUrl ≠ none := by
  intro missing
  unfold validate at valid
  split at valid
  · cases valid
  split at valid
  · cases valid
  split at valid
  · cases valid
  simp only at valid
  split at valid
  · cases valid
  split at valid
  · cases valid
  rw [if_pos ⟨enabled, missing⟩] at valid
  cases valid

/-- The node URL names no endpoint. -/
def Endless (url : String) : Prop :=
  ∀ c ∈ chars url, Config.separatesEndpoints c = true ∨ isWhitespace c = true

theorem Started.endpoints {app : App} {files : Files} {env : Environment}
    (started : Started app files env) (enabled : app.cfg.allowTransfers = true) :
    app.client.endpoints = [] ↔ ∃ url, env "GOBLIN_GRIN_NODE_URL" = some url ∧ Endless url := by
  obtain ⟨s, loaded, same⟩ := started
  obtain ⟨valid, -, node⟩ := Config.fromEnv_ok loaded
  rw [same] at valid node
  have named := Config.validate_node valid enabled
  change trimmedPieces _ (app.cfg.grinNodeUrl.getD "") = [] ↔ _
  cases set_ : env "GOBLIN_GRIN_NODE_URL" with
  | none =>
    rw [set_] at node
    exact absurd node named
  | some url =>
    rw [set_, Option.map_some, Option.filter_some] at node
    split at node
    · rw [node, Option.getD_some, trimmedPieces_eq_nil, trim, chars_ofList]
      constructor
      · intro blank
        exact ⟨url, rfl, fun c member => (mem_trimChars member).elim (blank c) .inr⟩
      · rintro ⟨_, ⟨⟩, blank⟩ c member
        refine blank c ?_
        exact (List.dropWhile_sublist _).mem ((List.rdropWhile_prefix _ _).mem member)
    · exact absurd node named

section

variable {app : App} {w : World} {c c' : Conf World Stmt Request Response} {steps : List Step}
  {i : Nat} {r : Request} {t : Stmt}

/-- Without endpoints every query fails. -/
theorem World.Wired.unanswered (wired : w.Wired app) (none_ : app.client.endpoints = []) :
    (∀ excessHex k, w.kernel excessHex ≠ .ok k) ∧ w.tipHeight = none := by
  constructor
  · intro excessHex k answer
    obtain ⟨kernels, tip, -, asked⟩ := wired.kernel answer
    rw [NodeClient.kernel, none_] at asked
    cases asked
  · by_contra some_
    obtain ⟨height, answer⟩ := Option.ne_none_iff_exists'.1 some_
    obtain ⟨_, _, h, _, tip, _⟩ := wired.tip answer
    obtain ⟨n, endpoint, _, here, -⟩ := tip.answered
    rw [none_] at here
    cases here

/-- Without endpoints no claim gets to its transaction, and no death has a height. -/
theorem unanswered_due (none_ : app.client.endpoints = [])
    (reach : Reachable ((authority app).rooted w) c) (wired : ∀ x ∈ c.hist.states, x.Wired app)
    (due : c.due i = some (r, t)) :
    (∀ offer excessHex kernelHeight now, t ≠ .claimTxn offer excessHex kernelHeight now) ∧
    ∀ offerId status height at_, t ≠ .markOfferDead offerId status (some height) at_ := by
  constructor
  · rintro offer excessHex kernelHeight now rfl
    cases rooted_because reach due with
    | claim grounds =>
      obtain ⟨h₀, k, since, reported, -⟩ := grounds.kernel
      have there := wired _ (since.states.subset h₀.now_mem)
      exact (there.unanswered none_).1 _ _ reported
  · rintro offerId status height at_ rfl
    obtain ⟨h₀, since, read⟩ := (rooted_because reach due).tip
    have there := wired _ (since.states.subset h₀.now_mem)
    rw [(there.unanswered none_).2] at read
    cases read

/-- What an authority without endpoints leaves in the tables: no sale, and no
height of a death. -/
structure Unsold (w w' : World) : Prop where
  transfers : ∀ row ∈ w'.db.transfers.rows, row ∈ w.db.transfers.rows
  heights : ∀ o ∈ w'.db.offers.rows, ∀ height, o.endHeight = some height →
    ∃ o' ∈ w.db.offers.rows, o'.offerId = o.offerId ∧ o'.endHeight = some height

theorem unsold (none_ : app.client.endpoints = []) (run : Run (authority app) (.start w) steps c)
    (wired : ∀ s ∈ steps, ∀ x ∈ s.before.hist.states, x.Wired app) : Unsold w c.hist.now := by
  induction run with
  | nil => exact ⟨fun row member => member, fun o member height ended => ⟨o, member, rfl, ended⟩⟩
  | @snoc steps d d' e first next ih =>
    have before := ih fun s member => wired s (List.mem_append_left _ member)
    have reach := System.rooted_reach first
    have here := wired ⟨d, e, d'⟩ (by simp)
    obtain ⟨i, r, t, rfl, due, hist⟩ | ⟨-, same⟩ := rooted_step reach next
    · obtain ⟨unclaimed, undated⟩ := unanswered_due none_ reach here due
      rw [hist, Hist.push_now]
      constructor
      · intro row member
        obtain old | ⟨offer, excessHex, kernelHeight, now, tag, -, -⟩ := transfers_after member
        · exact before.transfers row old
        · exact absurd tag (unclaimed _ _ _ _)
      · intro o member height ended
        obtain ⟨old, there, became⟩ | ⟨n, createdAt, -, rfl, -, -⟩ := offers_after member
        · cases became with
          | same => exact before.heights _ there height ended
          | @died status endHeight at_ tag live =>
            simp only at ended
            exact absurd (ended ▸ tag) (undated _ _ _ _)
          | revoked _ _ => exact before.heights old there height ended
          | consumed _ _ _ => exact before.heights old there height ended
        · cases ended
    · exact ⟨fun row member => before.transfers row (same ▸ member),
        fun o member => before.heights o (same ▸ member)⟩

/-- Without endpoints no claim is answered 201. -/
theorem unhonoured (none_ : app.client.endpoints = [])
    (run : Run (authority app) (.start w) steps c)
    (wired : ∀ s ∈ steps, ∀ x ∈ s.before.hist.states, x.Wired app) {headers : Headers}
    {body : Bytes} {response : Response}
    (done : c.procs[i]? = some (.claim headers body, .ret response)) : response.status ≠ 201 := by
  intro status
  have told : ClaimTold app headers body (own i steps) response :=
    run.paths_start handlers_told done headers body rfl
  obtain refused | ⟨key, id, w', offerId, proof, -, -, -, committed | repeated⟩ := told
  · omega
  · cases committed with
    | @intro offer kernelHeight now w'' same _ _ ran committed =>
      obtain ⟨s, member, event, ⟨r, due⟩, rfl⟩ := mem_own.1 ran
      obtain ⟨earlier, later, rfl⟩ := List.append_of_mem member
      obtain ⟨d, first, rest⟩ := run.of_append
      obtain ⟨rfl, -, -⟩ := rest.of_cons
      have here := unanswered_due none_ (System.rooted_reach first) (wired s member) due
      exact here.1 _ _ _ _ rfl
  · omega

/-- **An authority can start with transfers enabled and nobody to ask**: exactly
when its node URL has separators only. Then no claim is honoured, no sale is
recorded, and no death has a height. -/
theorem starts_without_endpoint {files : Files} {env : Environment}
    (started : Started app files env) (enabled : app.cfg.allowTransfers = true) :
    (app.client.endpoints = [] ↔ ∃ url, env "GOBLIN_GRIN_NODE_URL" = some url ∧ Endless url) ∧
    (app.client.endpoints = [] → ∀ w steps c, Run (authority app) (.start w) steps c →
      (∀ s ∈ steps, ∀ x ∈ s.before.hist.states, x.Wired app) → Unsold w c.hist.now ∧
      ∀ (i : Nat) headers body response, c.procs[i]? = some (.claim headers body, .ret response) →
        response.status ≠ 201) :=
  ⟨started.endpoints enabled, fun none_ _ _ _ run wired =>
    ⟨unsold none_ run wired, fun _ _ _ _ done => unhonoured none_ run wired done⟩⟩

end

namespace Scripted

/-- An endpoint that reports every kernel at height 900 below a tip. -/
def reports (tip : Nat) : Network := fun _ call =>
  .response 200 "200 OK" (.ok (.object [("result", .object [("Ok",
    if call.method = "get_tip" then .object [("height", .number (.posInt tip))]
    else .array [.null, .number (.posInt 900), .null])])]))

/-- The node of the script is its client, with a tip that has moved on. -/
theorem node_wired : ∃ kernels tip, node =
    resaleApp.client.source resaleApp.crates.valueToString kernels tip :=
  ⟨fun _ => reports 909, reports 1000, rfl⟩

/-- When nothing happens around the authority, the node stays. -/
theorem wired_undisturbed {app : App} {w : World} {c : Conf World Stmt Request Response}
    {steps : List Step} (run : Run (authority app) (.start w) steps c) (start : w.Wired app)
    (calm : undisturbed (steps.map Transition.event) = true) :
    ∀ s ∈ steps, ∀ x ∈ s.before.hist.states, x.Wired app := by
  refine wired_steps run start fun s member node chain => ?_
  have quiet := List.all_eq_true.1 calm s.event (List.mem_map_of_mem member)
  rw [chain] at quiet
  cases quiet

/-- In a calm life the node of the script stays. -/
theorem calm_wired {lives : List (Life App World Stmt Request Around Response)} {w : World}
    (run : deployment.Lives lives w) (calm : ∀ life ∈ lives, Calm life) :
    AllWired (entries lives) := by
  intro e member
  obtain ⟨life, found, params, step⟩ := mem_entries.1 member
  have calm := calm life (List.mem_of_getElem? found)
  rw [params]
  refine wired_undisturbed (run.run_mem found) ?_ calm.calm e.step step
  rw [calm.params]
  intro node there
  rw [calm.node] at there
  cases there
  exact node_wired

/-- Ada's offer is revoked and claimed within its grace period. -/
def revokedSale : List (Concurrent.Event Request Around) :=
  .arrive registerAda :: sections 0 10 ++ .arrive lodgeOne :: sections 1 10 ++
    .arrive revokeOne :: sections 2 9 ++ .arrive claimOne :: sections 3 13

/-- The sale of ada and the death of its offer are as one endpoint reported them. -/
theorem revoked_reported : ∃ lives w row o, deployment.Lives lives w ∧
    row ∈ w.db.transfers.rows ∧ row.offerId = offerId 101 ∧
    o ∈ w.db.offers.rows ∧ o.offerId = offerId 101 ∧ o.endHeight = some 1000 ∧
    (∀ row ∈ w.db.transfers.rows, SettledIn lives row) ∧
    ∀ o ∈ w.db.offers.rows, ∀ height, o.endHeight = some height →
      EndedIn lives o.offerId height := by
  have replayed : ((authority resaleApp).replayMeeting (fun _ _ _ => True) (.start world)
      revokedSale).any (fun c =>
        (c.hist.now.db.transfers.rows.any fun row => row.offerId == offerId 101) &&
          c.hist.now.db.offers.rows.any fun o =>
            o.offerId == offerId 101 && o.endHeight == some 1000) = true := by
    decide +kernel
  obtain ⟨c, run, found⟩ := (Option.any_eq_true _ _).1 replayed
  obtain ⟨steps, run, events, -⟩ := Run.replayMeeting run
  rw [Bool.and_eq_true] at found
  obtain ⟨row, sold, sameRow⟩ := List.any_eq_true.1 found.1
  obtain ⟨o, dead, sameOffer⟩ := List.any_eq_true.1 found.2
  simp only [Bool.and_eq_true, beq_iff_eq] at sameRow sameOffer
  have opens : App.Opens resaleApp world world := ⟨rfl, rfl, rfl, Nat.le_refl _, rfl⟩
  have lives : deployment.Lives [⟨resaleApp, world, steps, c⟩] c.hist.now :=
    .life (.blank (s := world) rfl) opens run
  have calm : ∀ life ∈ [(⟨resaleApp, world, steps, c⟩ :
      Life App World Stmt Request Around Response)], Calm life := by
    intro life member
    rw [List.mem_singleton] at member
    subst member
    exact ⟨rfl, rfl, by rw [events]; decide⟩
  refine ⟨_, _, row, o, lives, sold, sameRow, dead, sameOffer.1, sameOffer.2,
    tables_reported lives (calm_wired lives calm) fun e member => ?_⟩
  obtain ⟨life, found, params, -⟩ := mem_entries.1 member
  rw [params, (calm life (List.mem_of_getElem? found)).params]
  decide

/-- A node URL of a comma gets through startup. -/
def commaEnvironment : Environment := fun key =>
  [("GOBLIN_ALLOW_TRANSFERS", "1"), ("GOBLIN_GRIN_NODE_URL", " , ")].lookup key

def commaApp : App := ⟨{ config with readRateMax := 120, writeRateMax := 10, grinNodeUrl := some "," },
  crates script⟩

def commaWorld : World :=
  { world with node := some (commaApp.client.source commaApp.crates.valueToString
      (fun _ => reports 909) (reports 1000)) }

/-- Ada's offer is claimed and revoked. -/
def commaSale : List (Concurrent.Event Request Around) :=
  .arrive registerAda :: sections 0 10 ++ .arrive lodgeOne :: sections 1 10 ++
    .arrive claimOne :: sections 2 9 ++ .arrive revokeOne :: sections 3 9

/-- Although the network would report the kernel, the claim is refused, and the
offer is revoked without a height. -/
theorem comma_starts : commaApp.client.endpoints = [] ∧
    (∀ w steps c, Run (authority commaApp) (.start w) steps c →
      (∀ s ∈ steps, ∀ x ∈ s.before.hist.states, x.Wired commaApp) → Unsold w c.hist.now) ∧
    ∃ steps c response, Run (authority commaApp) (.start commaWorld) steps c ∧
      steps.map Transition.event = commaSale ∧ c.procs[2]? = some (claimOne, .ret response) ∧
      response.status = 409 ∧ (∃ o ∈ c.hist.now.db.offers.rows, o.status = .revoked) ∧
      Unsold commaWorld c.hist.now := by
  have started : Started commaApp (fun _ => .error "") commaEnvironment := by
    refine ⟨⟨commaApp.cfg, "127.0.0.1:8191", "/opt/goblin/nip05d/nip05.db"⟩, ?_, rfl⟩
    rfl
  obtain ⟨endpoints, unsold⟩ := starts_without_endpoint started rfl
  have none_ : commaApp.client.endpoints = [] := by
    refine endpoints.2 ⟨" , ", rfl, ?_⟩
    have blank : (chars " , ").all (fun c => Config.separatesEndpoints c || isWhitespace c) = true := by
      decide
    intro c there
    exact Bool.or_eq_true_iff.1 (List.all_eq_true.1 blank c there)
  have replayed : ((authority commaApp).replayMeeting (fun _ _ _ => True) (.start commaWorld)
      commaSale).any (fun c =>
        (c.procs[2]?.any fun p => p.1 == claimOne && p.2.answer?.any (·.status == 409)) &&
          c.hist.now.db.offers.rows.any (·.status == .revoked)) = true := by
    decide +kernel
  obtain ⟨c, run, found⟩ := (Option.any_eq_true _ _).1 replayed
  rw [Bool.and_eq_true] at found
  obtain ⟨response, there, status⟩ := answered_of_any found.1
  obtain ⟨o, member, revoked⟩ := List.any_eq_true.1 found.2
  rw [beq_iff_eq] at status revoked
  obtain ⟨steps, run, events, -⟩ := Run.replayMeeting run
  have wired : commaWorld.Wired commaApp := by
    rintro node ⟨⟩
    exact ⟨_, _, rfl⟩
  refine ⟨none_, fun w steps c run wired => (unsold none_ w steps c run wired).1, steps, c, response,
    run, events, there, status, ⟨o, member, revoked⟩, ?_⟩
  exact (unsold none_ _ steps c run (wired_undisturbed run wired (by rw [events]; decide))).1

end Scripted

end Nip05d
