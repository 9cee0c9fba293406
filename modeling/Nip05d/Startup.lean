import Nip05d.Lookalikes
import Nip05d.Persistence
import Nip05d.Text.Split

/-!
# Startup

The configuration of a life is read from the variables of its process, with the
defaults of the original deployment, and checked once. What it reserves is kept
for good: no look-alike of a built-in term, of a label of the domain or of a line
of the reserved file is held by anyone, in any life, when every life was started
with that term reserved.
-/

namespace Nip05d

open Concurrent Handlers Names Text

/-- The variables of a process; `none` when unset or not Unicode. -/
abbrev Environment := String → Option String

/-- The text of a file, or why it cannot be read. -/
abbrev Files := String → Except String String

/-- A configuration with the address and the database file of the process. -/
structure Settings where
  cfg : Config
  bindAddr : String
  dbPath : String

namespace Config

def envBool (u : CaseData) (env : Environment) (key : String) (default : Bool) : Bool :=
  match env key with
  | some v => ["1", "true", "yes", "on"].contains (toLowercase u (trim v))
  | none => default

def envString (env : Environment) (key default : String) : String := (env key).getD default

/-- A variable that does not parse counts as unset. -/
def envParse {α : Type} (parse : String → Option α) (env : Environment) (key : String)
    (default : α) : α :=
  match env key with
  | some v => (parse v).getD default
  | none => default

/-- The names of a reserved file: one a line, without blank lines and comments. -/
def loadReservedFile (u : CaseData) (files : Files) (path : String) :
    Except String (List String) :=
  match files path with
  | .error e => .error s!"GOBLIN_RESERVED_FILE `{path}` unreadable: {e}"
  | .ok text =>
    .ok ((((lines text).map trim).filter fun l => l ≠ "" ∧ (chars l).head? ≠ some '#').map
      (toLowercase u))

/-- The names of the reserved file that the environment asks for. -/
def listedNames (u : CaseData) (files : Files) (env : Environment) :
    Except String (List String) :=
  match env "GOBLIN_RESERVED_FILE" with
  | some path => if path ≠ "" then loadReservedFile u files path else .ok []
  | none => .ok []

theorem envParse_range {env : Environment} {key : String} {default : Int} (fits : InI64 default) :
    InI64 (envParse parseI64 env key default) := by
  unfold envParse
  split
  · rename_i v _
    cases parsed : parseI64 v with
    | none => exact fits
    | some n => simpa using (Option.filter_eq_some_iff.1 parsed).2
  · exact fits

/-- The configuration that the environment asks for, with the defaults. -/
def fromEnv (u : CaseData) (files : Files) (env : Environment) : Except String Settings := do
  let domain := envString env "GOBLIN_DOMAIN" "goblin.st"
  let listed ← listedNames u files env
  let cfg : Config := {
    domain
    baseUrl := envString env "GOBLIN_BASE_URL" "https://goblin.st"
    relays := trimmedPieces (· == ',') (envString env "GOBLIN_RELAYS" "wss://relay.floonet.dev")
    nameChangeCooldown :=
      envParse parseU64 env "GOBLIN_NAME_CHANGE_COOLDOWN_SECS" 600 * RateLimit.nanosPerSec
    authMaxAgeSecs := envParse parseI64 env "GOBLIN_AUTH_MAX_AGE_SECS" 60
    nameMin := envParse parseU64 env "GOBLIN_NAME_MIN" 3
    nameMax := envParse parseU64 env "GOBLIN_NAME_MAX" 20
    readRateMax := envParse parseU64 env "GOBLIN_READ_RATE_MAX" 120
    readRateWindow :=
      envParse parseU64 env "GOBLIN_READ_RATE_WINDOW_SECS" 60 * RateLimit.nanosPerSec
    writeRateMax := envParse parseU64 env "GOBLIN_WRITE_RATE_MAX" 10
    writeRateWindow :=
      envParse parseU64 env "GOBLIN_WRITE_RATE_WINDOW_SECS" 3600 * RateLimit.nanosPerSec
    extraReserved := domainReserved u domain ++ listed
    allowTransfers := envBool u env "GOBLIN_ALLOW_TRANSFERS" false
    grinNodeUrl := ((env "GOBLIN_GRIN_NODE_URL").map trim).filter (· ≠ "")
    transferMinConf := envParse parseU64 env "GOBLIN_TRANSFER_MIN_CONF" 10
    transferMaxOfferTtl := envParse parseI64 env "GOBLIN_TRANSFER_MAX_OFFER_TTL" 2592000
    transferClaimGrace := envParse parseI64 env "GOBLIN_TRANSFER_CLAIM_GRACE" 86400
    authMaxAge_range := envParse_range (by decide)
    transferMaxOfferTtl_range := envParse_range (by decide)
    transferClaimGrace_range := envParse_range (by decide) }
  cfg.validate
  return ⟨cfg, envString env "NIP05_BIND" "127.0.0.1:8191",
    envString env "NIP05_DB" "/opt/goblin/nip05d/nip05.db"⟩

def separatesEndpoints (c : Char) : Bool := [',', ' ', '\t', '\n'].contains c

/-- The foreign-API endpoints of the node. -/
def grinNodeEndpoints (cfg : Config) : List String :=
  trimmedPieces separatesEndpoints (cfg.grinNodeUrl.getD "")

/-- The lines of `.env.example` that show a default. -/
def shown : List (String × String) := [
  ("GOBLIN_DOMAIN", "goblin.st"), ("GOBLIN_BASE_URL", "https://goblin.st"),
  ("GOBLIN_RELAYS", "wss://relay.floonet.dev"), ("NIP05_BIND", "127.0.0.1:8191"),
  ("NIP05_DB", "/opt/goblin/nip05d/nip05.db"), ("GOBLIN_NAME_CHANGE_COOLDOWN_SECS", "600"),
  ("GOBLIN_AUTH_MAX_AGE_SECS", "60"), ("GOBLIN_NAME_MIN", "3"), ("GOBLIN_NAME_MAX", "20"),
  ("GOBLIN_READ_RATE_MAX", "120"), ("GOBLIN_READ_RATE_WINDOW_SECS", "60"),
  ("GOBLIN_WRITE_RATE_MAX", "10"), ("GOBLIN_WRITE_RATE_WINDOW_SECS", "3600"),
  ("GOBLIN_ALLOW_TRANSFERS", "false"), ("GOBLIN_TRANSFER_MIN_CONF", "10"),
  ("GOBLIN_TRANSFER_MAX_OFFER_TTL", "2592000"), ("GOBLIN_TRANSFER_CLAIM_GRACE", "86400")]

/-- An environment with the unset variables as they are shown. -/
def asShown (env : Environment) : Environment := fun key => (env key).or (shown.lookup key)

section

variable {u : CaseData} {files : Files} {env : Environment}

theorem envString_asShown {key default : String} (line : shown.lookup key = some default) :
    envString (asShown env) key default = envString env key default := by
  unfold envString asShown
  rw [line]
  cases env key <;> rfl

theorem envParse_asShown {α : Type} {parse : String → Option α} {key : String} {default : α}
    (line : (shown.lookup key).bind parse = some default) :
    envParse parse (asShown env) key default = envParse parse env key default := by
  obtain ⟨text, line, parses⟩ := Option.bind_eq_some_iff.1 line
  unfold envParse asShown
  rw [line]
  cases env key with
  | none => exact congrArg (Option.getD · default) parses
  | some v => rfl

theorem envBool_asShown {key : String} (line : shown.lookup key = some "false") :
    envBool u (asShown env) key false = envBool u env key false := by
  unfold envBool asShown
  rw [line]
  cases env key with
  | none =>
    have lower : toLowercase u (trim "false") = "false" := by
      have ascii : (chars (trim "false")).all (fun c => decide (c.toNat < 128)) = true := by decide
      rw [← chars_inj, toLowercase_of_ascii fun c there => of_decide_eq_true (List.all_eq_true.1 ascii c there)]
      decide
    simp only [Option.none_or, lower]
    decide
  | some v => rfl

theorem asShown_hidden {key : String} (hidden : shown.lookup key = none) :
    asShown env key = env key := by
  rw [asShown, hidden, Option.or_none]

/-- An unset variable behaves as the line that shows it. -/
theorem fromEnv_asShown : fromEnv u files (asShown env) = fromEnv u files env := by
  unfold fromEnv listedNames
  simp (disch := decide) only [envString_asShown, envParse_asShown, envBool_asShown, asShown_hidden]

/-- What was loaded was checked, and extends the reserved names. -/
theorem fromEnv_ok {s : Settings} (loaded : fromEnv u files env = .ok s) :
    s.cfg.validate = .ok () ∧
    (∃ listed, listedNames u files env = .ok listed ∧ s.cfg.extraReserved =
      domainReserved u (envString env "GOBLIN_DOMAIN" "goblin.st") ++ listed) ∧
    s.cfg.grinNodeUrl = ((env "GOBLIN_GRIN_NODE_URL").map trim).filter (· ≠ "") := by
  unfold fromEnv at loaded
  cases read : listedNames u files env with
  | error e =>
    rw [read] at loaded
    cases loaded
  | ok listed =>
    rw [read] at loaded
    simp only [bind, Except.bind] at loaded
    split at loaded
    · cases loaded
    · rename_i valid
      cases loaded
      exact ⟨valid, ⟨listed, rfl, rfl⟩, rfl⟩

end

end Config

/-! ## Reserved terms -/

/-- A life of the authority was started from an environment. -/
def Started (app : App) (files : Files) (env : Environment) : Prop :=
  ∃ s, Config.fromEnv app.crates.unicode files env = .ok s ∧ s.cfg = app.cfg

/-- A term that startup reserves: a built-in one, a label that the domain keeps,
or a line of the reserved file. -/
inductive Reserves (u : CaseData) (files : Files) (env : Environment) : String → Prop where
  | builtIn {term : String} : term ∈ reserved → Reserves u files env term
  | label {label : String} {before after : List Char} :
      KeptLabel (Config.envString env "GOBLIN_DOMAIN" "goblin.st") label before after →
      Reserves u files env (toLowercase u label)
  | listed {path text : String} {line : List Char} :
      env "GOBLIN_RESERVED_FILE" = some path → path ≠ "" → files path = .ok text →
      Line text line → trimChars line ≠ [] → (trimChars line).head? ≠ some '#' →
      Reserves u files env (toLowercase u (String.ofList (trimChars line)))

/-- A visible line of the reserved file that is no comment is loaded. -/
theorem Config.listedNames_mem {u : CaseData} {files : Files} {env : Environment}
    {path text : String} {line : List Char} {listed : List String}
    (loaded : listedNames u files env = .ok listed) (named : env "GOBLIN_RESERVED_FILE" = some path)
    (nonempty : path ≠ "") (read : files path = .ok text) (here : Line text line)
    (visible : trimChars line ≠ []) (uncommented : (trimChars line).head? ≠ some '#') :
    toLowercase u (String.ofList (trimChars line)) ∈ listed := by
  obtain ⟨l, member, trimmed⟩ := here.mem visible
  simp only [listedNames, named, if_pos nonempty, loadReservedFile, read, Except.ok.injEq] at loaded
  subst loaded
  refine List.mem_map_of_mem (List.mem_filter.2 ⟨trimmed ▸ List.mem_map_of_mem member, ?_⟩)
  rw [decide_eq_true_iff, chars_ofList]
  refine ⟨fun empty => visible ?_, uncommented⟩
  rw [← chars_ofList (trimChars line), empty]
  rfl

theorem Reserves.mem {app : App} {files : Files} {env : Environment} {term : String}
    (reserves : Reserves app.crates.unicode files env term) (started : Started app files env) :
    term ∈ reserved ++ app.cfg.extraReserved := by
  obtain ⟨s, loaded, same⟩ := started
  obtain ⟨-, ⟨listed, file, extra⟩, -⟩ := Config.fromEnv_ok loaded
  rw [← same, extra, List.mem_append, List.mem_append]
  cases reserves with
  | builtIn member => exact .inl member
  | label kept => exact .inr (.inl kept.reserved)
  | listed named nonempty read here visible uncommented =>
    exact .inr (.inr (Config.listedNames_mem file named nonempty read here visible uncommented))

/-- **No look-alike of a reserved term is ever held**, when every life was started
with that term reserved. -/
theorem brands_unclaimed {lives : List (Life App World Stmt Request Around Response)} {w : World}
    (run : deployment.Lives lives w) {term name : String}
    (reserved : ∀ life ∈ lives, ∃ files env, Started life.params files env ∧
      Reserves life.params.crates.unicode files env term)
    (alike : Lookalike term name) : w.db.lookup name = none := by
  cases owned : w.db.lookup name with
  | none => rfl
  | some p =>
    obtain ⟨-, e, member, registers⟩ := (descended run).owners name p owned
    obtain ⟨life, found, params, -⟩ := mem_entries.1 member
    obtain ⟨files, env, started, reserves⟩ := reserved life (List.mem_of_getElem? found)
    have listed : isReserved name e.params.cfg.extraReserved = true :=
      isReserved_iff.2 ⟨term, params ▸ reserves.mem started, alike.fold⟩
    rw [registers.unreserved] at listed
    cases listed

namespace Scripted

/-- The variables that start the scripted authority. -/
def environment : Environment := fun key =>
  [("GOBLIN_ALLOW_TRANSFERS", "Yes "), ("GOBLIN_READ_RATE_MAX", "100000"),
    ("GOBLIN_GRIN_NODE_URL", "https://node.example/v2/foreign"),
    ("GOBLIN_WRITE_RATE_MAX", "100000")].lookup key

theorem environment_started : Started resaleApp (fun _ => .error "") environment := by
  refine ⟨⟨config, "127.0.0.1:8191", "/opt/goblin/nip05d/nip05.db"⟩, ?_, rfl⟩
  rfl

/-- The brand stays free while ada is sold and sold on. -/
theorem goblin_unclaimed : ∃ lives w proof, deployment.Lives lives w ∧
    SoldIn lives 1 1 (offerId 105) proof ∧ w.db.lookup "g-0blin" = none := by
  obtain ⟨lives, w, -, proof, run, -, sold, calm⟩ := resale_lives
  have kept : KeptLabel "goblin.st" "goblin" [] ['.', 's', 't'] := {
    found := by decide
    nonempty := by decide
    undotted := by decide
    starts := .inl rfl
    ends := .inr ⟨['s', 't'], rfl⟩
    kept := .inl ⟨'s', by decide, by decide⟩ }
  have alike : Lookalike (toLowercase .asciiOnly "goblin") "g-0blin" := by
    refine .tail (.single (.insert ['g'] ['o', 'b', 'l', 'i', 'n'] '-' (by decide))) ?_
    exact .exchange ['g', '-'] ['b', 'l', 'i', 'n'] rfl rfl
  refine ⟨lives, w, proof, run, sold, brands_unclaimed run (fun life member => ?_) alike⟩
  rw [(calm life member).params]
  exact ⟨_, environment, environment_started, .label kept⟩

end Scripted

end Nip05d
