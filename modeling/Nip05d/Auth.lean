import Nip05d.Crates

/-!
# NIP-98 authorization

The check of an `Authorization: Nostr <base64-event>` header: signature, kind,
freshness, and the url, method and payload tags.
-/

namespace Nip05d.Auth

open Text

/-- The methods of the write endpoints, and any other token. -/
inductive Method where
  | post
  | delete
  | other (token : String)
  deriving DecidableEq, Repr

def Method.asStr : Method → String
  | .post => "POST"
  | .delete => "DELETE"
  | .other token => token

/-- The header values that are read; a value that is not text counts as absent. -/
structure Headers where
  authorization : Option String
  xRealIp : Option String
  deriving DecidableEq

/-- The address that rate limits are keyed by. -/
def clientIp (headers : Headers) : String := headers.xRealIp.getD "unknown"

/-- A status code and a message. -/
abbrev Refusal := Nat × String

def unauthorized (msg : String) : Refusal := (401, msg)

/-- The verified event of the Authorization header. -/
def authEvent (app : App) (headers : Headers) : Except Refusal Event :=
  match headers.authorization with
  | none => .error (unauthorized "missing Authorization header")
  | some auth =>
    match Config.stripPrefix auth "Nostr " with
    | none => .error (unauthorized "Authorization scheme must be Nostr")
    | some b64 =>
      match app.crates.base64Decode (trim b64) with
      | none => .error (unauthorized "invalid base64 auth event")
      | some raw =>
        match app.crates.eventFromJson raw with
        | none => .error (unauthorized "invalid auth event json")
        | some event =>
          if ¬ app.crates.eventVerify event then .error (unauthorized "bad event signature")
          else if event.kind ≠ 27235 then
            .error (unauthorized "auth event kind must be 27235")
          else .ok event

/-- The age of an event in seconds. -/
def age (event : Event) (now : Int) : Int := wrapI64 (now - wrapI64 event.createdAt)

/-- What the tags of an auth event have said so far. -/
structure AuthTags where
  uOk : Bool
  methodOk : Bool
  payloadHash : Option String

/-- Read one tag. The last tag of a kind decides. -/
def AuthTags.read (expected : String) (method : Method) (st : AuthTags) (parts : List String) :
    AuthTags :=
  match parts with
  | [] => st
  | key :: rest =>
    if key = "u" then
      match rest with
      | u :: _ => { st with uOk := trimEndMatches u '/' == trimEndMatches expected '/' }
      | [] => st
    else if key = "method" then
      match rest with
      | m :: _ => { st with methodOk := eqIgnoreAsciiCase m method.asStr }
      | [] => st
    else if key = "payload" then { st with payloadHash := rest.head? }
    else st

def readTags (event : Event) (expected : String) (method : Method) : AuthTags :=
  event.tags.foldl (AuthTags.read expected method) ⟨false, false, none⟩

/-- The payload hash matches the body; only an empty body may go without. -/
def checkPayload (app : App) (payloadHash : Option String) (body : Bytes) : Except Refusal Unit :=
  match payloadHash with
  | some expect =>
    if eqIgnoreAsciiCase expect (Hex.encode (app.crates.sha256 body)) then .ok ()
    else .error (unauthorized "auth event payload hash mismatch")
  | none =>
    if body ≠ [] then .error (unauthorized "auth event missing payload hash") else .ok ()

/-- The checks of an auth event at a time: age, url, method, payload. -/
def checkEvent (app : App) (event : Event) (method : Method) (urlPath : String) (body : Bytes)
    (now : Int) : Except Refusal (String × String) :=
  if age event now > app.cfg.authMaxAgeSecs ∨ age event now < -5 then
    .error (unauthorized "auth event expired or post-dated")
  else
    let tags := readTags event (app.cfg.baseUrl ++ urlPath) method
    if ¬ tags.uOk then .error (unauthorized "auth event url mismatch")
    else if ¬ tags.methodOk then .error (unauthorized "auth event method mismatch")
    else
      match checkPayload app tags.payloadHash body with
      | .error e => .error e
      | .ok () => .ok (event.pubkey.toHex, event.id.toHex)

/-- The key and the event id of a request authorized at time `now`. -/
def verifyNip98 (app : App) (headers : Headers) (method : Method) (urlPath : String)
    (body : Bytes) (now : Int) : Except Refusal (String × String) :=
  match authEvent app headers with
  | .error e => .error e
  | .ok event => checkEvent app event method urlPath body now

/-- The key that signed the Authorization header of a request. -/
def signer (app : App) (headers : Headers) : Option String :=
  match authEvent app headers with
  | .ok event => some event.pubkey.toHex
  | .error _ => none

variable {app : App} {headers : Headers} {method : Method} {urlPath : String} {body : Bytes}
  {now : Int} {pubkey id : String}

/-- An authorized request carries a verified event of its key and id whose age
is in the window. -/
theorem verifyNip98_event (ok : verifyNip98 app headers method urlPath body now = .ok (pubkey, id)) :
    ∃ event, authEvent app headers = .ok event ∧ event.pubkey.toHex = pubkey ∧
      event.id.toHex = id ∧ -5 ≤ age event now ∧ age event now ≤ app.cfg.authMaxAgeSecs := by
  unfold verifyNip98 at ok
  split at ok
  · cases ok
  · rename_i event found
    unfold checkEvent at ok
    split at ok
    · cases ok
    · rename_i fresh
      simp only at ok
      split at ok
      · cases ok
      · split at ok
        · cases ok
        · split at ok
          · cases ok
          · cases ok
            exact ⟨event, found, rfl, rfl, by omega, by omega⟩

theorem verifyNip98_signer
    (ok : verifyNip98 app headers method urlPath body now = .ok (pubkey, id)) :
    signer app headers = some pubkey := by
  obtain ⟨event, found, rfl, -⟩ := verifyNip98_event ok
  simp [signer, found]

theorem authEvent_refusal {e : Refusal} (refused : authEvent app headers = .error e) :
    e.1 = 401 := by
  unfold authEvent at refused
  repeat' split at refused
  all_goals cases refused
  all_goals rfl

theorem checkPayload_refusal {payloadHash : Option String} {e : Refusal}
    (refused : checkPayload app payloadHash body = .error e) : e.1 = 401 := by
  unfold checkPayload at refused
  repeat' split at refused
  all_goals cases refused
  all_goals rfl

theorem checkEvent_refusal {event : Event} {e : Refusal}
    (refused : checkEvent app event method urlPath body now = .error e) : e.1 = 401 := by
  unfold checkEvent at refused
  split at refused
  · cases refused; rfl
  · simp only at refused
    split at refused
    · cases refused; rfl
    · split at refused
      · cases refused; rfl
      · split at refused
        · rename_i found
          cases refused
          exact checkPayload_refusal found
        · cases refused

/-- A refused authorization is a 401. -/
theorem verifyNip98_refusal {e : Refusal}
    (refused : verifyNip98 app headers method urlPath body now = .error e) : e.1 = 401 := by
  unfold verifyNip98 at refused
  split at refused
  · rename_i found
    cases refused
    exact authEvent_refusal found
  · exact checkEvent_refusal refused

/-- The event of an authorized request is verified. -/
theorem authEvent_verified {event : Event} (found : authEvent app headers = .ok event) :
    app.crates.eventVerify event = true := by
  unfold authEvent at found
  split at found
  · cases found
  · split at found
    · cases found
    · split at found
      · cases found
      · split at found
        · cases found
        · split at found
          · cases found
          · rename_i verified
            split at found
            · cases found
            · cases found
              simpa using verified

end Nip05d.Auth
