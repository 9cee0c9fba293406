import Nip05d.Auth
import Nip05d.World

/-!
# Requests, answers and the entry checks

Every endpoint that writes begins in the same way: the write limit, the NIP-98
authorization, the one-time use of its event. `authorized` is that beginning.
-/

namespace Nip05d.Handlers

open Auth

/-- An answer: status code, header values, and JSON body. -/
structure Response where
  status : Nat
  headers : List (String × String)
  body : Json.Value

/-- A JSON object with the given fields. -/
def json (fields : List (String × Json.Value)) : Json.Value := .object fields

def contentType : String × String := ("content-type", "application/json")

/-- An answer with a JSON body. -/
def respond (status : Nat) (fields : List (String × Json.Value)) : Response :=
  ⟨status, [contentType], json fields⟩

/-- An error answer. -/
def err (code : Nat) (msg : String) : Response := respond code [("error", .string msg)]

@[simp] theorem respond_status (status : Nat) (fields : List (String × Json.Value)) :
    (respond status fields).status = status := rfl

@[simp] theorem err_status (code : Nat) (msg : String) : (err code msg).status = code := rfl

/-- A successful answer of a public read. -/
def publicRead (fields : List (String × Json.Value)) : Response where
  status := 200
  headers := [contentType, ("access-control-allow-origin", "*"), ("cache-control", "no-store")]
  body := json fields

/-- The entry of a write endpoint, and what follows for the authorized key. -/
def authorized (app : App) (bucket : String) (headers : Headers) (method : Method)
    (urlPath : String) (body : Bytes) (next : String → Handler Response) : Handler Response := do
  let allowed ← Handler.allowWrite app.cfg bucket (clientIp headers)
  if ¬ allowed then return err 429 "rate_limited"
  let now ← Handler.unixNow
  match verifyNip98 app headers method urlPath body now with
  | .error (code, msg) => return err code msg
  | .ok (authPubkey, authId) =>
    let fresh ← Handler.authEventFresh app.cfg authId
    if ¬ fresh then return err 401 "auth event replayed"
    next authPubkey

/-- The entry of a read endpoint. -/
def limited (app : App) (headers : Headers) (next : Handler Response) : Handler Response := do
  let allowed ← Handler.allowRead app.cfg (clientIp headers)
  if ¬ allowed then return err 429 "rate_limited"
  next

end Nip05d.Handlers
