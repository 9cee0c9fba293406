import Nip05d.Scripted

/-!
# What an auth event authorises

The tags of an auth event are read in any order, with repetitions and without
values. What a read leaves behind depends on the last tag of each kind only, and
so does what the event can be accepted for.
-/

namespace Nip05d.Auth

open Text

/-- The value of a tag with a key. -/
def tagValue (key : String) : List String → Option String
  | k :: value :: _ => if k = key then some value else none
  | _ => none

/-- The value of the last tag with a key that has one. -/
def lastValue (tags : List (List String)) (key : String) : Option String :=
  (tags.filterMap (tagValue key)).getLast?

/-- The value of the last payload tag, if that tag has one. -/
def payloadValue (tags : List (List String)) : Option String :=
  (tags.filter (·.head? = some "payload")).getLast?.bind (·[1]?)

/-- Two requests are one up to what an event says of a request. -/
structure SameRequest (app : App) (event : Event) (method₁ method₂ : Method)
    (path₁ path₂ : String) (body₁ body₂ : Bytes) : Prop where
  method : eqIgnoreAsciiCase method₁.asStr method₂.asStr = true
  path : trimEndMatches path₁ '/' = trimEndMatches path₂ '/'
  body : app.crates.sha256 body₁ = app.crates.sha256 body₂
  empty : payloadValue event.tags = none → body₁ = [] ∧ body₂ = []

/-- Two write requests are for one endpoint and one name, offer or body. -/
def SameTarget (app : App) : Request → Request → Prop
  | .register _ b₁, .register _ b₂ => app.crates.sha256 b₁ = app.crates.sha256 b₂
  | .unregister _ n₁, .unregister _ n₂ =>
    trimEndMatches (app.toLowercase n₁) '/' = trimEndMatches (app.toLowercase n₂) '/'
  | .lodgeOffer _ b₁, .lodgeOffer _ b₂ => app.crates.sha256 b₁ = app.crates.sha256 b₂
  | .revokeOffer _ i₁, .revokeOffer _ i₂ => trimEndMatches i₁ '/' = trimEndMatches i₂ '/'
  | .claim _ b₁, .claim _ b₂ => app.crates.sha256 b₁ = app.crates.sha256 b₂
  | _, _ => False

/-! ## Reading tags -/

section

variable {app : App} {event : Event} {method method₁ method₂ : Method}
  {path path₁ path₂ : String} {body body₁ body₂ : Bytes} {now : Int} {r : String × String}

theorem lastValue_snoc (tags : List (List String)) (tag : List String) (key : String) :
    lastValue (tags ++ [tag]) key = (tagValue key tag).or (lastValue tags key) := by
  rw [lastValue, List.filterMap_append, List.getLast?_append]
  cases value : tagValue key tag with
  | none =>
    rw [List.filterMap_cons_none value]
    rfl
  | some v =>
    rw [List.filterMap_cons_some value]
    rfl

theorem payloadValue_snoc (tags : List (List String)) (tag : List String) :
    payloadValue (tags ++ [tag]) =
      if tag.head? = some "payload" then tag[1]? else payloadValue tags := by
  rw [payloadValue, List.filter_append, List.getLast?_append]
  split
  · rename_i named
    rw [List.filter_cons_of_pos (by simpa using named)]
    rfl
  · rename_i other
    rw [List.filter_cons_of_neg (by simpa using other)]
    rfl

/-- One more tag changes what the tags say by that tag's kind. -/
theorem read_snoc (expected : String) (tags : List (List String)) (tag : List String) :
    AuthTags.read expected method
      ⟨(lastValue tags "u").any fun u => trimEndMatches u '/' == trimEndMatches expected '/',
        (lastValue tags "method").any (eqIgnoreAsciiCase · method.asStr), payloadValue tags⟩ tag =
      ⟨(lastValue (tags ++ [tag]) "u").any fun u =>
          trimEndMatches u '/' == trimEndMatches expected '/',
        (lastValue (tags ++ [tag]) "method").any (eqIgnoreAsciiCase · method.asStr),
        payloadValue (tags ++ [tag])⟩ := by
  rw [lastValue_snoc, lastValue_snoc, payloadValue_snoc]
  match tag with
  | [] => rfl
  | [key] =>
    by_cases hu : key = "u"
    · subst hu; rfl
    · by_cases hm : key = "method"
      · subst hm; rfl
      · by_cases hp : key = "payload"
        · subst hp; rfl
        · simp [AuthTags.read, tagValue, hu, hm, hp]
  | key :: value :: rest =>
    by_cases hu : key = "u"
    · subst hu; rfl
    · by_cases hm : key = "method"
      · subst hm; rfl
      · by_cases hp : key = "payload"
        · subst hp; rfl
        · simp [AuthTags.read, tagValue, hu, hm, hp]

/-- **Reading tags.** Only the last value of each kind counts; a payload tag
without a value unsets it. -/
theorem readTags_eq (event : Event) (expected : String) (method : Method) :
    readTags event expected method =
      ⟨(lastValue event.tags "u").any fun u => trimEndMatches u '/' == trimEndMatches expected '/',
        (lastValue event.tags "method").any (eqIgnoreAsciiCase · method.asStr),
        payloadValue event.tags⟩ := by
  unfold readTags
  induction event.tags using List.reverseRecOn with
  | nil => rfl
  | append_singleton tags tag ih => rw [List.foldl_append, ih, List.foldl_cons, List.foldl_nil, read_snoc]

/-! ## What an accepted event has said -/

/-- What a payload value says of a body: its hash, or that it is empty. -/
def Endorses (app : App) : Option String → Bytes → Prop
  | some hash, body => (chars hash).map Char.toLower = Hex.encodeChars (app.crates.sha256 body)
  | none, body => body = []

/-- What the tags of an event say of a request that it is accepted for. -/
structure Spoken (app : App) (event : Event) (method : Method) (path : String) (body : Bytes) :
    Prop where
  url : ∃ u, lastValue event.tags "u" = some u ∧
    trimEndMatches u '/' = trimEndMatches (app.cfg.baseUrl ++ path) '/'
  method : ∃ m, lastValue event.tags "method" = some m ∧
    (chars m).map Char.toLower = (chars method.asStr).map Char.toLower
  payload : Endorses app (payloadValue event.tags) body

theorem encodeChars_lower (bytes : Bytes) :
    (Hex.encodeChars bytes).map Char.toLower = Hex.encodeChars bytes :=
  Hex.decodeChars_lower (Hex.decodeChars_encodeChars bytes)

theorem checkPayload_ok {hash : Option String} (ok : checkPayload app hash body = .ok ()) :
    Endorses app hash body := by
  unfold checkPayload at ok
  cases hash with
  | none =>
    by_cases empty : body = []
    · exact empty
    · simp only [ne_eq, empty, not_false_eq_true, if_true] at ok
      cases ok
  | some hash =>
    simp only at ok
    split at ok
    · rename_i same
      rw [eqIgnoreAsciiCase, beq_iff_eq, Hex.encode, chars_ofList, encodeChars_lower] at same
      exact same
    · cases ok

/-- An event that is accepted has said the url, the method and the payload. -/
theorem checkEvent_spoken (ok : checkEvent app event method path body now = .ok r) :
    Spoken app event method path body := by
  unfold checkEvent at ok
  split at ok
  · cases ok
  · rw [readTags_eq] at ok
    simp only [Bool.not_eq_true] at ok
    split at ok
    · cases ok
    · rename_i url
      split at ok
      · cases ok
      · rename_i said
        split at ok
        · cases ok
        · rename_i passed
          rw [Bool.not_eq_false, Option.any_eq_true] at url said
          obtain ⟨u, lastU, sameU⟩ := url
          obtain ⟨m, lastM, sameM⟩ := said
          exact {
            url := ⟨u, lastU, beq_iff_eq.1 sameU⟩
            method := ⟨m, lastM, beq_iff_eq.1 sameM⟩
            payload := checkPayload_ok passed }

theorem verifyNip98_spoken {headers : Headers} (found : authEvent app headers = .ok event)
    (ok : verifyNip98 app headers method path body now = .ok r) :
    Spoken app event method path body := by
  simp only [verifyNip98, found] at ok
  exact checkEvent_spoken ok

/-- Paths after one base URL are told apart up to trailing slashes. -/
theorem trimEndMatches_append_inj {front s t : String} {c : Char} :
    trimEndMatches (front ++ s) c = trimEndMatches (front ++ t) c ↔
      trimEndMatches s c = trimEndMatches t c := by
  simp only [trimEndMatches, String.ofList_inj, chars_append, rdropWhile_append_inj]

/-- Requests that one event has spoken of are one. -/
theorem Spoken.same (first : Spoken app event method₁ path₁ body₁)
    (second : Spoken app event method₂ path₂ body₂) :
    SameRequest app event method₁ method₂ path₁ path₂ body₁ body₂ := by
  obtain ⟨u, lastU, url₁⟩ := first.url
  obtain ⟨u', lastU', url₂⟩ := second.url
  obtain ⟨m, lastM, said₁⟩ := first.method
  obtain ⟨m', lastM', said₂⟩ := second.method
  cases lastU.symm.trans lastU'
  cases lastM.symm.trans lastM'
  have payload₁ := first.payload
  have payload₂ := second.payload
  refine ⟨beq_iff_eq.2 (said₁.symm.trans said₂),
    trimEndMatches_append_inj.1 (url₁.symm.trans url₂), ?_, ?_⟩
  · cases value : payloadValue event.tags with
    | none =>
      rw [value] at payload₁ payload₂
      rw [payload₁, payload₂]
    | some hash =>
      rw [value] at payload₁ payload₂
      have same : Hex.encodeChars _ = Hex.encodeChars _ := Eq.trans (Eq.symm payload₁) payload₂
      exact Hex.encode_inj.1 (congrArg String.ofList same)
  · intro none
    rw [none] at payload₁ payload₂
    exact ⟨payload₁, payload₂⟩

/-! ## Endpoints -/

/-- Texts that differ at one place differ when trimmed at the end. -/
theorem trimEndMatches_ne {s t : String} {c : Char} (n : Nat)
    (hs : ∃ d ∈ (chars s).drop n, d ≠ c) (ht : ∃ d ∈ (chars t).drop n, d ≠ c)
    (differ : (chars s).take n ≠ (chars t).take n) : trimEndMatches s c ≠ trimEndMatches t c := by
  have front : ∀ {cs : List Char}, (∃ d ∈ cs.drop n, d ≠ c) →
      (cs.rdropWhile (· == c)).take n = cs.take n := by
    intro cs other
    have long : (cs.take n).length = n := by
      obtain ⟨d, member, -⟩ := other
      have := List.length_pos_of_mem member
      rw [List.length_drop] at this
      rw [List.length_take]
      omega
    have split : (cs.take n ++ cs.drop n).rdropWhile (· == c) =
        cs.take n ++ (cs.drop n).rdropWhile (· == c) := by
      refine rdropWhile_append_of_exists ?_
      obtain ⟨d, member, other⟩ := other
      exact ⟨d, member, beq_false_of_ne other⟩
    rw [List.take_append_drop] at split
    rw [split, List.take_left' long]
  intro same
  have same : (chars s).rdropWhile (· == c) = (chars t).rdropWhile (· == c) :=
    String.ofList_inj.1 same
  exact differ (by rw [← front hs, same, front ht])

/-- The paths of the two endpoints that take a name or an offer differ. -/
theorem deletes_differ (name offerId : String) :
    trimEndMatches ("/api/v1/register/" ++ name) '/' ≠
      trimEndMatches ("/api/v1/transfer/offer/" ++ offerId) '/' := by
  have register : ∀ n ≤ 17, (chars ("/api/v1/register/" ++ name)).take n =
      (chars "/api/v1/register/").take n := by
    intro n small
    rw [chars_append, List.take_append_of_le_length small]
  have transfer : ∀ n ≤ 23, (chars ("/api/v1/transfer/offer/" ++ offerId)).take n =
      (chars "/api/v1/transfer/offer/").take n := by
    intro n small
    rw [chars_append, List.take_append_of_le_length small]
  refine trimEndMatches_ne 9 ⟨'e', ?_, by decide⟩ ⟨'r', ?_, by decide⟩ ?_
  · rw [chars_append, List.drop_append_of_le_length (by decide)]
    exact List.mem_append_left _ (by decide)
  · rw [chars_append, List.drop_append_of_le_length (by decide)]
    exact List.mem_append_left _ (by decide)
  · rw [register 9 (by decide), transfer 9 (by decide)]
    decide

/-- One request has one target. -/
theorem SameRequest.target {r₁ r₂ : Request} {e₁ e₂ : Entry} (h₁ : r₁.entry app = some e₁)
    (h₂ : r₂.entry app = some e₂)
    (same : SameRequest app event e₁.method e₂.method e₁.urlPath e₂.urlPath e₁.body e₂.body) :
    SameTarget app r₁ r₂ := by
  have methods : ¬ eqIgnoreAsciiCase "POST" "DELETE" = true := by decide
  have methods' : ¬ eqIgnoreAsciiCase "DELETE" "POST" = true := by decide
  have registerOffer : trimEndMatches "/api/v1/register" '/' ≠
      trimEndMatches "/api/v1/transfer/offer" '/' := by decide
  have registerClaim : trimEndMatches "/api/v1/register" '/' ≠
      trimEndMatches "/api/v1/transfer/claim" '/' := by decide
  have offerClaim : trimEndMatches "/api/v1/transfer/offer" '/' ≠
      trimEndMatches "/api/v1/transfer/claim" '/' := by decide
  cases r₁ with
  | register headers body =>
    cases h₁
    cases r₂ with
    | register headers body => cases h₂; exact same.body
    | unregister headers name => cases h₂; exact absurd same.method methods
    | lodgeOffer headers body => cases h₂; exact absurd same.path registerOffer
    | revokeOffer headers offerId => cases h₂; exact absurd same.method methods
    | claim headers body => cases h₂; exact absurd same.path registerClaim
    | _ => cases h₂
  | unregister headers name =>
    cases h₁
    cases r₂ with
    | register headers body => cases h₂; exact absurd same.method methods'
    | unregister headers name => cases h₂; exact trimEndMatches_append_inj.1 same.path
    | lodgeOffer headers body => cases h₂; exact absurd same.method methods'
    | revokeOffer headers offerId => cases h₂; exact absurd same.path (deletes_differ _ _)
    | claim headers body => cases h₂; exact absurd same.method methods'
    | _ => cases h₂
  | lodgeOffer headers body =>
    cases h₁
    cases r₂ with
    | register headers body => cases h₂; exact absurd same.path.symm registerOffer
    | unregister headers name => cases h₂; exact absurd same.method methods
    | lodgeOffer headers body => cases h₂; exact same.body
    | revokeOffer headers offerId => cases h₂; exact absurd same.method methods
    | claim headers body => cases h₂; exact absurd same.path offerClaim
    | _ => cases h₂
  | revokeOffer headers offerId =>
    cases h₁
    cases r₂ with
    | register headers body => cases h₂; exact absurd same.method methods'
    | unregister headers name => cases h₂; exact absurd same.path.symm (deletes_differ _ _)
    | lodgeOffer headers body => cases h₂; exact absurd same.method methods'
    | revokeOffer headers offerId => cases h₂; exact trimEndMatches_append_inj.1 same.path
    | claim headers body => cases h₂; exact absurd same.method methods'
    | _ => cases h₂
  | claim headers body =>
    cases h₁
    cases r₂ with
    | register headers body => cases h₂; exact absurd same.path.symm registerClaim
    | unregister headers name => cases h₂; exact absurd same.method methods
    | lodgeOffer headers body => cases h₂; exact absurd same.path.symm offerClaim
    | revokeOffer headers offerId => cases h₂; exact absurd same.method methods
    | claim headers body => cases h₂; exact same.body
    | _ => cases h₂
  | _ => cases h₁

/-- **One signed auth event authorises one request**, whatever its tags are. -/
theorem event_authorises_one {headers₁ headers₂ : Headers} {now₁ now₂ : Int}
    {r₁ r₂ : String × String}
    (found₁ : authEvent app headers₁ = .ok event) (found₂ : authEvent app headers₂ = .ok event)
    (ok₁ : verifyNip98 app headers₁ method₁ path₁ body₁ now₁ = .ok r₁)
    (ok₂ : verifyNip98 app headers₂ method₂ path₂ body₂ now₂ = .ok r₂) :
    SameRequest app event method₁ method₂ path₁ path₂ body₁ body₂ ∧
    ∀ req₁ req₂ e₁ e₂, Request.entry app req₁ = some e₁ → Request.entry app req₂ = some e₂ →
      (e₁.method, e₁.urlPath, e₁.body) = (method₁, path₁, body₁) →
      (e₂.method, e₂.urlPath, e₂.body) = (method₂, path₂, body₂) → SameTarget app req₁ req₂ := by
  have same := (verifyNip98_spoken found₁ ok₁).same (verifyNip98_spoken found₂ ok₂)
  refine ⟨same, fun req₁ req₂ e₁ e₂ entry₁ entry₂ first second => ?_⟩
  cases first
  cases second
  exact same.target entry₁ entry₂

end

end Nip05d.Auth

namespace Nip05d.Scripted

open Auth Text

/-- Ada's registration is accepted as well when its method is spelled in lower
case and its path ends in slashes; it is the same request. -/
theorem register_bound : ∃ event r₁ r₂,
    authEvent app (headers "register ada") = .ok event ∧
    verifyNip98 app (headers "register ada") .post "/api/v1/register" (utf8 "R1") 1000 = .ok r₁ ∧
    verifyNip98 app (headers "register ada") (.other "post") "/api/v1/register//" (utf8 "R1") 1005 =
      .ok r₂ ∧
    SameRequest app event .post (.other "post") "/api/v1/register" "/api/v1/register//" (utf8 "R1")
      (utf8 "R1") := by
  have run : ((authEvent app (headers "register ada")).toOption.isSome &&
      (verifyNip98 app (headers "register ada") .post "/api/v1/register" (utf8 "R1")
        1000).toOption.isSome &&
      (verifyNip98 app (headers "register ada") (.other "post") "/api/v1/register//" (utf8 "R1")
        1005).toOption.isSome) = true := by
    decide +kernel
  have passed : ∀ {α : Type} {x : Except Refusal α}, x.toOption.isSome = true → ∃ a, x = .ok a := by
    intro α x some
    cases x with
    | ok a => exact ⟨a, rfl⟩
    | error e => cases some
  simp only [Bool.and_eq_true] at run
  obtain ⟨event, found⟩ := passed run.1.1
  obtain ⟨r₁, ok₁⟩ := passed run.1.2
  obtain ⟨r₂, ok₂⟩ := passed run.2
  exact ⟨event, r₁, r₂, found, ok₁, ok₂, (event_authorises_one found found ok₁ ok₂).1⟩

end Nip05d.Scripted
