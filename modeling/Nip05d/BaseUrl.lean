import Nip05d.Binding

/-!
# The public base URL

Startup compares the domain with what stands before the first `/` and `:` of the
base URL, and authorization appends paths to the base URL as it is spelled. A URL
whose authority has user information, or that ends in a slash, gets through
startup; with it the public host is another one, or the expected `u` tag is never
what a client signs.
-/

namespace Nip05d

open Auth Text

namespace Config

/-- Characters that do not end the authority of a URL. -/
def inAuthority (c : Char) : Bool := c != '/' && c != '?' && c != '#'

/-- The authority of an https URL: up to its path, query or fragment. -/
def authority (url : String) : List Char :=
  ((chars url).drop (chars "https://").length).takeWhile inAuthority

/-- What follows the user information. -/
def withoutUserinfo (authority : List Char) : List Char := authority.rtakeWhile (· != '@')

/-- What precedes a numeric port. -/
def withoutPort (cs : List Char) : List Char :=
  let front := cs.rdropWhile Char.isDigit
  if front.getLast? = some ':' then front.dropLast else cs

/-- The host of an https URL. -/
def urlHost (url : String) : String :=
  String.ofList (withoutPort (withoutUserinfo (authority url)))

/-- No port, or a colon and digits. -/
def Port (cs : List Char) : Prop := cs = [] ∨ ∃ digits, cs = ':' :: digits ∧ ∀ c ∈ digits, c.isDigit

/-- What follows the domain in the authority of the base URL. -/
def afterDomain (cfg : Config) : List Char :=
  ((chars cfg.baseUrl).drop ((chars "https://").length + (chars cfg.domain).length)).takeWhile
    inAuthority

/-- A base URL without a trailing slash, whose domain has no delimiter and is
followed by a port at most; user information has to repeat the domain. -/
structure PlainUrl (cfg : Config) : Prop where
  unslashed : (chars cfg.baseUrl).getLast? ≠ some '/'
  undelimited : ∀ c ∈ chars cfg.domain, c ≠ '@' ∧ c ≠ '?' ∧ c ≠ '#'
  port : Port cfg.afterDomain ∨ ∃ info port, cfg.afterDomain = info ++ '@' :: (chars cfg.domain ++ port) ∧
    Port port

/-! ## Ports and user information -/

theorem Port.unsigned {port : List Char} (numeric : Port port) : '@' ∉ port := by
  rcases numeric with rfl | ⟨digits, rfl, all⟩
  · exact List.not_mem_nil
  · intro member
    rcases List.mem_cons.1 member with colon | member
    · exact absurd colon (by decide)
    · exact absurd (all _ member) (by decide)

/-- A port is removed from a host without colons. -/
theorem withoutPort_append {host port : List Char} (plain : ':' ∉ host) (numeric : Port port) :
    withoutPort (host ++ port) = host := by
  rcases numeric with rfl | ⟨digits, rfl, all⟩
  · rw [List.append_nil, withoutPort, if_neg]
    intro last
    refine plain ((List.rdropWhile_prefix Char.isDigit host).mem (List.mem_of_getLast? last))
  · have front : (host ++ ':' :: digits).rdropWhile Char.isDigit = host ++ [':'] := by
      rw [List.append_cons, rdropWhile_append_of_forall all,
        List.rdropWhile_concat_neg _ _ _ (by decide)]
    rw [withoutPort, front, if_pos List.getLast?_concat, List.dropLast_concat]

/-- What is removed from the end is a port. -/
theorem withoutPort_split (cs : List Char) : ∃ port, cs = withoutPort cs ++ port ∧ Port port := by
  rw [withoutPort]
  split
  · rename_i last
    obtain ⟨front, split⟩ := List.getLast?_eq_some_iff.1 last
    refine ⟨':' :: cs.rtakeWhile Char.isDigit, ?_, .inr ⟨_, rfl, fun c member =>
      List.mem_rtakeWhile_imp member⟩⟩
    rw [split, List.dropLast_concat]
    calc cs = cs.rdropWhile Char.isDigit ++ cs.rtakeWhile Char.isDigit :=
          List.rdropWhile_append_rtakeWhile.symm
      _ = front ++ ':' :: cs.rtakeWhile Char.isDigit := by
          rw [split, List.append_assoc, List.singleton_append]
  · exact ⟨[], (List.append_nil _).symm, .inl rfl⟩

theorem withoutUserinfo_unsigned (cs : List Char) : '@' ∉ withoutUserinfo cs := by
  intro member
  exact absurd (List.mem_rtakeWhile_imp member) (by decide)

theorem withoutUserinfo_of_not_mem {cs : List Char} (unsigned : '@' ∉ cs) :
    withoutUserinfo cs = cs := by
  refine List.rtakeWhile_eq_self_iff.2 fun c member => ?_
  exact bne_iff_ne.2 fun same => unsigned (same ▸ member)

/-- User information ends at the last `@`. -/
theorem withoutUserinfo_append {info rest : List Char} (unsigned : '@' ∉ rest) :
    withoutUserinfo (info ++ '@' :: rest) = rest := by
  have stop : rest.reverse.takeWhile (· != '@') = rest.reverse := by
    refine List.takeWhile_eq_self_iff.2 fun c member => ?_
    exact bne_iff_ne.2 fun same => unsigned (same ▸ List.mem_reverse.1 member)
  rw [withoutUserinfo, List.rtakeWhile, List.reverse_append, List.reverse_cons, List.append_assoc,
    List.takeWhile_append_of_pos fun c member => ?_]
  · rw [List.singleton_append, List.takeWhile_cons_of_neg (by decide), List.append_nil,
      List.reverse_reverse]
  · exact bne_iff_ne.2 fun same => unsigned (same ▸ List.mem_reverse.1 member)

theorem withoutUserinfo_split (cs : List Char) :
    cs = withoutUserinfo cs ∨ ∃ info, cs = info ++ '@' :: withoutUserinfo cs := by
  have split : cs.rdropWhile (· != '@') ++ withoutUserinfo cs = cs := List.rdropWhile_append_rtakeWhile
  by_cases none : cs.rdropWhile (· != '@') = []
  · rw [none] at split
    exact .inl split.symm
  · have last := List.rdropWhile_last_not (· != '@') cs none
    obtain ⟨info, here⟩ := List.getLast?_eq_some_iff.1 (List.getLast?_eq_some_getLast none)
    refine .inr ⟨info, ?_⟩
    have sign : (cs.rdropWhile (· != '@')).getLast none = '@' := by simpa using last
    rw [sign] at here
    rw [here, List.append_assoc, List.singleton_append] at split
    exact split.symm

/-! ## The host of the base URL -/

/-- An accepted base URL starts with the scheme and the domain. -/
theorem validate_prefix {cfg : Config} (accepted : cfg.validate = .ok ()) :
    ∃ rest, (chars cfg.baseUrl).drop (chars "https://").length = chars cfg.domain ++ rest ∧
      ∀ c ∈ chars cfg.domain, c ≠ '/' ∧ c ≠ ':' := by
  unfold validate at accepted
  split at accepted
  · cases accepted
  · split at accepted
    · cases accepted
    · rename_i host found
      split at accepted
      · cases accepted
      · simp only at accepted
        split at accepted
        · cases accepted
        · rename_i same
          rw [stripPrefix] at found
          split at found
          · cases found
            have bare := congrArg chars (not_not.1 same)
            simp only [untilChar, chars_ofList] at bare
            generalize (chars cfg.baseUrl).drop (chars "https://").length = url at bare ⊢
            have whole := List.takeWhile_append_dropWhile (p := (· != '/')) (l := url)
            have front := List.takeWhile_append_dropWhile (p := (· != ':'))
              (l := url.takeWhile (· != '/'))
            rw [bare] at front
            refine ⟨(url.takeWhile (· != '/')).dropWhile (· != ':') ++ url.dropWhile (· != '/'), ?_,
              fun c member => ?_⟩
            · rw [← List.append_assoc, front, whole]
            · have inFront : c ∈ url.takeWhile (· != '/') := front ▸ List.mem_append_left _ member
              have slash := List.mem_takeWhile_imp inFront
              have colon := List.mem_takeWhile_imp (bare ▸ member)
              exact ⟨bne_iff_ne.1 slash, bne_iff_ne.1 colon⟩
          · cases found

/-- The domain and what follows it make up the authority. -/
theorem authority_eq {cfg : Config} {rest : List Char}
    (starts : (chars cfg.baseUrl).drop (chars "https://").length = chars cfg.domain ++ rest)
    (inside : ∀ c ∈ chars cfg.domain, inAuthority c) :
    authority cfg.baseUrl = chars cfg.domain ++ cfg.afterDomain := by
  have after : (chars cfg.baseUrl).drop ((chars "https://").length + (chars cfg.domain).length) =
      rest := by
    rw [← List.drop_drop, starts, List.drop_left]
  rw [authority, afterDomain, starts, after, List.takeWhile_append_of_pos inside]

/-- The characters of the host are in the authority, after the user information. -/
theorem mem_urlHost {url : String} {c : Char} (member : c ∈ chars (urlHost url)) :
    inAuthority c ∧ c ≠ '@' := by
  rw [urlHost, chars_ofList] at member
  obtain ⟨port, split, -⟩ := withoutPort_split (withoutUserinfo (authority url))
  have here : c ∈ withoutUserinfo (authority url) := split ▸ List.mem_append_left _ member
  refine ⟨List.mem_takeWhile_imp ((List.rtakeWhile_suffix _ _).mem here), ?_⟩
  rintro rfl
  exact withoutUserinfo_unsigned _ here

/-- The host of an accepted base URL is the domain exactly when nothing but a
port follows the domain, or user information repeats it. -/
theorem urlHost_iff {cfg : Config} (accepted : cfg.validate = .ok ()) :
    urlHost cfg.baseUrl = cfg.domain ↔ (∀ c ∈ chars cfg.domain, c ≠ '@' ∧ c ≠ '?' ∧ c ≠ '#') ∧
      (Port cfg.afterDomain ∨ ∃ info port,
        cfg.afterDomain = info ++ '@' :: (chars cfg.domain ++ port) ∧ Port port) := by
  obtain ⟨rest, starts, plain⟩ := validate_prefix accepted
  have uncolon : ':' ∉ chars cfg.domain := fun member => (plain _ member).2 rfl
  constructor
  · intro same
    have delimiters : ∀ c ∈ chars cfg.domain, inAuthority c ∧ c ≠ '@' := by
      intro c member
      rw [← same] at member
      exact mem_urlHost member
    have unsigned : '@' ∉ chars cfg.domain := fun member => (delimiters _ member).2 rfl
    have whole := authority_eq starts fun c member => (delimiters c member).1
    obtain ⟨port, split, numeric⟩ := withoutPort_split (withoutUserinfo (authority cfg.baseUrl))
    have host : withoutPort (withoutUserinfo (authority cfg.baseUrl)) = chars cfg.domain := by
      rw [← same, urlHost, chars_ofList]
    rw [host] at split
    refine ⟨fun c member => ?_, ?_⟩
    · obtain ⟨inside, sign⟩ := delimiters c member
      simp only [inAuthority, Bool.and_eq_true, bne_iff_ne] at inside
      exact ⟨sign, inside.1.2, inside.2⟩
    · rcases withoutUserinfo_split (authority cfg.baseUrl) with none | ⟨info, some⟩
      · rw [← none, whole] at split
        rw [List.append_cancel_left split]
        exact .inl numeric
      · rw [split, whole] at some
        rcases List.append_eq_append_iff.1 some with ⟨front, -, after⟩ | ⟨front, domain, after⟩
        · exact .inr ⟨front, port, after, numeric⟩
        · cases front with
          | nil => exact .inr ⟨[], port, after.symm, numeric⟩
          | cons c front =>
            rw [List.cons_append, List.cons.injEq] at after
            refine absurd ?_ unsigned
            rw [domain, after.1]
            exact List.mem_append_right _ List.mem_cons_self
  · rintro ⟨undelimited, port⟩
    have unsigned : '@' ∉ chars cfg.domain := fun member => (undelimited _ member).1 rfl
    have whole : authority cfg.baseUrl = chars cfg.domain ++ cfg.afterDomain := by
      refine authority_eq starts fun c member => ?_
      simp only [inAuthority, Bool.and_eq_true, bne_iff_ne]
      exact ⟨⟨(plain c member).1, (undelimited c member).2.1⟩, (undelimited c member).2.2⟩
    have signless : ∀ {port : List Char}, Port port → '@' ∉ chars cfg.domain ++ port := by
      intro port numeric member
      rcases List.mem_append.1 member with member | member
      · exact unsigned member
      · exact numeric.unsigned member
    have host : ∃ port, withoutUserinfo (authority cfg.baseUrl) = chars cfg.domain ++ port ∧
        Port port := by
      rcases port with numeric | ⟨info, port, after, numeric⟩
      · exact ⟨cfg.afterDomain, by rw [whole, withoutUserinfo_of_not_mem (signless numeric)], numeric⟩
      · refine ⟨port, ?_, numeric⟩
        rw [whole, after, ← List.append_assoc, withoutUserinfo_append (signless numeric)]
    obtain ⟨port, here, numeric⟩ := host
    rw [urlHost, here, withoutPort_append uncolon numeric, ofList_chars]

end Config

/-! ## Working authentication -/

/-- Authenticated calls to the public host can succeed: the host is the domain,
and the `u` tag that clients sign passes the url check at every endpoint. -/
structure Authenticates (app : App) : Prop where
  host : Config.urlHost app.cfg.baseUrl = app.cfg.domain
  url : ∀ r e (event : Event), Request.entry app r = some e →
    lastValue event.tags "u" = some (trimEndMatches app.cfg.baseUrl '/' ++ e.urlPath) →
    (readTags event (app.cfg.baseUrl ++ e.urlPath) e.method).uOk = true

/-- An event whose only tag is a url. -/
def urlSigned (url : String) : Event where
  id := ⟨List.replicate 32 0, List.length_replicate⟩
  pubkey := ⟨List.replicate 32 0, List.length_replicate⟩
  createdAt := 0
  kind := 27235
  tags := [["u", url]]
  content := ""
  sig := []

/-- The url check compares the signed url with the expected one. -/
theorem readTags_uOk {event : Event} {u expected : String} {method : Method}
    (signed : lastValue event.tags "u" = some u) :
    (readTags event expected method).uOk = true ↔
      trimEndMatches u '/' = trimEndMatches expected '/' := by
  rw [readTags_eq, signed, Option.any_some, beq_iff_eq]

/-- Trailing slashes before a path are told apart. -/
theorem trimEndMatches_base_iff {base path : String} (other : ∃ c ∈ chars path, c ≠ '/') :
    trimEndMatches (trimEndMatches base '/' ++ path) '/' = trimEndMatches (base ++ path) '/' ↔
      (chars base).getLast? ≠ some '/' := by
  have kept : ∃ c ∈ chars path, (c == '/') = false := by
    obtain ⟨c, member, other⟩ := other
    exact ⟨c, member, beq_false_of_ne other⟩
  simp only [trimEndMatches, String.ofList_inj, chars_append, chars_ofList,
    rdropWhile_append_of_exists kept, List.append_cancel_right_eq, List.rdropWhile_eq_self_iff,
    beq_iff_eq]
  constructor
  · intro unslashed last
    have nonempty : chars base ≠ [] := by
      intro empty
      rw [empty] at last
      cases last
    rw [List.getLast?_eq_some_getLast nonempty] at last
    exact unslashed nonempty (Option.some.inj last)
  · intro unslashed nonempty last
    rw [List.getLast?_eq_some_getLast nonempty, last] at unslashed
    exact unslashed rfl

/-- The paths of endpoints are not made of slashes. -/
theorem entry_path {app : App} {r : Request} {e : Entry} (entry : r.entry app = some e) :
    ∃ c ∈ chars e.urlPath, c ≠ '/' := by
  have starts : ∀ s t : String, 'a' ∈ chars s → ∃ c ∈ chars (s ++ t), c ≠ '/' := by
    intro s t member
    refine ⟨'a', ?_, by decide⟩
    rw [chars_append]
    exact List.mem_append_left _ member
  have register : 'a' ∈ chars "/api/v1/register" := by decide
  have offer : 'a' ∈ chars "/api/v1/transfer/offer" := by decide
  have claim : 'a' ∈ chars "/api/v1/transfer/claim" := by decide
  cases r with
  | register headers body => cases entry; exact ⟨'a', register, by decide⟩
  | unregister headers name => cases entry; exact starts "/api/v1/register/" _ (by decide)
  | lodgeOffer headers body => cases entry; exact ⟨'a', offer, by decide⟩
  | revokeOffer headers offerId => cases entry; exact starts "/api/v1/transfer/offer/" _ (by decide)
  | claim headers body => cases entry; exact ⟨'a', claim, by decide⟩
  | _ => cases entry

namespace Scripted

/-- The application of the script at another base URL. -/
def basedAt (url : String) : App := { app with cfg := { config with baseUrl := url } }

/-- Startup accepts a base URL with a trailing slash, for which no canonical `u` tag
passes, and one whose host is another site. -/
theorem startup_accepts_broken :
    (basedAt "https://goblin.st/").cfg.validate = .ok () ∧
    ¬ Authenticates (basedAt "https://goblin.st/") ∧
    (basedAt "https://goblin.st:pw@evil.example").cfg.validate = .ok () ∧
    Config.urlHost "https://goblin.st:pw@evil.example" = "evil.example" ∧
    ¬ Authenticates (basedAt "https://goblin.st:pw@evil.example") := by
  have slashed : (chars "https://goblin.st/").getLast? = some '/' := by decide
  have elsewhere : Config.urlHost "https://goblin.st:pw@evil.example" = "evil.example" := by decide
  refine ⟨rfl, fun works => ?_, rfl, elsewhere, fun works => ?_⟩
  · have entry : registerAda.entry (basedAt "https://goblin.st/") = some _ := rfl
    have passes := works.url registerAda _ (urlSigned _) entry rfl
    rw [readTags_uOk rfl] at passes
    exact (trimEndMatches_base_iff (entry_path entry)).1 passes slashed
  · have host := works.host
    change Config.urlHost "https://goblin.st:pw@evil.example" = "goblin.st" at host
    rw [elsewhere] at host
    exact absurd host (by decide)

end Scripted

/-- **When startup is right about authentication.** A configuration that startup
accepts has working authentication exactly when its base URL is plain. -/
theorem validated_authenticates {app : App} (accepted : app.cfg.validate = .ok ()) :
    Authenticates app ↔ app.cfg.PlainUrl := by
  constructor
  · intro works
    obtain ⟨undelimited, port⟩ := (Config.urlHost_iff accepted).1 works.host
    refine ⟨?_, undelimited, port⟩
    have passes := works.url (.register ⟨none, none⟩ []) _ (urlSigned _) rfl rfl
    rw [readTags_uOk rfl] at passes
    exact (trimEndMatches_base_iff ⟨'a', by decide, by decide⟩).1 passes
  · intro plain
    refine ⟨(Config.urlHost_iff accepted).2 ⟨plain.undelimited, plain.port⟩, ?_⟩
    intro r e event entry said
    rw [readTags_uOk said]
    exact (trimEndMatches_base_iff (entry_path entry)).2 plain.unslashed

namespace Scripted

/-- With an explicit port authentication works. -/
theorem port_authenticates : (basedAt "https://goblin.st:8443").cfg.validate = .ok () ∧
    Authenticates (basedAt "https://goblin.st:8443") := by
  have accepted : (basedAt "https://goblin.st:8443").cfg.validate = .ok () := rfl
  have delimiters : ((chars "goblin.st").all fun c => c != '@' && c != '?' && c != '#') = true := by
    decide
  refine ⟨accepted, (validated_authenticates accepted).2 ⟨by decide, fun c member => ?_, .inl ?_⟩⟩
  · have plain := List.all_eq_true.1 delimiters c member
    simp only [Bool.and_eq_true, bne_iff_ne] at plain
    exact ⟨plain.1.1, plain.1.2, plain.2⟩
  · have digits : ['8', '4', '4', '3'].all Char.isDigit = true := by decide
    exact .inr ⟨['8', '4', '4', '3'], by decide, List.all_eq_true.1 digits⟩

end Scripted

end Nip05d
