import Nip05d.RateLimit
import Nip05d.Text.Escape

/-!
# The landing page

The page shows the domain and the first relay of the configuration. Both are
escaped, so whatever an operator configures, the markup of the page is that of
its template, and what the page says can be read back from it.
-/

namespace Nip05d

open Text

namespace Landing

/-- What `html_escape` replaces, in its order. -/
def entities : List (Char × List Char) :=
  [('&', chars "&amp;"), ('<', chars "&lt;"), ('>', chars "&gt;"), ('"', chars "&quot;")]

def htmlEscape (s : String) : String := String.ofList (Escape.replaceAll entities (chars s))

/-- The page before the domain. -/
def opening : String := "<!doctype html><html lang=\"en\"><head><meta charset=\"utf-8\">
<meta name=\"viewport\" content=\"width=device-width, initial-scale=1\">
<title>goblin — money that keeps quiet</title>
<style>
body\x7bmargin:0;background:#0E0E0C;color:#FAFAF7;font:16px/1.5 system-ui,sans-serif;
display:flex;min-height:100vh;align-items:center;justify-content:center\x7d
main\x7bmax-width:520px;padding:32px\x7d
h1\x7bfont-size:44px;letter-spacing:-1.5px;margin:0 0 12px;color:#FFD60A\x7d
p\x7bcolor:#9A988F;margin:8px 0\x7d
code\x7bbackground:#1A1A17;border-radius:6px;padding:2px 6px;color:#FAFAF7\x7d
</style></head><body><main>
<h1>goblin</h1>
<p>Money that keeps quiet.</p>
<p>A peer-to-peer wallet for grin. Payments travel as end-to-end encrypted
nostr messages. Usernames here look like <code>you@"

/-- The page between the domain and the relay. -/
def middle : String := "</code>.</p>
<p>Relay: <code>"

/-- The page after the relay. -/
def closing : String := "</code></p>
</main></body></html>"

/-- The relay on the page; a dash where none is configured. -/
def shownRelay (cfg : Config) : String := cfg.relays.head?.getD "—"

/-- The landing page. -/
def landing (cfg : Config) : String :=
  opening ++ htmlEscape cfg.domain ++ middle ++ htmlEscape (shownRelay cfg) ++ closing

/-- Characters that open or close tags and attribute values. -/
def isMarkup (c : Char) : Bool := c = '<' || c = '>' || c = '"'

theorem entities_layered : Escape.Layered entities := by
  unfold Escape.Layered
  decide

theorem entities_marked : Escape.Marked '&' entities := ⟨by decide, by decide, by decide⟩

theorem chars_htmlEscape (s : String) :
    chars (htmlEscape s) = Escape.substitute entities (chars s) := by
  rw [htmlEscape, chars_ofList, Escape.replaceAll_eq_substitute entities_layered]

/-- Escaped text has no markup. -/
theorem htmlEscape_plain (s : String) : ∀ c ∈ chars (htmlEscape s), isMarkup c = false := by
  intro c there
  rw [chars_htmlEscape] at there
  have gone : ∀ d, (∃ e ∈ entities, e.1 = d) → (∀ e ∈ entities, d ∉ e.2) → c ≠ d := by
    rintro d escaped gone rfl
    exact Escape.not_mem_substitute escaped gone there
  simp only [isMarkup, Bool.or_eq_false_iff, decide_eq_false_iff_not]
  exact ⟨⟨gone '<' (by decide) (by decide), gone '>' (by decide) (by decide)⟩,
    gone '"' (by decide) (by decide)⟩

theorem htmlEscape_inj {s t : String} : htmlEscape s = htmlEscape t ↔ s = t := by
  constructor
  · intro same
    have texts := congrArg chars same
    rw [chars_htmlEscape, chars_htmlEscape] at texts
    exact chars_inj.1 (Escape.substitute_injective entities_marked texts)
  · rintro rfl
    rfl

/-- Two texts that go on with markup are told apart from what follows. -/
theorem markup_unique {xs ys as bs : List Char} {m : Char} (plain : ∀ c ∈ xs, isMarkup c = false)
    (plain' : ∀ c ∈ ys, isMarkup c = false) (ends : isMarkup m = true)
    (same : xs ++ m :: as = ys ++ m :: bs) : xs = ys ∧ as = bs := by
  have apart : ∀ {zs : List Char}, (∀ c ∈ zs, isMarkup c = false) → m ∉ zs := by
    intro zs none_ there
    rw [none_ m there] at ends
    cases ends
  exact RateLimit.split_unique (apart plain) (apart plain') same

/-- **Configured texts stay texts.** The markup of the page does not depend on the
configuration, and the page says exactly which domain and relay are configured. -/
theorem landing_faithful (cfg cfg' : Config) :
    (chars (landing cfg)).filter isMarkup = (chars (landing cfg')).filter isMarkup ∧
    (landing cfg = landing cfg' ↔ cfg.domain = cfg'.domain ∧ shownRelay cfg = shownRelay cfg') := by
  have escaped : ∀ s, (chars (htmlEscape s)).filter isMarkup = [] := fun s =>
    List.filter_eq_nil_iff.2 fun c there => by rw [htmlEscape_plain s c there]; decide
  constructor
  · simp only [landing, chars_append, List.filter_append, escaped]
  constructor
  · intro same
    obtain ⟨mid, middle_⟩ : ∃ mid, chars middle = '<' :: mid := ⟨_, rfl⟩
    obtain ⟨last, closing_⟩ : ∃ last, chars closing = '<' :: last := ⟨_, rfl⟩
    have texts := congrArg chars same
    simp only [landing, chars_append, List.append_assoc, List.append_cancel_left_eq, middle_, closing_,
      List.cons_append] at texts
    obtain ⟨domain, rest⟩ :=
      markup_unique (htmlEscape_plain _) (htmlEscape_plain _) (by decide) texts
    obtain ⟨relay, -⟩ := markup_unique (htmlEscape_plain _) (htmlEscape_plain _) (by decide)
      (List.append_cancel_left rest)
    exact ⟨htmlEscape_inj.1 (chars_inj.1 domain), htmlEscape_inj.1 (chars_inj.1 relay)⟩
  · rintro ⟨domain, relay⟩
    rw [landing, landing, domain, relay]

end Landing

end Nip05d
