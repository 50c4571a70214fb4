import RunnerupChat.ClientIp
import RunnerupChat.UrlOrigins

/-!
`require_csrf` of `api/deps.py` with `Settings.origins`. Both the header and
the allowed origins are compared as text; as URLs they have a scheme, a host
and a port.
-/

namespace RunnerupChat.CsrfCheck

open Accounts (AppError)
open ClientIp (split)
open MessageStore (strip)
open UrlOrigins

structure Settings where
  allowedOrigins : String

def Settings.origins (settings : Settings) : List String :=
  ((split settings.allowedOrigins).filter fun text => strip text ≠ "").map strip

/-- The headers and the cookie that are read. -/
structure Request where
  origin : Option String
  referer : Option String
  csrfHeader : Option String
  csrfCookie : Option String

/-- `a or b or ""` of two headers. -/
def usedHeader (request : Request) : String :=
  ((request.origin.filter (· ≠ "")).or (request.referer.filter (· ≠ ""))).getD ""

def requireCsrf (settings : Settings) (request : Request) : Except AppError Unit :=
  let origin := usedHeader request
  if !settings.origins.any fun allowed => allowed.toList.isPrefixOf origin.toList then
    .error (.permissionDenied "bad_origin")
  else
    let headerToken := request.csrfHeader.getD ""
    let cookieToken := request.csrfCookie.getD ""
    if headerToken = "" ∨ cookieToken = "" ∨ headerToken ≠ cookieToken then
      .error (.permissionDenied "csrf_failed")
    else .ok ()

def standardPort (scheme : List Char) : Option Nat :=
  if scheme = "http".toList then some 80
  else if scheme = "https".toList then some 443
  else none

/-- The double submit: the header is there and is the cookie. -/
def TokensAgree (request : Request) : Prop :=
  ∃ token, token ≠ "" ∧ request.csrfHeader = some token ∧ request.csrfCookie = some token

def SameOrigin (settings : Settings) (request : Request) : Prop :=
  ∃ allowed ∈ settings.origins, ∃ origin, parse standardPort allowed.toList = some origin ∧
    parse standardPort (usedHeader request).toList = some origin

/-- The configured list: each entry is `scheme://host` or `scheme://host:port`. -/
def Configured (settings : Settings) : Prop :=
  ∀ allowed ∈ settings.origins, IsOrigin standardPort allowed.toList

instance (settings : Settings) : Decidable (Configured settings) :=
  inferInstanceAs (Decidable (∀ allowed ∈ settings.origins, IsOrigin standardPort allowed.toList))

variable {settings : Settings} {request : Request}

theorem tokens_iff : TokensAgree request ↔
    ¬(request.csrfHeader.getD "" = "" ∨ request.csrfCookie.getD "" = "" ∨
      request.csrfHeader.getD "" ≠ request.csrfCookie.getD "") := by
  constructor
  · rintro ⟨token, filled, header, cookie⟩
    simp [header, cookie, filled]
  · intro agree
    simp only [not_or, not_not] at agree
    obtain ⟨filled, _, same⟩ := agree
    cases header : request.csrfHeader with
    | none => simp [header] at filled
    | some token =>
        cases cookie : request.csrfCookie with
        | none => simp [header, cookie] at same filled; exact absurd same filled
        | some other =>
            rw [header, cookie] at same
            rw [header] at filled
            exact ⟨token, filled, header, cookie.trans (congrArg some same.symm)⟩

theorem require_csrf_iff : requireCsrf settings request = .ok () ↔
    (∃ allowed ∈ settings.origins, allowed.toList <+: (usedHeader request).toList) ∧
      TokensAgree request := by
  rw [tokens_iff]
  unfold requireCsrf
  dsimp only
  split
  · next none =>
      simp only [Bool.not_eq_true', List.any_eq_false, List.isPrefixOf_iff_prefix] at none
      refine iff_of_false nofun ?_
      rintro ⟨⟨allowed, member, starts⟩, _⟩
      exact none allowed member starts
  · next some =>
      simp only [Bool.not_eq_true', Bool.not_eq_false, List.any_eq_true,
        List.isPrefixOf_iff_prefix] at some
      split
      · next tokens => exact iff_of_false nofun fun both => both.2 tokens
      · next tokens => exact iff_of_true rfl ⟨some, tokens⟩

/-- The allowed origins in their parts. -/
def Settings.entries (settings : Settings) : List Parts :=
  settings.origins.filterMap fun allowed => partsOf allowed.toList

/-- What may stand behind an allowed origin for the header to name an allowed one. -/
inductive Keeps (settings : Settings) (own : Parts) : List Char → Prop
  /-- Nothing, or the path, the query or the fragment. -/
  | ended (rest : List Char) (ends : Ended rest) : Keeps settings own rest
  /-- The port of the scheme behind an origin that is written without a port. -/
  | standard (digits rest : List Char) (portless : own.port = [])
      (same : digits = [] ∨ digits.all Char.isDigit = true ∧
        standardPort (lower own.scheme) = some (number digits))
      (ends : Ended rest) : Keeps settings own (':' :: digits ++ rest)
  /-- Zeros behind port zero. -/
  | zeros (digits more rest : List Char) (ported : own.port = ':' :: digits)
      (zero : number digits = 0) (all : ∀ digit ∈ more, digit = '0') (ends : Ended rest) :
      Keeps settings own (more ++ rest)
  /-- What another allowed origin has more of the host and the port. -/
  | longer (entry : Parts) (name more rest : List Char) (member : entry ∈ settings.entries)
      (other : entry ≠ own) (scheme : lower own.scheme = lower entry.scheme)
      (portless : own.port ≠ [] → name = [])
      (place : entry.Places (standardPort (lower own.scheme)) (own.host ++ name) (own.port ++ more))
      (ends : Ended rest) : Keeps settings own (name ++ (more ++ rest))
  /-- The end of a user, and the host and the port of an allowed origin. -/
  | user (entry : Parts) (user host port rest : List Char) (member : entry ∈ settings.entries)
      (scheme : lower own.scheme = lower entry.scheme) (inside : ∀ char ∈ user, isEnd char = false)
      (place : entry.Places (standardPort (lower own.scheme)) host port) (ends : Ended rest) :
      Keeps settings own (user ++ '@' :: (host ++ port ++ rest))

theorem same_origin_iff : SameOrigin settings request ↔ ∃ entry ∈ settings.entries, ∃ origin,
    entry.origin standardPort = some origin ∧
      parse standardPort (usedHeader request).toList = some origin := by
  simp only [SameOrigin, Settings.entries, List.mem_filterMap]
  constructor
  · rintro ⟨allowed, member, origin, read, used⟩
    obtain ⟨entry, parts, read⟩ := Option.bind_eq_some_iff.mp read
    exact ⟨entry, ⟨allowed, member, parts⟩, origin, read, used⟩
  · rintro ⟨entry, ⟨allowed, member, parts⟩, origin, read, used⟩
    exact ⟨allowed, member, origin, Option.bind_eq_some_iff.mpr ⟨entry, parts, read⟩, used⟩

theorem entry_sound {entry : Parts} (member : entry ∈ settings.entries) : entry.Sound := by
  obtain ⟨_, _, parts⟩ := List.mem_filterMap.mp member
  exact ((parts_iff _ _).mp parts).2

/-- An entry of the configured list is an origin alone. -/
theorem entry_alone {entry : Parts} (configured : Configured settings)
    (member : entry ∈ settings.entries) : entry.user = [] ∧ entry.rest = [] ∧
      entry.port ≠ [':'] ∧ (entry.origin standardPort).isSome = true := by
  obtain ⟨allowed, listed, parts⟩ := List.mem_filterMap.mp member
  obtain ⟨other, read, alone⟩ := (is_origin_iff _).mp (configured allowed listed)
  obtain rfl := Option.some.inj (parts.symm.trans read)
  exact alone

theorem standard_small {scheme : List Char} {port : Nat}
    (known : standardPort scheme = some port) : port ≤ 65535 := by
  unfold standardPort at known
  split at known
  · exact (Option.some.inj known).symm.trans_le (by decide)
  · split at known
    · exact (Option.some.inj known).symm.trans_le (by decide)
    · cases known

/-- A header that begins with an allowed origin names an allowed one exactly when
what stands behind it keeps to them. -/
theorem keeps_iff (configured : Configured settings) {own : Parts} {tail : List Char}
    (member : own ∈ settings.entries) (starts : (usedHeader request).toList = own.text ++ tail) :
    SameOrigin settings request ↔ Keeps settings own tail := by
  have sound := entry_sound member
  obtain ⟨userless, bare, named, listed⟩ := entry_alone configured member
  have readable : (portOf (standardPort (lower own.scheme)) own.port).isSome = true := by
    rwa [Parts.origin, Option.isSome_map] at listed
  have tails {entry : Parts} (known : entry ∈ settings.entries) :=
    @tail_iff standardPort own entry tail sound userless bare listed (entry_sound known)
      (entry_alone configured known).2.2.2
  rw [same_origin_iff, starts]
  constructor
  · rintro ⟨entry, known, read⟩
    obtain ⟨scheme, ways⟩ := (tails known).mp read
    rcases ways with ⟨name, more, rest, rfl, ends, portless, place⟩ |
      ⟨user, host, port, rest, rfl, inside, ends, place⟩
    · -- the origin's own place leaves no more of a host, another one may
      by_cases other : entry = own
      · subst other
        obtain rfl : name = [] := by simpa [lower] using place.host
        rcases (same_port_iff readable named).mp place.port with
          rfl | ⟨none, digits, rfl, same⟩ | ⟨digits, ported, zero, all⟩
        · exact .ended rest ends
        · exact .standard digits rest none
            (same.imp_right fun valued => ⟨valued.1, valued.2.2⟩) ends
        · exact .zeros digits more rest ported zero all ends
      · exact .longer entry name more rest known other scheme portless place ends
    · exact .user entry user host port rest known scheme inside place ends
  · have own_place {more : List Char}
        (same : portOf (standardPort (lower own.scheme)) (own.port ++ more) =
          portOf (standardPort (lower own.scheme)) own.port) :
        own.Places (standardPort (lower own.scheme)) (own.host ++ []) (own.port ++ more) :=
      ⟨by rw [List.append_nil], same⟩
    rintro (⟨_, ends⟩ | ⟨digits, rest, portless, same, ends⟩ |
      ⟨digits, more, rest, ported, zero, all, ends⟩ |
      ⟨entry, name, more, rest, known, _, scheme, portless, place, ends⟩ |
      ⟨entry, user, host, port, rest, known, scheme, inside, place, ends⟩)
    · refine ⟨own, member, (tails member).mpr ⟨rfl, .inl ⟨[], [], tail, rfl, ends, ?_⟩⟩⟩
      exact ⟨fun _ => rfl, own_place (by rw [List.append_nil])⟩
    · refine ⟨own, member, (tails member).mpr ⟨rfl, .inl ⟨[], ':' :: digits, rest, rfl, ends, ?_⟩⟩⟩
      refine ⟨fun _ => rfl, own_place ((same_port_iff readable named).mpr (.inr (.inl ?_)))⟩
      refine ⟨portless, digits, rfl, same.imp_right fun valued => ?_⟩
      exact ⟨valued.1, standard_small valued.2, valued.2⟩
    · refine ⟨own, member, (tails member).mpr ⟨rfl, .inl ⟨[], more, rest, rfl, ends, ?_⟩⟩⟩
      refine ⟨fun _ => rfl, own_place ((same_port_iff readable named).mpr (.inr (.inr ?_)))⟩
      exact ⟨digits, ported, zero, all⟩
    · exact ⟨entry, known, (tails known).mpr
        ⟨scheme, .inl ⟨name, more, rest, rfl, ends, portless, place⟩⟩⟩
    · exact ⟨entry, known, (tails known).mpr
        ⟨scheme, .inr ⟨user, host, port, rest, rfl, inside, ends, place⟩⟩⟩

/-- A request that passes comes from an allowed origin, with agreeing tokens,
exactly when it is refused, or its header goes on behind an allowed origin in a way
that keeps to the allowed ones. -/
theorem csrf_origin_iff (settings : Settings) (request : Request)
    (configured : Configured settings) :
    (requireCsrf settings request = .ok () →
      SameOrigin settings request ∧ TokensAgree request) ↔
      (∀ allowed ∈ settings.origins, ¬allowed.toList <+: (usedHeader request).toList) ∨
      ¬TokensAgree request ∨
      ∃ allowed ∈ settings.origins, ∃ own ∈ partsOf allowed.toList, ∃ tail : List Char,
        (usedHeader request).toList = allowed.toList ++ tail ∧ Keeps settings own tail := by
  rw [require_csrf_iff]
  have entry_of {allowed : String} {own : Parts} (member : allowed ∈ settings.origins)
      (parts : partsOf allowed.toList = some own) :
      own ∈ settings.entries ∧ own.text = allowed.toList :=
    ⟨List.mem_filterMap.mpr ⟨allowed, member, parts⟩, ((parts_iff _ _).mp parts).1⟩
  constructor
  · intro safe
    by_cases starts : ∃ allowed ∈ settings.origins,
        allowed.toList <+: (usedHeader request).toList
    · by_cases tokens : TokensAgree request
      · have same := (safe ⟨starts, tokens⟩).1
        obtain ⟨allowed, member, tail, whole⟩ := starts
        obtain ⟨own, parts, _⟩ := (is_origin_iff _).mp (configured allowed member)
        obtain ⟨entry, text⟩ := entry_of member parts
        refine .inr (.inr ⟨allowed, member, own, parts, tail, whole.symm, ?_⟩)
        exact (keeps_iff configured entry (text ▸ whole.symm)).mp same
      · exact .inr (.inl tokens)
    · exact .inl fun allowed member begins => starts ⟨allowed, member, begins⟩
  · rintro condition ⟨⟨allowed, member, starts⟩, tokens⟩
    refine ⟨?_, tokens⟩
    rcases condition with none | refused | ⟨allowed, member, own, parts, tail, whole, keeps⟩
    · exact absurd starts (none allowed member)
    · exact absurd tokens refused
    · obtain ⟨entry, text⟩ := entry_of member parts
      exact (keeps_iff configured entry (text ▸ whole)).mpr keeps

def localSettings : Settings := ⟨"http://localhost:3000,https://localhost"⟩

def requestFrom (header : String) : Request := ⟨some header, none, some "t", some "t"⟩

set_option maxRecDepth 4000 in
/-- A page of an allowed origin as the referer. -/
theorem local_page_iff :
    let request := requestFrom "https://localhost/chat"
    requireCsrf localSettings request = .ok () ∧
      ((requireCsrf localSettings request = .ok () →
        SameOrigin localSettings request ∧ TokensAgree request) ↔
        (∀ allowed ∈ localSettings.origins, ¬allowed.toList <+: (usedHeader request).toList) ∨
        ¬TokensAgree request ∨
        ∃ allowed ∈ localSettings.origins, ∃ own ∈ partsOf allowed.toList, ∃ tail : List Char,
          (usedHeader request).toList = allowed.toList ++ tail ∧
            Keeps localSettings own tail) :=
  ⟨by decide, csrf_origin_iff localSettings (requestFrom "https://localhost/chat") (by decide)⟩

set_option maxRecDepth 4000 in
/-- A host that begins with an allowed one passes. -/
theorem extended_host_passes : ¬∀ (settings : Settings) (request : Request),
    Configured settings → requireCsrf settings request = .ok () →
      SameOrigin settings request ∧ TokensAgree request := by
  intro claim
  obtain ⟨⟨allowed, member, origin, own, used⟩, _⟩ :=
    claim localSettings (requestFrom "https://localhost.evil.com") (by decide) (by decide)
  have apart : ∀ allowed ∈ localSettings.origins, parse standardPort allowed.toList ≠
      parse standardPort "https://localhost.evil.com".toList := by decide
  exact apart allowed member (own.trans used.symm)

end RunnerupChat.CsrfCheck
