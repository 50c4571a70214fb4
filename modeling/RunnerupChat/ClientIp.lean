import Mathlib.Data.List.TakeWhile
import RunnerupChat.RateLimit
import RunnerupChat.MessageStore

/-!
`client_ip` of `api/deps.py` behind the proxy of `infra/nginx/nginx.conf`. The
proxy hands on the header the client wrote with the peer address at its right
end; the API reads the entry at its left end. The budgets of `services/otp.py`
and of the refresh route are keyed by what it reads.
-/

namespace RunnerupChat.ClientIp

open MessageStore (isSpace strip)
open RateLimit (LimitName bucketKey bucket_key_injective)

inductive Environment where
  | development | staging | production
  deriving DecidableEq

structure Settings where
  environment : Environment

def Settings.isProduction (settings : Settings) : Bool := settings.environment = .production

/-- `text.split(",")`. -/
def split (text : String) : List String := (text.toList.splitOn ',').map String.ofList

/-- The header `x-forwarded-for` of a request and `request.client.host`. -/
structure Request where
  forwardedFor : Option String
  client : Option String

def clientIp (settings : Settings) (request : Request) : Option String :=
  if settings.isProduction then
    let forwarded := request.forwardedFor.getD ""
    if forwarded ≠ "" then some (strip ((split forwarded).headD "")) else request.client
  else request.client

def addressChars : List Char := "0123456789abcdef.:".toList

/-- `$remote_addr`, an IPv4 or IPv6 address in text. -/
structure PeerAddress where
  text : String
  written : text ≠ ""
  plain : ∀ char ∈ text.toList, char ∈ addressChars

def proxyAddXForwardedFor (header : Option String) (peer : PeerAddress) : String :=
  match header with
  | none => peer.text
  | some value => value ++ ", " ++ peer.text

/-- The request `location /api/` hands on over the connection `upstream` of
the proxy. -/
def proxied (header : Option String) (peer : PeerAddress) (upstream : Option String) : Request :=
  ⟨some (proxyAddXForwardedFor header peer), upstream⟩

/-- The bucket of an IP-scoped budget, where the address takes one. -/
def ipBucket (name : LimitName) (ip : Option String) : Option String :=
  match name with
  | .otpRequestIp | .otpVerifyIp =>
      (ip.filter fun text => text ≠ "").map (bucketKey name)
  | .authRefreshIp =>
      some (bucketKey name ((ip.filter fun text => text ≠ "").getD "unknown"))
  | _ => none

def ipBuckets (ip : Option String) : List (Option String) :=
  [LimitName.otpRequestIp, .otpVerifyIp, .authRefreshIp].map (ipBucket · ip)

/-- What the client itself makes of its address: its own one without a header,
else the first entry of what it wrote. -/
def claimed (header : Option String) (peer : PeerAddress) : String :=
  match header with
  | none => peer.text
  | some value => strip (String.ofList (value.toList.takeWhile (· ≠ ',')))

theorem split_head (text : String) :
    (split text).headD "" = String.ofList (text.toList.takeWhile (· ≠ ',')) := by
  have head : ∀ chars : List Char,
      (chars.splitOn ',').headD [] = chars.takeWhile (· ≠ ',') := by
    intro chars
    induction chars with
    | nil => rfl
    | cons char rest ih =>
        obtain ⟨entry, entries, cut⟩ := List.exists_cons_of_ne_nil
          (List.splitOnP_ne_nil (· == ',') rest)
        rw [List.splitOn, cut, List.headD_cons] at ih
        rw [List.splitOn, List.splitOnP_cons_eq_if_modifyHead, cut]
        by_cases comma : char = ','
        · simp [comma]
        · simp [comma, ih]
  rw [← head, split]
  cases text.toList.splitOn ',' <;> rfl

/-- The claimed address never depends on what the proxy appends: either the
header has a comma of its own, or the one appended ends the first entry. -/
theorem first_entry_proxied (value : String) (peer : PeerAddress) :
    (split (proxyAddXForwardedFor (some value) peer)).headD "" =
      String.ofList (value.toList.takeWhile (· ≠ ',')) := by
  rw [split_head, proxyAddXForwardedFor, String.toList_append, String.toList_append,
    List.append_assoc]
  congr 1
  induction value.toList with
  | nil => simp
  | cons char rest ih =>
      by_cases comma : char = ','
      · simp [comma]
      · simpa [comma] using ih

theorem strip_plain (text : String) (plain : ∀ char ∈ text.toList, isSpace char = false) :
    strip text = text := by
  have kept : ∀ chars : List Char, (∀ char ∈ chars, isSpace char = false) →
      chars.dropWhile isSpace = chars := by
    intro chars none
    cases chars with
    | nil => rfl
    | cons char rest => simp [none char List.mem_cons_self]
  rw [strip, kept _ plain, kept _ (by simpa using plain), List.reverse_reverse,
    String.ofList_toList]

theorem address_char_plain (char : Char) (member : char ∈ addressChars) :
    isSpace char = false ∧ char ≠ ',' := by
  have all : addressChars.all (fun char => !isSpace char && char != ',') = true := by decide
  simpa using List.all_eq_true.mp all char member

theorem strip_address (peer : PeerAddress) : strip peer.text = peer.text :=
  strip_plain peer.text fun char member => (address_char_plain char (peer.plain char member)).1

theorem first_entry_address (peer : PeerAddress) : (split peer.text).headD "" = peer.text := by
  have commaless : peer.text.toList.takeWhile (· ≠ ',') = peer.text.toList := by
    apply List.takeWhile_eq_self_iff.mpr
    intro char member
    simpa using (address_char_plain char (peer.plain char member)).2
  rw [split_head, commaless, String.ofList_toList]

theorem proxied_forwarded (header : Option String) (peer : PeerAddress)
    (upstream : Option String) :
    (proxied header peer upstream).forwardedFor.getD "" ≠ "" := by
  have long : peer.text.toList ≠ [] := fun empty =>
    peer.written (String.toList_inj.mp empty)
  intro empty
  have chars := congrArg String.toList empty
  cases header with
  | none => exact long chars
  | some value =>
      have appended : value.toList ++ (", ".toList ++ peer.text.toList) = [] := by
        rw [← List.append_assoc]
        simpa only [proxied, proxyAddXForwardedFor, Option.getD_some, String.toList_append]
          using chars.trans String.toList_empty
      exact long (List.append_eq_nil_iff.mp (List.append_eq_nil_iff.mp appended).2).2

/-- What the API takes for the address of a caller in production is what the
caller claims. -/
theorem client_ip_proxied (settings : Settings) (production : settings.isProduction = true)
    (header : Option String) (peer : PeerAddress) (upstream : Option String) :
    clientIp settings (proxied header peer upstream) = some (claimed header peer) := by
  rw [clientIp, if_pos production]
  refine (if_pos (proxied_forwarded header peer upstream)).trans (congrArg some ?_)
  cases header with
  | none =>
      show strip ((split peer.text).headD "") = peer.text
      rw [first_entry_address, strip_address]
  | some value => exact congrArg strip (first_entry_proxied value peer)

theorem ip_buckets_injective (left right : String)
    (same : ipBuckets (some left) = ipBuckets (some right)) : left = right := by
  have first : ipBucket .otpRequestIp (some left) = ipBucket .otpRequestIp (some right) := by
    simpa only [ipBuckets, List.map_cons, List.cons.injEq] using (List.cons.inj same).1
  by_cases emptyLeft : left = "" <;> by_cases emptyRight : right = ""
  · rw [emptyLeft, emptyRight]
  · simp [ipBucket, Option.filter, emptyLeft, emptyRight] at first
  · simp [ipBucket, Option.filter, emptyLeft, emptyRight] at first
  · simp only [ipBucket, Option.filter, emptyLeft, emptyRight, ne_eq, not_false_eq_true,
      decide_true, if_true, Option.map_some, Option.some.injEq] at first
    exact (bucket_key_injective _ _ _ _ first).2

/-- The address and every IP-scoped budget follow the caller's claim alone:
they are those of the peer exactly when the claim names the peer, and two
requests of one peer share them exactly when their claims agree. -/
theorem address_follows_claim (header other : Option String) (peer : PeerAddress)
    (upstream : Option String) :
    let ip := fun header => clientIp ⟨.production⟩ (proxied header peer upstream)
    (ip header = some peer.text ↔ claimed header peer = peer.text) ∧
      (ip header = ip other ∧ ipBuckets (ip header) = ipBuckets (ip other) ↔
        claimed header peer = claimed other peer) ∧
      (ipBuckets (ip header) = ipBuckets (ip none) ↔ claimed header peer = peer.text) := by
  have read := fun header => client_ip_proxied ⟨.production⟩ rfl header peer upstream
  simp only [read]
  refine ⟨Option.some_inj, ⟨fun same => Option.some.inj same.1, fun same => ?_⟩, ?_⟩
  · rw [same]
    exact ⟨rfl, rfl⟩
  · refine ⟨fun same => ip_buckets_injective _ _ same, fun same => ?_⟩
    rw [same]
    rfl

def samplePeer : PeerAddress := ⟨"203.0.113.9", by decide, by
    have all : "203.0.113.9".toList.all (addressChars.contains ·) = true := by decide
    exact fun char member => by simpa using List.all_eq_true.mp all char member⟩

/-- One peer with the header `1.2.3.4` and without a header. -/
theorem forged_header_moves_bucket :
    ¬∀ (header other : Option String) (peer : PeerAddress) (upstream : Option String),
      let ip := fun header => clientIp ⟨.production⟩ (proxied header peer upstream)
      ip header = some peer.text ∧ ip header = ip other ∧
        ipBuckets (ip header) = ipBuckets (ip other) := by
  intro claim
  have forged := (claim (some "1.2.3.4") none samplePeer none).1
  exact absurd forged (by decide)

end RunnerupChat.ClientIp
