import RunnerupChat.Membership
import RunnerupChat.ReadScope

/-!
A banned membership row. Every path tests the ban in its own way;
`resolve_access` tests it only on a row that was not left, so a banned user
whose row has a `left_at` reads a public conversation like any stranger.
-/

namespace RunnerupChat.Conversations

open Accounts Authz RateLimit Runs UniqueKeys
open MessageStore (Message MessageOut ConversationEvent)

section States
variable {Digest : Type} [DecidableEq Digest] {sha256 : String → Digest}
  {searchMatches : String → String → Bool} {world : World Digest} {user : User Digest}
  {row : ConversationMember}

/-- The user has no way to a conversation. -/
structure Excluded (sha256 : String → Digest) (searchMatches : String → String → Bool)
    (world : World Digest) (user : User Digest) (place : Uuid) : Prop where
  access : ∀ now, resolveAccess world.database.toTables user now place =
    .error (.notVisible "not_found")
  search : ∀ limiter after nowMs query filter limit scan found,
    scan.Perm world.database.messages →
    searchMessages searchMatches world.database.toTables limiter nowMs user query filter limit
      scan = (.ok found, after) → ∀ out ∈ found, out.conversationId ≠ place
  sync : ∀ now afterId limit, ∀ event ∈ (syncEvents world.database.toTables user now afterId
    limit).1, event.conversationId ≠ place
  listed : ∀ limit scan, scan.Perm (joinedRows world.database.toTables user.id) →
    ∀ out ∈ listForUser limit scan, out.id ≠ place
  redeem : ∀ token now, ∀ invite ∈ world.database.invites, invite.conversationId = place →
    invite.tokenHash = sha256 token →
    redeemInvite sha256 world user token now = refuse world (.notVisible "not_found")
  refused : ∀ (access : Access Digest) role, access.conversation.id = place →
    ∃ error, addMember world access user.id role = refuse world error

/-- The banned row was left, and the conversation is open to anyone. -/
def Reentered (tables : Tables Digest) (row : ConversationMember) : Prop :=
  row.leftAt ≠ none ∧ ∃ conversation ∈ tables.conversations,
    conversation.id = row.conversationId ∧ conversation.visibility = .isPublic ∧
      conversation.deletedAt = none

omit [DecidableEq Digest] in
theorem banned_not_joined {tables : Tables Digest}
    (distinct : (tables.members.map ConversationMember.key).Nodup) (member : row ∈ tables.members)
    (banned : row.state = .banned) : ¬Joined tables row.userId row.conversationId := by
  rintro ⟨other, listed, place, person, _, unbanned⟩
  obtain rfl : other = row := same_row ConversationMember.key distinct listed member
    (Prod.ext place person)
  exact unbanned banned

theorem left_outside (left : row.leftAt ≠ none) :
    ∀ other, ¬Current (some row) other := by
  rintro other ⟨held, here⟩
  cases held
  exact left here

omit [DecidableEq Digest] in
/-- A banned row denies the access of a usable account unless it was left. -/
theorem banned_access_iff {database : Database Digest} (member : row ∈ database.members)
    (owner : row.userId = user.id) (banned : row.state = .banned) (now : Time) :
    resolveAccess database.toTables user now row.conversationId = .error (.notVisible "not_found") ↔
      user.isUsable = true ∧ ¬Reentered database.toTables row := by
  have own := find_member_of_mem database.schema.members member
  rw [owner] at own
  constructor
  · intro refused
    have usable : user.isUsable = true := by
      by_contra unusable
      rw [resolve_unusable (by simpa using unusable)] at refused
      cases refused
    refine ⟨usable, ?_⟩
    rintro ⟨left, conversation, listed, named, isPublic, live⟩
    have found := find_conversation_of_mem database.schema.conversations listed live
    have answered : standing conversation (findMember database.toTables conversation.id user.id)
        now = .ok [.readMessages] := by
      rw [named, own, standing_outsider (left_outside left), if_pos isPublic]
    have resolved := (resolve_ok_iff _).mpr ⟨usable, conversation, _, found, answered, rfl⟩
    rw [named, refused] at resolved
    cases resolved
  · rintro ⟨usable, closed⟩
    cases resolved : resolveAccess database.toTables user now row.conversationId with
    | error error => rw [resolve_refused usable resolved]
    | ok access =>
        obtain ⟨_, conversation, granted, found, answered, _⟩ := (resolve_ok_iff access).mp resolved
        obtain ⟨listed, named, live⟩ := find_conversation_some found
        rw [named, own] at answered
        by_cases here : row.leftAt = none
        · rw [standing_member ⟨rfl, here⟩, if_pos banned] at answered
          cases answered
        · rw [standing_outsider (left_outside here)] at answered
          by_cases isPublic : conversation.visibility = .isPublic
          · exact absurd ⟨here, conversation, listed, named, isPublic, live⟩ closed
          · rw [if_neg isPublic] at answered
            cases answered

omit [DecidableEq Digest] in
theorem joined_row {tables : Tables Digest} {person : Uuid}
    {pair : Conversation × ConversationMember} (member : pair ∈ joinedRows tables person) :
    Joined tables person pair.1.id := by
  obtain ⟨conversation, row⟩ := pair
  obtain ⟨product, passed⟩ := List.mem_filter.mp member
  simp only [Bool.and_eq_true, beq_iff_eq, Option.isNone_iff_eq_none, bne_iff_ne, ne_eq] at passed
  exact ⟨row, (List.pair_mem_product.mp product).2, passed.1.1.1.1, passed.1.1.1.2, passed.1.1.2,
    passed.1.2⟩

theorem banned_redeem (schema : Schema world.database.toTables)
    (member : row ∈ world.database.members) (owner : row.userId = user.id)
    (banned : row.state = .banned) {invite : InviteLink Digest} {token : String} {now : Time}
    (listed : invite ∈ world.database.invites) (place : invite.conversationId = row.conversationId)
    (hash : invite.tokenHash = sha256 token) :
    redeemInvite sha256 world user token now = refuse world (.notVisible "not_found") := by
  have closed : findInvite sha256 world.database.toTables user.id token now = none := by
    cases opened : findInvite sha256 world.database.toTables user.id token now with
    | none => rfl
    | some pair =>
        obtain ⟨link, conversation⟩ := pair
        obtain ⟨found, same, _, live, unbanned⟩ := invite_opened opened
        obtain rfl : link = invite :=
          same_row InviteLink.tokenHash schema.invites found listed (same.trans hash.symm)
        have own := find_member_of_mem schema.members member
        have named := (find_conversation_some live).2.1
        rw [owner, ← place, ← named] at own
        exact absurd banned (unbanned row own)
  simp only [redeemInvite, closed]

theorem banned_add (schema : Schema world.database.toTables)
    (member : row ∈ world.database.members) (owner : row.userId = user.id)
    (banned : row.state = .banned) (access : Access Digest) (role : MemberRole)
    (place : access.conversation.id = row.conversationId) :
    ∃ error, addMember world access user.id role = refuse world error := by
  have own := find_member_of_mem schema.members member
  rw [owner, ← place] at own
  simp only [addMember, own, banned, if_true]
  split
  · exact ⟨_, rfl⟩
  · split
    · exact ⟨_, rfl⟩
    · split <;> exact ⟨_, rfl⟩

/-- The state decides alone: only `resolve_access` overlooks a ban. -/
theorem excluded_iff (sha256 : String → Digest) (searchMatches : String → String → Bool)
    (world : World Digest) (member : row ∈ world.database.members) (owner : row.userId = user.id)
    (banned : row.state = .banned) :
    Excluded sha256 searchMatches world user row.conversationId ↔
      user.isUsable = true ∧ ¬Reentered world.database.toTables row := by
  have schema := world.database.schema
  have apart : ¬Joined world.database.toTables user.id row.conversationId :=
    owner ▸ banned_not_joined schema.members member banned
  constructor
  · intro excluded
    exact (banned_access_iff member owner banned 0).mp (excluded.access 0)
  · intro closed
    exact {
      access := fun now => (banned_access_iff member owner banned now).mpr closed
      search := by
        intro limiter after nowMs query filter limit scan found order answered out served place
        obtain ⟨_, rfl⟩ := search_answers answered
        obtain ⟨message, inside, rfl⟩ := List.mem_map.mp served
        exact apart (place ▸ (found_is_hit inside).2.1)
      sync := by
        intro now afterId limit event served place
        exact apart (place ▸ (sync_serves schema.events user afterId limit served).2.2.2)
      listed := by
        intro limit scan order out inside place
        obtain ⟨pair, listed, rfl⟩ := List.mem_map.mp inside
        have scanned := (List.mem_insertionSort _).mp (List.mem_of_mem_take listed)
        exact apart (place ▸ joined_row (order.mem_iff.mp scanned))
      redeem := fun token now invite listed place hash =>
        banned_redeem schema member owner banned listed place hash
      refused := fun access role place => banned_add schema member owner banned access role place }

end States

section Runs
variable {Digest : Type} [DecidableEq Digest] {sha256 : String → Digest}
  {before after : Tables Digest} {call : Call} {row : ConversationMember}

/-- The banned row of before, whatever role it has by now. -/
structure StillBanned (tables : Tables Digest) (row now : ConversationMember) : Prop where
  listed : now ∈ tables.members
  key : now.key = row.key
  banned : now.state = .banned
  left : now.leftAt = row.leftAt

omit [DecidableEq Digest] in
theorem still_banned (member : row ∈ before.members) (banned : row.state = .banned) :
    StillBanned before row row :=
  ⟨member, rfl, banned, rfl⟩

omit [DecidableEq Digest] in
theorem banned_appended (member : row ∈ before.members) (banned : row.state = .banned)
    {rows : List ConversationMember} (same : after.members = before.members ++ rows) :
    ∃ now, StillBanned after row now :=
  ⟨row, still_banned (same ▸ List.mem_append_left _ member) banned⟩

omit [DecidableEq Digest] in
/-- An update of another row, or one of the role, leaves the ban. -/
theorem banned_updated (member : row ∈ before.members) (banned : row.state = .banned)
    (key : Uuid × Uuid) (change : ConversationMember → ConversationMember)
    (kept : row.key = key → (change row).key = row.key ∧ (change row).state = .banned ∧
      (change row).leftAt = row.leftAt)
    (same : after.members = (updateMember before key change).members) :
    ∃ now, StillBanned after row now := by
  refine ⟨if row.key = key then change row else row, ?_⟩
  have listed : (if row.key = key then change row else row) ∈ after.members := by
    rw [same]
    exact List.mem_map_of_mem member
  by_cases here : row.key = key
  · rw [if_pos here] at listed ⊢
    obtain ⟨key, state, left⟩ := kept here
    exact ⟨listed, key, state, left⟩
  · rw [if_neg here] at listed ⊢
    exact still_banned listed banned

/-- Only rows that are not banned are taken back in. -/
theorem effect_banned (schema : Schema before) (effect : Effect sha256 before after call)
    (member : row ∈ before.members) (banned : row.state = .banned) :
    ∃ now, StillBanned after row now := by
  have other : ∀ {place person : Uuid} {existing : ConversationMember},
      findMember before place person = some existing → existing.state ≠ .banned →
      row.key ≠ existing.key := by
    intro place person existing found unbanned same
    obtain rfl : row = existing :=
      same_row ConversationMember.key schema.members member (find_member_some found).1 same
    exact unbanned banned
  cases effect with
  | unchanged same => exact same ▸ ⟨row, still_banned member banned⟩
  | direct apart same | group same | added live room absent lower same
  | joined opened absent same =>
      exact banned_appended member banned (congrArg Tables.members same)
  | @addedBack user conversation newMember role now entry existing live room found unbanned same =>
      exact banned_updated member banned existing.key rejoined
        (fun here => absurd here (other found unbanned)) (by rw [same]; rfl)
  | @ranked user conversation person newRole now entry existing found same =>
      exact banned_updated member banned existing.key (fun row => { row with role := newRole })
        (fun _ => ⟨rfl, banned, rfl⟩) (by rw [same]; rfl)
  | invited same => exact ⟨row, still_banned (by rw [same]; exact member) banned⟩
  | @joinedBack user token now invite conversation entry existing opened found same =>
      have unbanned := (invite_opened opened).2.2.2.2 existing found
      exact banned_updated member banned existing.key rejoined
        (fun here => absurd here (other found unbanned)) (by rw [same]; rfl)

theorem effect_conversations (effect : Effect sha256 before after call) :
    ∃ opened, after.conversations = before.conversations ++ opened := by
  cases effect with
  | direct apart same | group same => exact ⟨[_], congrArg Tables.conversations same⟩
  | unchanged same | added live room absent lower same
  | addedBack live room found unbanned same | ranked found same | invited same
  | joined opened absent same | joinedBack opened found same =>
      exact ⟨[], (congrArg Tables.conversations same).trans (List.append_nil _).symm⟩

/-- No call touches a conversation that exists. -/
theorem effect_same_place (schema : Schema after) (effect : Effect sha256 before after call)
    {place : Uuid} (known : place ∈ before.conversationIds) (conversation : Conversation)
    (named : conversation.id = place) :
    conversation ∈ after.conversations ↔ conversation ∈ before.conversations := by
  obtain ⟨opened, grown⟩ := effect_conversations effect
  rw [grown, List.mem_append]
  refine ⟨fun either => either.elim id fun new => ?_, Or.inl⟩
  have distinct := schema.conversations
  unfold Tables.conversationIds at distinct
  rw [grown, List.map_append, List.nodup_append] at distinct
  exact absurd (named.symm) (distinct.2.2 place known _ (List.mem_map_of_mem new))

/-- What a run of calls leaves of a ban and of the conversation it is in. -/
structure Outlasts (before after : Tables Digest) (row : ConversationMember) : Prop where
  banned : ∃ now, StillBanned after row now
  place : ∀ conversation : Conversation, conversation.id = row.conversationId →
    (conversation ∈ after.conversations ↔ conversation ∈ before.conversations)

omit [DecidableEq Digest] in
theorem banned_place {tables : Tables Digest} {now : ConversationMember}
    (still : StillBanned tables row now) : now.conversationId = row.conversationId :=
  congrArg Prod.fst still.key

theorem outlasts_effect {middle : Tables Digest} (schemaMiddle : Schema middle)
    (schemaAfter : Schema after) (effect : Effect sha256 middle after call)
    (kept : Outlasts before middle row) : Outlasts before after row := by
  obtain ⟨⟨now, still⟩, place⟩ := kept
  constructor
  · obtain ⟨later, further⟩ := effect_banned schemaMiddle effect still.listed still.banned
    exact ⟨later, further.listed, further.key.trans still.key, further.banned,
      further.left.trans still.left⟩
  · intro conversation named
    have known : row.conversationId ∈ middle.conversationIds :=
      banned_place still ▸ (schemaMiddle.membersRefer now still.listed).1
    exact (effect_same_place schemaAfter effect known conversation named).trans
      (place conversation named)

theorem outlasts_run {world visited : World Digest} {calls : List Call}
    (ran : run (step sha256) world calls = some visited)
    (member : row ∈ world.database.members) (banned : row.state = .banned) :
    Outlasts world.database.toTables visited.database.toTables row := by
  apply run_invariant (fun visited => Outlasts world.database.toTables visited.database.toTables row)
    (fun state _ next kept taken =>
      outlasts_effect state.database.schema next.database.schema (step_effect taken) kept) ran
  exact ⟨⟨row, still_banned member banned⟩, fun _ _ => Iff.rfl⟩

omit [DecidableEq Digest] in
/-- Nothing a run does lets a banned user reenter, or keeps one from it. -/
theorem reentered_outlasts {now : ConversationMember} (kept : Outlasts before after row)
    (still : StillBanned after row now) : Reentered after now ↔ Reentered before row := by
  unfold Reentered
  rw [still.left, banned_place still]
  constructor
  · rintro ⟨left, conversation, listed, named, isOpen⟩
    exact ⟨left, conversation, (kept.place conversation named).mp listed, named, isOpen⟩
  · rintro ⟨left, conversation, listed, named, isOpen⟩
    exact ⟨left, conversation, (kept.place conversation named).mpr listed, named, isOpen⟩

/-- A ban holds throughout a run exactly when it holds at its start. -/
theorem ban_holds_iff (sha256 : String → Digest) (searchMatches : String → String → Bool)
    (world : World Digest) (user : User Digest) (row : ConversationMember) (calls : List Call)
    (member : row ∈ world.database.members) (owner : row.userId = user.id)
    (banned : row.state = .banned) :
    (∀ visited, Visits (step sha256) world calls visited →
        Excluded sha256 searchMatches visited user row.conversationId) ↔
      user.isUsable = true ∧ ¬Reentered world.database.toTables row := by
  constructor
  · intro always
    exact (excluded_iff sha256 searchMatches world member owner banned).mp
      (always world ⟨[], calls, rfl, rfl⟩)
  · rintro ⟨usable, closed⟩ visited ⟨before, after, _, reached⟩
    have kept := outlasts_run reached member banned
    obtain ⟨now, still⟩ := kept.banned
    have theirs : now.userId = user.id := (congrArg Prod.snd still.key).trans owner
    rw [← banned_place still]
    exact (excluded_iff sha256 searchMatches visited still.listed theirs still.banned).mpr
      ⟨usable, fun reentered => closed ((reentered_outlasts kept still).mp reentered)⟩

end Runs

section Channel

def exile : User Nat :=
  { id := 2, phoneHash := 0, phoneLast4 := "0002", phoneCountry := "IN", displayName := "Bo",
    systemRole := .user, accountState := .active, deletedAt := none }

def exiled : ConversationMember :=
  { conversationId := 5, userId := 2, role := .subscriber, state := .banned, leftAt := some 20 }

/-- A public channel with a banned subscriber whose row was left. -/
def openChannel : Tables Nat :=
  { users := [ann, exile]
    conversations := [{ id := 5, kind := .channel, visibility := .isPublic, slug := some "news",
                        title := some "News", createdBy := some 1, updatedAt := 10 }]
    members := [{ conversationId := 5, userId := 1, role := .owner }, exiled] }

/-- The same channel, closed to strangers. -/
def closedChannel : Tables Nat :=
  { openChannel with
    conversations := [{ id := 5, kind := .channel, title := some "News", createdBy := some 1,
                        updatedAt := 10 }] }

theorem open_channel_allowed : Schema openChannel := by decide

theorem closed_channel_allowed : Schema closedChannel := by decide

theorem closed_channel_ban :
    (∀ visited, Visits (step String.length) ⟨⟨closedChannel, closed_channel_allowed⟩, emptyStore⟩
        [.redeemInvite 2 "t" 30] visited → Excluded String.length (fun _ _ => true) visited exile 5) ↔
      exile.isUsable = true ∧ ¬Reentered closedChannel exiled :=
  ban_holds_iff String.length (fun _ _ => true) ⟨⟨closedChannel, closed_channel_allowed⟩, emptyStore⟩
    exile exiled [.redeemInvite 2 "t" 30] (by decide) rfl rfl

/-- Whoever was banned and is marked as gone reads a public channel. -/
theorem channel_reopened :
    ¬∀ (searchMatches : String → String → Bool) (world : World Nat) (user : User Nat)
      (row : ConversationMember) (calls : List Call), user ∈ world.database.users →
      row ∈ world.database.members → row.userId = user.id → row.state = .banned →
      ∀ visited, Visits (step String.length) world calls visited →
        Excluded String.length searchMatches visited user row.conversationId := by
  intro always
  have excluded := always (fun _ _ => true) ⟨⟨openChannel, open_channel_allowed⟩, emptyStore⟩ exile
    exiled [] (by decide) (by decide) rfl rfl _ ⟨[], [], rfl, rfl⟩
  have refused := excluded.access 30
  cases refused

end Channel

end RunnerupChat.Conversations
