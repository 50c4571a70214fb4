import RunnerupChat.InviteRedemption

/-!
Members who redeem a link of a conversation they are in. The call treats them
as it treats whoever comes back: it lifts a mute or a restriction and takes
one use off the link.
-/

namespace RunnerupChat.Conversations

open Accounts Authz RateLimit UniqueKeys

section Calls
variable {Digest : Type} {before after : Tables Digest} {sha256 : String → Digest}

/-- A current member, however silenced, who is not banned. -/
def Belongs (tables : Tables Digest) (person place : Uuid) : Prop :=
  ∃ row, Current (findMember tables place person) row ∧
    (row.state = .active ∨ row.state = .muted ∨ row.state = .restricted)

/-- The user may do what he could before, at any time, and the link has as many
uses left. -/
structure Untouched (before after : Tables Digest) (user : User Digest) (place : Uuid)
    (hash : Digest) : Prop where
  permissions : ∀ now permission,
    Granted after user now place permission ↔ Granted before user now place permission
  uses : ∀ link ∈ before.invites, link.tokenHash = hash → ∃ later ∈ after.invites,
    later.tokenHash = hash ∧ later.useCount = link.useCount

/-- Nothing that a muted or restricted member could regain is left to him. -/
def NothingToRegain (tables : Tables Digest) (user : User Digest) (conversation : Conversation) :
    Prop :=
  ∀ row, Current (findMember tables conversation.id user.id) row →
    row.state = .muted ∨ row.state = .restricted → user.isUsable = true →
      ¬Regains tables conversation row

/-- A member who is taken in again loses nothing by it. -/
theorem nothing_lost {conversation : Conversation} {row : ConversationMember}
    {person : User Digest} (same : SameElsewhere before after)
    (live : findConversation before conversation.id = some conversation)
    (current : Current (findMember before conversation.id person.id) row)
    (again : findMember after conversation.id person.id = some (rejoined row))
    (unbanned : row.state ≠ .banned) {now : Time} {permission : Permission}
    (granted : Granted before person now conversation.id permission) :
    Granted after person now conversation.id permission := by
  obtain ⟨usable, mine⟩ := (granted_member_iff live current unbanned).mp granted
  have liveAfter := (find_conversation_elsewhere same conversation.id).trans live
  refine (granted_member_iff liveAfter ⟨again, rfl⟩
    (show MessageStore.MemberState.active ≠ .banned by decide)).mpr
    ⟨usable, mine.imp_left fun inside => ?_⟩
  rw [restrained_elsewhere same]
  by_cases still : row.isSilenced now = (rejoined row).isSilenced now
  · have grants : memberGrants conversation (rejoined row) now =
        memberGrants conversation row now := by
      unfold memberGrants
      rw [← still]
      rfl
    rwa [grants]
  · -- a silenced row has nothing that a block could take
    obtain ⟨free, silenced, _⟩ := silence_differs still
    have kept := (member_grants_silenced silenced).mp (restrained_subset _ _ _ inside)
    have apart : permission ∉ [Permission.sendMessage, .editOwnMessage, .pinMessage] :=
      fun listed => kept.1 (writes_silenced permission listed)
    rw [mem_restrained _ _ _ apart, member_grants_free free]
    exact kept.2

/-- A use shows in the counter of its link. -/
theorem use_shows (schema : Schema before) {invite : InviteLink Digest}
    (listed : invite ∈ before.invites) [DecidableEq Digest]
    (counted : after.invites = (redeemed before invite).invites) :
    ¬∀ link ∈ before.invites, link.tokenHash = invite.tokenHash → ∃ later ∈ after.invites,
      later.tokenHash = invite.tokenHash ∧ later.useCount = link.useCount := by
  intro kept
  obtain ⟨later, member, hash, same⟩ := kept invite listed rfl
  rw [counted] at member
  obtain ⟨old, present, rfl⟩ := List.mem_map.mp member
  by_cases own : old.tokenHash = invite.tokenHash
  · obtain rfl := same_row InviteLink.tokenHash schema.invites present listed own
    simp at same
  · rw [if_neg own] at hash
    exact own hash

variable [DecidableEq Digest]

/-- A redemption that succeeds returns the conversation of the link and
touches nothing. -/
def Harmless (sha256 : String → Digest) (world : World Digest) (user : User Digest)
    (token : String) (now : Time) : Prop :=
  ∀ conversation next, redeemInvite sha256 world user token now = (.ok conversation, next) →
    (∃ link ∈ world.database.invites, link.tokenHash = sha256 token ∧
      conversation.id = link.conversationId) ∧
    Untouched world.database.toTables next.database.toTables user conversation.id (sha256 token)

/-- The token opens a link that can be counted once more. -/
def Usable (sha256 : String → Digest) (tables : Tables Digest) (person : Uuid) (token : String)
    (now : Time) : Prop :=
  ∃ invite conversation, LinkOpens sha256 tables person token now invite conversation ∧
    invite.useCount < integerMax

/-- One redemption after the other. -/
def redeemAll (sha256 : String → Digest) (user : User Digest) (world : World Digest)
    (redemptions : List (String × Time)) : World Digest :=
  redemptions.foldl (fun world call => (redeemInvite sha256 world user call.1 call.2).2) world

variable {world next : World Digest} {user : User Digest} {token : String} {now : Time}
  {conversation : Conversation}

/-- Without a usable link nothing happens. -/
theorem redeem_unusable
    (unusable : ¬Usable sha256 world.database.toTables user.id token now) :
    (redeemInvite sha256 world user token now).2 = world ∧
      ∀ conversation next, redeemInvite sha256 world user token now ≠ (.ok conversation, next) := by
  have failed : ∀ conversation next,
      redeemInvite sha256 world user token now ≠ (.ok conversation, next) := by
    intro conversation next answered
    obtain ⟨invite, entry, opens, countable, _⟩ := redeem_ok answered
    exact unusable ⟨invite, conversation, opens, countable⟩
  refine ⟨?_, failed⟩
  by_cases opened : ∃ invite conversation,
      LinkOpens sha256 world.database.toTables user.id token now invite conversation
  · obtain ⟨invite, place, opens⟩ := opened
    obtain ⟨entry, ran⟩ := redeem_opened opens
    rw [ran] at failed ⊢
    unfold commit at failed ⊢
    split
    · next schema => exact absurd (dif_pos schema) (failed place _)
    · rfl
  · rw [redeem_refused fun invite place opens => opened ⟨invite, place, opens⟩]

/-- What a member who redeems a link gets out of it: the conversation, and his
voice back. -/
theorem member_redeems
    (member : ∀ invite ∈ world.database.invites, invite.tokenHash = sha256 token →
      Belongs world.database.toTables user.id invite.conversationId)
    (answered : redeemInvite sha256 world user token now = (.ok conversation, next)) :
    (∃ link ∈ world.database.invites, link.tokenHash = sha256 token ∧
      conversation.id = link.conversationId) ∧
    ((∀ now permission, Granted next.database.toTables user now conversation.id permission ↔
        Granted world.database.toTables user now conversation.id permission) ↔
      NothingToRegain world.database.toTables user conversation) ∧
    ¬Untouched world.database.toTables next.database.toTables user conversation.id
      (sha256 token) := by
  obtain ⟨invite, entry, opens, _, written⟩ := redeem_ok answered
  obtain ⟨row, current, state⟩ := member invite opens.listed opens.hash
  rw [← opens.named] at current
  obtain ⟨_, named⟩ := find_member_some current.1
  have own : row.userId = user.id := congrArg Prod.snd named
  have taken : takenIn world.database.toTables conversation user.id =
      updateMember world.database.toTables row.key rejoined := by
    simp only [takenIn, current.1]
  rw [taken] at written
  refine ⟨⟨invite, opens.listed, opens.hash, opens.named⟩, ?_, fun untouched => ?_⟩
  · have live := find_conversation_of_mem world.database.schema.conversations opens.place opens.live
    have elsewhere : SameElsewhere world.database.toTables next.database.toTables := by
      rw [written]
      exact ⟨rfl, rfl, rfl, rfl⟩
    have again := find_updated next.database.schema current.1 rejoined rfl (by rw [written]; rfl)
    have unbanned : row.state ≠ .banned := by
      rcases state with same | same | same <;> simp [same]
    have found : Current (findMember world.database.toTables conversation.id row.userId) row :=
      own ▸ current
    have regained := nothing_regained_iff elsewhere live found (own ▸ again) unbanned own.symm
    constructor
    · intro same other currentOther
      obtain rfl := Option.some.inj (currentOther.1.symm.trans current.1)
      exact regained.mp fun now permission => (same now permission).mp
    · intro nothing now permission
      exact ⟨regained.mpr (nothing row current) now permission,
        nothing_lost elsewhere live current again unbanned⟩
  · rw [← opens.hash] at untouched
    apply use_shows world.database.schema opens.listed (by rw [written]; rfl) untouched.uses

/-- A redemption by a member is harmless exactly when it fails. -/
theorem harmless_iff (known : user ∈ world.database.users)
    (member : ∀ invite ∈ world.database.invites, invite.tokenHash = sha256 token →
      Belongs world.database.toTables user.id invite.conversationId) :
    Harmless sha256 world user token now ↔
      ¬Usable sha256 world.database.toTables user.id token now := by
  constructor
  · rintro harmless ⟨invite, conversation, opens, countable⟩
    obtain ⟨row, current, _⟩ := member invite opens.listed opens.hash
    rw [← opens.named] at current
    obtain ⟨next, answered⟩ := redeem_commits known opens countable fun other found => by
      obtain rfl := Option.some.inj (found.symm.trans current.1)
      exact Or.inr current.2
    exact (member_redeems member answered).2.2 (harmless conversation next answered).2
  · intro unusable conversation next answered
    exact absurd answered ((redeem_unusable unusable).2 conversation next)

/-- Redemptions of which none succeeds leave everything as it is. -/
theorem redeem_all_unusable (redemptions : List (String × Time))
    (unusable : ∀ call ∈ redemptions,
      ¬Usable sha256 world.database.toTables user.id call.1 call.2) :
    redeemAll sha256 user world redemptions = world := by
  induction redemptions with
  | nil => rfl
  | cons call rest ih =>
      have first := (redeem_unusable (unusable call List.mem_cons_self)).1
      rw [redeemAll, List.foldl_cons, first]
      exact ih fun other listed => unusable other (List.mem_cons_of_mem call listed)

/-- A member who redeems any links any number of times does no harm exactly
when all the redemptions fail. One that succeeds returns the conversation, it
always takes a use, and it gives a voice back to a member who is muted or
restricted, unless he has nothing to regain. -/
theorem members_redeem_iff (sha256 : String → Digest) (world : World Digest) (user : User Digest)
    (redemptions : List (String × Time)) (known : user ∈ world.database.users)
    (member : ∀ call ∈ redemptions, ∀ invite ∈ world.database.invites,
      invite.tokenHash = sha256 call.1 →
        Belongs world.database.toTables user.id invite.conversationId) :
    ((∀ before call after, redemptions = before ++ call :: after →
        Harmless sha256 (redeemAll sha256 user world before) user call.1 call.2) ↔
      ∀ call ∈ redemptions, ¬Usable sha256 world.database.toTables user.id call.1 call.2) ∧
    ∀ call ∈ redemptions, ∀ conversation next,
      redeemInvite sha256 world user call.1 call.2 = (.ok conversation, next) →
      (∃ link ∈ world.database.invites, link.tokenHash = sha256 call.1 ∧
        conversation.id = link.conversationId) ∧
      ((∀ now permission, Granted next.database.toTables user now conversation.id permission ↔
          Granted world.database.toTables user now conversation.id permission) ↔
        NothingToRegain world.database.toTables user conversation) := by
  refine ⟨⟨fun harmless call listed => ?_, fun unusable before call after cut => ?_⟩,
    fun call listed conversation next answered => ?_⟩
  · -- by induction: before a first success the rows are those of the start
    induction redemptions with
    | nil => cases listed
    | cons first rest ih =>
        have own := member first List.mem_cons_self
        have closed := (harmless_iff known own).mp (harmless [] first rest rfl)
        rcases List.mem_cons.mp listed with rfl | later
        · exact closed
        · refine ih (fun call inside => member call (List.mem_cons_of_mem first inside)) ?_ later
          intro before call after cut
          have onward := harmless (first :: before) call after (by rw [cut]; rfl)
          rwa [redeemAll, List.foldl_cons, (redeem_unusable closed).1] at onward
  · have here : call ∈ redemptions := by simp [cut]
    rw [redeem_all_unusable before fun other inside => unusable other (by simp [cut, inside])]
    exact (harmless_iff known (member call here)).mpr (unusable call here)
  · obtain ⟨link, permissions, _⟩ := member_redeems (member call listed) answered
    exact ⟨link, permissions⟩

end Calls

section Board

/-- A board whose second member is muted for good, with a link. -/
def mutedBoard : World Nat :=
  ⟨⟨{ board with
      members := [{ conversationId := 5, userId := 1, role := .owner },
        { conversationId := 5, userId := 2, role := .member, state := .muted }]
      invites := [boardLink false] }, by decide⟩, emptyStore⟩

theorem muted_belongs : ∀ invite ∈ mutedBoard.database.invites,
    Belongs mutedBoard.database.toTables parties[1].id invite.conversationId := by
  intro invite listed
  rw [List.mem_singleton.mp listed]
  exact ⟨_, ⟨rfl, rfl⟩, Or.inr (Or.inl rfl)⟩

theorem muted_opens :
    LinkOpens String.length mutedBoard.database.toTables parties[1].id "t" 0 (boardLink false)
      board.conversations[0] where
  listed := List.mem_singleton_self _
  hash := rfl
  unrevoked := rfl
  unexpired := by simp [boardLink]
  usesLeft := by simp [boardLink]
  place := List.mem_singleton_self _
  named := rfl
  live := rfl
  unbanned := by decide

theorem muted_redemption :
    ((∀ before call after, [("t", 0)] = before ++ call :: after →
        Harmless String.length (redeemAll String.length parties[1] mutedBoard before) parties[1]
          call.1 call.2) ↔
      ∀ call ∈ [("t", 0)],
        ¬Usable String.length mutedBoard.database.toTables parties[1].id call.1 call.2) ∧
    ∀ call ∈ [("t", 0)], ∀ conversation next,
      redeemInvite String.length mutedBoard parties[1] call.1 call.2 = (.ok conversation, next) →
      (∃ link ∈ mutedBoard.database.invites, link.tokenHash = String.length call.1 ∧
        conversation.id = link.conversationId) ∧
      ((∀ now permission,
          Granted next.database.toTables parties[1] now conversation.id permission ↔
            Granted mutedBoard.database.toTables parties[1] now conversation.id permission) ↔
        NothingToRegain mutedBoard.database.toTables parties[1] conversation) :=
  members_redeem_iff String.length mutedBoard parties[1] [("t", 0)] (by decide)
    fun _ _ invite listed _ => muted_belongs invite listed

/-- A muted member redeems a link of his own group. -/
theorem muted_member_redeems :
    ¬∀ (world : World Nat) (user : User Nat) (token : String) (now : Time),
      user ∈ world.database.users →
      (∀ invite ∈ world.database.invites, invite.tokenHash = token.length →
        Belongs world.database.toTables user.id invite.conversationId) →
      Harmless String.length world user token now := by
  intro always
  have belongs : ∀ invite ∈ mutedBoard.database.invites, invite.tokenHash = "t".length →
      Belongs mutedBoard.database.toTables parties[1].id invite.conversationId :=
    fun invite listed _ => muted_belongs invite listed
  have harmless := always mutedBoard parties[1] "t" 0 (by decide) belongs
  exact (harmless_iff (by decide) belongs).mp harmless ⟨_, _, muted_opens, by decide⟩

end Board

end RunnerupChat.Conversations
