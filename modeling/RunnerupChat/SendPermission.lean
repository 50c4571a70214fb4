import RunnerupChat.Blocking

/-!
Who may send. `resolve_access` adds and removes permissions in a fixed order;
here is what that leaves of SEND_MESSAGE, as conditions on the rows.
-/

namespace RunnerupChat.Authz

open Accounts UniqueKeys

section Conditions

/-- The member may write here: the membership stands, nothing silences it, and
neither the role nor the policy on sending is in the way. -/
structure Sender (conversation : Conversation) (row : ConversationMember) (now : Time) : Prop where
  current : row.leftAt = none
  state : row.state ≠ .banned ∧ row.state ≠ .muted ∧ row.state ≠ .restricted
  mutedUntil : ∀ moment ∈ row.mutedUntil, moment ≤ now
  restrictedUntil : ∀ moment ∈ row.restrictedUntil, moment ≤ now
  role : row.role ≠ .subscriber
  policy : conversation.sendPolicy.rank ≤ row.role.rank

/-- The other id of a pair: the high one for the low one, else the low one. -/
def DirectConversationKey.other (key : DirectConversationKey) (user : Uuid) : Uuid :=
  if key.userLo = user then key.userHi else key.userLo

/-- No row blocks one of the two from the other. -/
def Unblocked (blocks : List BlockedUser) (first second : Uuid) : Prop :=
  ∀ row ∈ blocks, row.pair ≠ (first, second) ∧ row.pair ≠ (second, first)

variable {conversation : Conversation} {row : ConversationMember} {now : Time}

theorem no_moment_ahead (timer : Option Time) (now : Time) :
    timer.any (fun moment => decide (now < moment)) = false ↔ ∀ moment ∈ timer, moment ≤ now := by
  cases timer with
  | none => simp
  | some moment => simp

theorem silenced_iff :
    row.isSilenced now = false ↔ row.state ≠ .muted ∧ row.state ≠ .restricted ∧
      (∀ moment ∈ row.mutedUntil, moment ≤ now) ∧
      ∀ moment ∈ row.restrictedUntil, moment ≤ now := by
  unfold ConversationMember.isSilenced
  rw [Bool.or_eq_false_iff, Bool.or_eq_false_iff, Bool.or_eq_false_iff, no_moment_ahead,
    no_moment_ahead, beq_eq_false_iff_ne, beq_eq_false_iff_ne]
  simp only [and_assoc]

theorem ranked_iff (role : MemberRole) : 1 ≤ role.rank ↔ role ≠ .subscriber := by
  cases role <;> decide

theorem sender_iff :
    Sender conversation row now ↔ row.leftAt = none ∧ row.state ≠ .banned ∧
      .sendMessage ∈ memberGrants conversation row now := by
  rw [member_sends_iff, silenced_iff, ranked_iff]
  constructor
  · intro sender
    exact ⟨sender.current, sender.state.1, sender.role, ⟨sender.state.2.1, sender.state.2.2,
      sender.mutedUntil, sender.restrictedUntil⟩, sender.policy⟩
  · rintro ⟨current, unbanned, role, ⟨unmuted, unrestricted, mute, restriction⟩, policy⟩
    exact ⟨current, ⟨unbanned, unmuted, unrestricted⟩, mute, restriction, role, policy⟩

end Conditions

section Blocks
variable {Digest : Type} {tables : Tables Digest} {conversation : Conversation} {person : Uuid}

theorem unblocked_iff (first second : Uuid) :
    isBlocked tables first second = false ↔ Unblocked tables.blocks first second := by
  simp only [isBlocked, blockingState, Unblocked, BlockedUser.pair, Bool.or_eq_false_iff,
    List.any_eq_false, Bool.and_eq_true, beq_iff_eq, ne_eq, Prod.mk.injEq]
  constructor
  · rintro ⟨forward, backward⟩ row member
    exact ⟨forward row member, backward row member⟩
  · intro clear
    exact ⟨fun row member => (clear row member).1, fun row member => (clear row member).2⟩

/-- A conversation has one pair at most, so the pair found is the only one. -/
theorem counterpart_iff (distinct : (tables.directKeys.map
      DirectConversationKey.conversationId).Nodup) (id other : Uuid) :
    directCounterpart tables id person = some other ↔
      ∃ key ∈ tables.directKeys, key.conversationId = id ∧ key.other person = other := by
  constructor
  · intro found
    obtain ⟨key, chosen, same⟩ := Option.map_eq_some_iff.mp found
    exact ⟨key, List.mem_of_find?_eq_some chosen, by simpa using List.find?_some chosen, same⟩
  · rintro ⟨key, member, rfl, rfl⟩
    unfold directCounterpart
    rw [find_member DirectConversationKey.conversationId distinct member]
    rfl

theorem clear_iff (distinct : (tables.directKeys.map
      DirectConversationKey.conversationId).Nodup) :
    ¬BlockedHere tables conversation person ↔ (conversation.kind = .direct →
      ∀ key ∈ tables.directKeys, key.conversationId = conversation.id →
        Unblocked tables.blocks person (key.other person)) := by
  unfold BlockedHere
  rw [not_and]
  apply imp_congr_right
  intro _
  rw [Bool.not_eq_true]
  constructor
  · intro clear key member named
    have found := (counterpart_iff distinct conversation.id (key.other person)).mpr
      ⟨key, member, named, rfl⟩
    rw [found] at clear
    exact (unblocked_iff person _).mp clear
  · intro clear
    cases found : directCounterpart tables conversation.id person with
    | none => rfl
    | some other =>
        obtain ⟨key, member, named, rfl⟩ :=
          (counterpart_iff distinct conversation.id other).mp found
        exact (unblocked_iff person _).mpr (clear key member named)

/-- A block takes sending away whatever else was granted. -/
theorem restrained_sends_iff (granted : List Permission) :
    .sendMessage ∈ restrained tables conversation person granted ↔
      .sendMessage ∈ granted ∧ conversation.isArchived = false ∧
        ¬BlockedHere tables conversation person := by
  by_cases blocked : BlockedHere tables conversation person
  · have write : Permission.sendMessage ∈ writePermissions := by decide
    rw [restrained_blocked granted blocked write]
    simp [blocked]
  · rw [restrained_unblocked granted blocked, mem_archiveLeaves]
    cases conversation.isArchived <;> simp [blocked]

end Blocks

section Sending
variable {Digest : Type} {database : Database Digest} {user : User Digest} {now : Time} {id : Uuid}

/-- Only a member with a membership that stands is granted sending. -/
theorem standing_sender {conversation : Conversation} {granted : List Permission}
    (answered : standing conversation (findMember database.toTables conversation.id user.id) now =
      .ok granted) (sends : .sendMessage ∈ granted) :
    ∃ row ∈ database.members, row.key = (conversation.id, user.id) ∧
      Sender conversation row now ∧ granted = memberGrants conversation row now := by
  rcases standing_granted answered with ⟨row, current, unbanned, rfl⟩ | ⟨_, rfl⟩
  · obtain ⟨member, named⟩ := find_member_some current.1
    exact ⟨row, member, named, sender_iff.mpr ⟨current.2, unbanned, sends⟩, rfl⟩
  · exact absurd sends (by decide)

/-- `resolve_access` grants SEND_MESSAGE exactly in a live conversation that is
not archived, to a member who may write, with no block in a direct chat. -/
theorem send_granted_iff (usable : user.isUsable = true) :
    (∃ access, resolveAccess database.toTables user now id = .ok access ∧
        access.can .sendMessage = true) ↔
      ∃ conversation ∈ database.conversations, conversation.id = id ∧
        conversation.deletedAt = none ∧ conversation.isArchived = false ∧
        (∃ row ∈ database.members, row.key = (conversation.id, user.id) ∧
          Sender conversation row now) ∧
        (conversation.kind = .direct →
          ∀ key ∈ database.directKeys, key.conversationId = conversation.id →
            Unblocked database.blocks user.id (key.other user.id)) := by
  constructor
  · rintro ⟨access, resolved, can⟩
    obtain ⟨_, conversation, granted, found, answered, rfl⟩ := (resolve_ok_iff access).mp resolved
    obtain ⟨listed, named, live⟩ := find_conversation_some found
    simp only [Access.can, List.contains_iff_mem, List.mem_append] at can
    have sends : .sendMessage ∈ restrained database.toTables conversation user.id granted :=
      can.resolve_right fun system => absurd (system_grants_platform _ system) (by decide)
    obtain ⟨inside, unarchived, clear⟩ := (restrained_sends_iff granted).mp sends
    obtain ⟨row, member, keyed, sender, _⟩ := standing_sender answered inside
    exact ⟨conversation, listed, named, live, unarchived, ⟨row, member, keyed, sender⟩,
      (clear_iff database.schema.directKeys).mp clear⟩
  · rintro ⟨conversation, listed, rfl, live, unarchived, ⟨row, member, keyed, sender⟩, clear⟩
    have found := find_conversation_of_mem database.schema.conversations listed live
    have inside := find_member_of_mem database.schema.members member
    obtain ⟨place, person⟩ := Prod.mk.inj keyed
    rw [place, person] at inside
    obtain ⟨current, unbanned, grants⟩ := sender_iff.mp sender
    have answered : standing conversation
        (findMember database.toTables conversation.id user.id) now =
          .ok (memberGrants conversation row now) := by
      rw [standing_member ⟨inside, current⟩, if_neg unbanned]
    have sends : .sendMessage ∈ restrained database.toTables conversation user.id
        (memberGrants conversation row now) :=
      (restrained_sends_iff _).mpr
        ⟨grants, unarchived, (clear_iff database.schema.directKeys).mpr clear⟩
    refine ⟨_, (resolve_ok_iff _).mpr ⟨usable, conversation, _, found, answered, rfl⟩, ?_⟩
    simp only [Access.can, List.contains_iff_mem, List.mem_append]
    exact Or.inl sends

/-- A direct chat in which every member may send. -/
def openPair : Database Nat where
  users := parties
  conversations := [{ quietChat with sendPolicy := .member }]
  directKeys := [⟨5, 1, 2⟩]
  members := [{ conversationId := 5, userId := 1 }, { conversationId := 5, userId := 2 }]
  schema := by decide

theorem open_pair_sends :
    ∃ access, resolveAccess openPair.toTables parties[0] 20 5 = .ok access ∧
      access.can .sendMessage = true :=
  (send_granted_iff rfl).mpr
    ⟨{ quietChat with sendPolicy := .member }, by decide, rfl, rfl, rfl,
      ⟨{ conversationId := 5, userId := 1 }, by decide, rfl,
        { current := rfl, state := by decide, mutedUntil := by decide, restrictedUntil := by decide,
          role := by decide, policy := by decide }⟩,
      fun _ _ _ _ _ blocked => absurd blocked List.not_mem_nil⟩

end Sending

end RunnerupChat.Authz
