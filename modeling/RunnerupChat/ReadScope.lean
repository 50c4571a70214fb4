import RunnerupChat.ContentReads

/-!
Search and sync join the memberships of the user; `resolve_access` also looks
at the account and at the deletion of the conversation. What the bulk paths
serve is within its grants exactly when neither has anything to say.
-/

namespace RunnerupChat.Authz

open Accounts RateLimit UniqueKeys
open MessageStore (Message MessageOut ConversationEvent serialize strip)

variable {Digest : Type}

/-- A membership that both joins accept. -/
def Joined (tables : Tables Digest) (person conversation : Uuid) : Prop :=
  ∃ row ∈ tables.members, row.conversationId = conversation ∧ row.userId = person ∧
    row.leftAt = none ∧ row.state ≠ .banned

theorem mem_member_conversations (tables : Tables Digest) (person conversation : Uuid) :
    conversation ∈ MessageStore.memberConversations tables.store person ↔
      Joined tables person conversation := by
  unfold MessageStore.memberConversations Tables.store Joined
  simp only [List.filter_map, List.map_map, List.mem_map, List.mem_filter, Function.comp,
    Bool.and_eq_true, beq_iff_eq, Option.isNone_iff_eq_none, bne_iff_ne, ne_eq]
  constructor
  · rintro ⟨row, ⟨member, ⟨owner, current⟩, unbanned⟩, named⟩
    exact ⟨row, member, named, owner, current, unbanned⟩
  · rintro ⟨row, member, named, owner, current, unbanned⟩
    exact ⟨row, ⟨member, ⟨owner, current⟩, unbanned⟩, named⟩

section Search
variable {searchMatches : String → String → Bool} {tables : Tables Digest} {person : Uuid}
  {query : String} {filter : Option Uuid} {limit : Nat} {scan : List Message}

/-- The condition of the search on one message. -/
def Hit (searchMatches : String → String → Bool) (tables : Tables Digest) (person : Uuid)
    (query : String) (filter : Option Uuid) (message : Message) : Prop :=
  Joined tables person message.conversationId ∧ (∀ wanted ∈ filter, message.conversationId = wanted) ∧
    message.deletedAt = none ∧ searchMatches (message.body.getD "") query = true

theorem hit_iff (message : Message) :
    (((MessageStore.memberConversations tables.store person).filter fun id =>
        filter.all fun wanted => id == wanted).contains message.conversationId &&
      message.deletedAt.isNone && searchMatches (message.body.getD "") query) = true ↔
      Hit searchMatches tables person query filter message := by
  simp only [Bool.and_eq_true, List.contains_iff_mem, List.mem_filter, mem_member_conversations,
    Option.all_eq_true, beq_iff_eq, Option.isNone_iff_eq_none, Hit, Option.mem_def, and_assoc]

theorem found_is_hit {message : Message}
    (found : message ∈ MessageStore.foundRows searchMatches tables.store person query filter limit
      scan) : message ∈ scan ∧ Hit searchMatches tables person query filter message := by
  unfold MessageStore.foundRows at found
  have member := (List.mem_insertionSort _).mp (List.mem_of_mem_take found)
  obtain ⟨listed, passed⟩ := List.mem_filter.mp member
  exact ⟨listed, (hit_iff message).mp passed⟩

/-- A search with room for one row serves one as soon as there is a hit. -/
theorem hit_served {message : Message} (listed : message ∈ scan) (room : 0 < limit)
    (hit : Hit searchMatches tables person query filter message) :
    ∃ served, served ∈ MessageStore.foundRows searchMatches tables.store person query filter limit
      scan := by
  apply List.exists_mem_of_ne_nil
  intro empty
  unfold MessageStore.foundRows at empty
  rcases List.take_eq_nil_iff.mp empty with none | none
  · omega
  · have member : message ∈ ([] : List Message) := by
      rw [← none, List.mem_insertionSort]
      exact List.mem_filter.mpr ⟨listed, (hit_iff message).mpr hit⟩
    cases member

end Search

section Bulk
variable {searchMatches : String → String → Bool} {tables : Tables Digest} {user : User Digest}
  {now : Time}

/-- A budget nothing was charged to admits a call. -/
theorem fresh_budget (name : LimitName) (identity : String) (nowMs : Nat) :
    (enforceLimit emptyStore name identity nowMs).1 = .ok () := by
  have admitted : (enforce emptyStore name identity nowMs).1 = .ok () := by
    cases name <;> rfl
  unfold enforceLimit
  split
  · rfl
  · rename_i result
    rw [result] at admitted
    cases admitted

theorem search_answers {limiter after : Store} {nowMs : Nat} {query : String}
    {filter : Option Uuid} {limit : Nat} {scan : List Message} {found : List MessageOut}
    (answered : searchMessages searchMatches tables limiter nowMs user query filter limit scan =
      (.ok found, after)) :
    2 ≤ (strip query).length ∧ found = (MessageStore.foundRows searchMatches tables.store user.id
      query filter limit scan).map (serialize · []) := by
  unfold searchMessages at answered
  split at answered
  · cases answered
  · split at answered
    · cases answered
    · cases answered
      exact ⟨by omega, rfl⟩

theorem search_admitted (searchMatches : String → String → Bool) (tables : Tables Digest)
    (user : User Digest) (nowMs : Nat) {query : String} (filter : Option Uuid) (limit : Nat)
    (scan : List Message) (long : 2 ≤ (strip query).length) :
    ∃ after, searchMessages searchMatches tables emptyStore nowMs user query filter limit scan =
      (.ok ((MessageStore.foundRows searchMatches tables.store user.id query filter limit
        scan).map (serialize · [])), after) := by
  rcases charged : enforceLimit emptyStore .searchUser (toString user.id) nowMs with ⟨verdict, after⟩
  have admitted := fresh_budget .searchUser (toString user.id) nowMs
  rw [charged] at admitted
  subst admitted
  refine ⟨after, ?_⟩
  simp only [searchMessages, charged]
  rw [if_neg (by omega)]

theorem sync_serves (distinct : (tables.events.map ConversationEvent.id).Nodup)
    (person : User Digest) (afterId limit : Nat) {event : ConversationEvent}
    (served : event ∈ (syncEvents tables person now afterId limit).1) :
    event ∈ tables.events ∧ 0 < event.id ∧ event.createdAt + second < now ∧
      Joined tables person.id event.conversationId := by
  have inner : ((tables.events.filter (MessageStore.servable
      (MessageStore.memberConversations tables.store person.id) now)).map
      ConversationEvent.id).Nodup := distinct.sublist (List.filter_sublist.map _)
  obtain ⟨member, beyond, _⟩ := (KeysetPage.mem_page_iff inner event).mp served
  obtain ⟨listed, allowed⟩ := List.mem_filter.mp member
  simp only [MessageStore.servable, Bool.and_eq_true, List.contains_iff_mem,
    mem_member_conversations, decide_eq_true_eq] at allowed
  exact ⟨listed, Nat.zero_lt_of_lt beyond, allowed.2, allowed.1⟩

theorem sync_offers (distinct : (tables.events.map ConversationEvent.id).Nodup)
    {event : ConversationEvent} (member : event ∈ tables.events) (positive : 0 < event.id)
    (settled : event.createdAt + second < now)
    (joined : Joined tables user.id event.conversationId) :
    event ∈ (syncEvents tables user now (event.id - 1) 1).1 := by
  have inner : ((tables.events.filter (MessageStore.servable
      (MessageStore.memberConversations tables.store user.id) now)).map
      ConversationEvent.id).Nodup := distinct.sublist (List.filter_sublist.map _)
  apply KeysetPage.page_just_before inner _ positive
  refine List.mem_filter.mpr ⟨member, ?_⟩
  simp [MessageStore.servable, mem_member_conversations, joined, settled]

end Bulk

/-- For a current, unbanned member `resolve_access` asks two more things. -/
theorem readable_of_joined (database : Database Digest) (user : User Digest) (now : Time)
    {conversation : Uuid} (joined : Joined database.toTables user.id conversation) :
    Readable database.toTables user now conversation ↔
      user.isUsable = true ∧ ∀ row ∈ database.conversations, row.id = conversation →
        row.deletedAt = none := by
  obtain ⟨row, member, rfl, owner, current, unbanned⟩ := joined
  rw [readable_iff]
  apply and_congr_right
  intro usable
  constructor
  · rintro ⟨conversation, found, _⟩ other there same
    obtain ⟨listed, named, live⟩ := find_conversation_some found
    rwa [same_row Conversation.id database.schema.conversations there listed
      (same.trans named.symm)]
  · intro live
    obtain ⟨conversation, listed, named⟩ :=
      List.mem_map.mp (database.schema.membersRefer row member).1
    have found := find_conversation_of_mem database.schema.conversations listed
      (live conversation listed named)
    have own := find_member_of_mem database.schema.members member
    rw [owner, ← named] at own
    refine ⟨conversation, named ▸ found, memberGrants conversation row now, ?_⟩
    rw [standing_member ⟨own, current⟩, if_neg unbanned]

/-- Every message a search returns and every event a sync returns is of a
conversation whose messages the user may read. -/
structure WithinAccess (searchMatches : String → String → Bool) (tables : Tables Digest)
    (user : User Digest) (now : Time) : Prop where
  search : ∀ limiter after nowMs query filter limit scan found, scan.Perm tables.messages →
    searchMessages searchMatches tables limiter nowMs user query filter limit scan =
      (.ok found, after) →
    ∀ out ∈ found, Readable tables user now out.conversationId
  sync : ∀ afterId limit, ∀ event ∈ (syncEvents tables user now afterId limit).1,
    Readable tables user now event.conversationId

/-- A conversation has something to serve: an undeleted message that some
query finds, or an event that is old enough. -/
def Offers (searchMatches : String → String → Bool) (tables : Tables Digest) (now : Time)
    (conversation : Uuid) : Prop :=
  (∃ message ∈ tables.messages, message.conversationId = conversation ∧
    message.deletedAt = none ∧ ∃ query, 2 ≤ (strip query).length ∧
      searchMatches (message.body.getD "") query = true) ∨
  ∃ event ∈ tables.events, event.conversationId = conversation ∧ 0 < event.id ∧
    event.createdAt + second < now

/-- What a joined conversation offers is served to its member. -/
theorem offered_is_readable (database : Database Digest) {searchMatches : String → String → Bool}
    {user : User Digest} {now : Time} {conversation : Uuid}
    (within : WithinAccess searchMatches database.toTables user now)
    (joined : Joined database.toTables user.id conversation)
    (offers : Offers searchMatches database.toTables now conversation) :
    Readable database.toTables user now conversation := by
  rcases offers with ⟨message, member, rfl, undeleted, query, long, hits⟩ |
    ⟨event, member, rfl, positive, settled⟩
  · have hit : Hit searchMatches database.toTables user.id query (some message.conversationId)
        message := ⟨joined, by simp, undeleted, hits⟩
    obtain ⟨served, found⟩ := hit_served member Nat.zero_lt_one hit
    obtain ⟨after, answered⟩ := search_admitted searchMatches database.toTables user 0
      (some message.conversationId) 1 database.messages long
    have readable := within.search _ _ _ _ _ _ _ _ (List.Perm.refl _) answered _
      (List.mem_map_of_mem found)
    obtain ⟨_, _, filtered, _⟩ := found_is_hit found
    rw [← filtered message.conversationId rfl]
    exact readable
  · exact within.sync _ _ event
      (sync_offers database.schema.events member positive settled joined)

theorem bulk_reads_iff (searchMatches : String → String → Bool) (database : Database Digest)
    (user : User Digest) (now : Time) :
    WithinAccess searchMatches database.toTables user now ↔
      ∀ conversation, Joined database.toTables user.id conversation →
        Offers searchMatches database.toTables now conversation →
        user.isUsable = true ∧ ∀ row ∈ database.conversations, row.id = conversation →
          row.deletedAt = none := by
  constructor
  · intro within conversation joined offers
    exact (readable_of_joined database user now joined).mp
      (offered_is_readable database within joined offers)
  · intro allowed
    constructor
    · intro limiter after nowMs query filter limit scan found order answered out member
      obtain ⟨long, rfl⟩ := search_answers answered
      obtain ⟨message, served, rfl⟩ := List.mem_map.mp member
      obtain ⟨listed, joined, _, undeleted, hits⟩ := found_is_hit served
      apply (readable_of_joined database user now joined).mpr
      apply allowed message.conversationId joined
      exact Or.inl ⟨message, order.mem_iff.mp listed, rfl, undeleted, query, long, hits⟩
    · intro afterId limit event served
      obtain ⟨listed, positive, settled, joined⟩ :=
        sync_serves database.schema.events user afterId limit served
      apply (readable_of_joined database user now joined).mpr
      exact allowed event.conversationId joined (Or.inr ⟨event, listed, rfl, positive, settled⟩)

def ann : User Nat :=
  { id := 1, phoneHash := 0, phoneLast4 := "0001", phoneCountry := "IN", displayName := "Ann",
    systemRole := .user, accountState := .active, deletedAt := none }

/-- A group that was deleted with its owner still in it. -/
def deletedGroup : Tables Nat :=
  { users := [ann]
    conversations := [{ id := 5, kind := .group, title := some "Team", createdBy := some 1,
                        lastSeq := 1, updatedAt := 10, deletedAt := some 20 }]
    members := [{ conversationId := 5, userId := 1, role := .owner }]
    events := [⟨1, 5, 1, .deleted, .deletion 9 false, 1, 10⟩] }

theorem deleted_group_allowed : Schema deletedGroup := by decide

/-- Sync goes on serving the events of a deleted conversation. -/
theorem deleted_group_synced :
    ¬∀ (searchMatches : String → String → Bool) (database : Database Nat) (user : User Nat)
      (now : Time), user ∈ database.users →
      WithinAccess searchMatches database.toTables user now := by
  intro always
  have within := always (fun _ _ => true) ⟨deletedGroup, deleted_group_allowed⟩ ann 2000000 (by decide)
  have readable := within.sync 0 200 ⟨1, 5, 1, .deleted, .deletion 9 false, 1, 10⟩ (by decide)
  obtain ⟨access, resolved, _⟩ := readable
  cases resolved

end RunnerupChat.Authz
