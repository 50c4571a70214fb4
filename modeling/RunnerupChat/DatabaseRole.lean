import RunnerupChat.Accounts
import RunnerupChat.Referential

/-!
The foreign keys of `0001_init.sql` and the grants of `0002_roles.sql`. The
role `chat_app` may add to `audit_logs`, `security_events` and `message_edits`
but not update or delete there, so what can happen to their rows comes from
the rows they refer to.
-/

namespace RunnerupChat.DatabaseRole

open Accounts Referential Runs

inductive Table where
  | users | otpChallenges | userDevices | userSessions
  | conversations | directConversationKeys | conversationMembers
  | messages | messageEdits | messageReceipts | messageReactions | messageMentions | pinnedMessages
  | attachments | inviteLinks | joinRequests
  | blockedUsers | reports | moderationActions
  | notifications | notificationPreferences | pushSubscriptions
  | conversationEvents | auditLogs | securityEvents
  deriving DecidableEq

/-- The columns that refer to another row. -/
inductive Column where
  | userId | deviceId | previousId | createdBy | conversationId | userLo | userHi | invitedBy
  | senderId | replyToId | threadRootId | forwardedFrom | deletedBy | messageId | editedBy | pinnedBy
  | ownerId | inviteId | decidedBy | blockerId | blockedId | reporterId
  | subjectUserId | subjectMessageId | subjectConversationId | handledBy | actorId
  | targetUserId | targetMessageId | targetConversationId | reportId
  deriving DecidableEq

abbrev Reference := ForeignKey Table Column

/-- `NOT NULL REFERENCES … ON DELETE CASCADE`. -/
def owned (column : Column) (target : Table) : Reference := ⟨column, target, .cascade, true⟩

/-- `REFERENCES … ON DELETE CASCADE`. -/
def attached (column : Column) (target : Table) : Reference := ⟨column, target, .cascade, false⟩

/-- `REFERENCES … ON DELETE SET NULL`. -/
def loose (column : Column) (target : Table) : Reference := ⟨column, target, .setNull, false⟩

def foreignKeys : Table → List Reference
  | .users => []
  | .otpChallenges => []
  | .userDevices => [owned .userId .users]
  | .userSessions =>
      [owned .userId .users, owned .deviceId .userDevices, loose .previousId .userSessions]
  | .conversations => [loose .createdBy .users]
  | .directConversationKeys =>
      [owned .conversationId .conversations, owned .userLo .users, owned .userHi .users]
  | .conversationMembers =>
      [owned .conversationId .conversations, owned .userId .users, loose .invitedBy .users]
  | .messages =>
      [owned .conversationId .conversations, loose .senderId .users, loose .replyToId .messages,
        loose .threadRootId .messages, loose .forwardedFrom .messages, loose .deletedBy .users]
  | .messageEdits => [owned .messageId .messages, loose .editedBy .users]
  | .messageReceipts => [owned .messageId .messages, owned .userId .users]
  | .messageReactions => [owned .messageId .messages, owned .userId .users]
  | .messageMentions => [owned .messageId .messages, owned .userId .users]
  | .pinnedMessages =>
      [owned .conversationId .conversations, owned .messageId .messages, loose .pinnedBy .users]
  | .attachments =>
      [owned .ownerId .users, attached .conversationId .conversations, attached .messageId .messages]
  | .inviteLinks => [owned .conversationId .conversations, loose .createdBy .users]
  | .joinRequests =>
      [owned .conversationId .conversations, owned .userId .users, loose .inviteId .inviteLinks,
        loose .decidedBy .users]
  | .blockedUsers => [owned .blockerId .users, owned .blockedId .users]
  | .reports =>
      [owned .reporterId .users, attached .subjectUserId .users,
        attached .subjectMessageId .messages, attached .subjectConversationId .conversations,
        loose .handledBy .users]
  | .moderationActions =>
      -- required, yet to be set to null: its actor cannot be deleted
      [⟨.actorId, .users, .setNull, true⟩, loose .targetUserId .users,
        loose .targetMessageId .messages, loose .targetConversationId .conversations,
        loose .reportId .reports]
  | .notifications =>
      [owned .userId .users, attached .conversationId .conversations, attached .messageId .messages,
        loose .actorId .users]
  | .notificationPreferences =>
      [owned .userId .users, attached .conversationId .conversations]
  | .pushSubscriptions => [owned .userId .users, owned .deviceId .userDevices]
  | .conversationEvents => [owned .conversationId .conversations, loose .actorId .users]
  | .auditLogs => [loose .actorId .users]
  | .securityEvents => [loose .userId .users]

def schema : Schema Table Column where
  foreignKeys := foreignKeys
  distinct := by
    intro table
    cases table <;> decide

/-- What is granted to `chat_app`. -/
def chatApp (table : Table) (privilege : Privilege) : Bool :=
  match privilege with
  | .insert => true
  | .update | .delete =>
      match table with
      | .auditLogs | .securityEvents | .messageEdits => false
      | _ => true

abbrev Database (Data : Type) := List (Row Table Column Uuid Data)

section Evidence
variable {Data : Type} {rows next final : Database Data} {row : Row Table Column Uuid Data}

abbrev perform (rows : Database Data) (statement : Statement Table Column Uuid Data) :
    Option (Database Data) :=
  execute schema chatApp rows statement

/-- Where the logs say whom an entry is about. -/
def person : Table → Column
  | .auditLogs => .actorId
  | _ => .userId

theorem person_key (log : row.table = .auditLogs ∨ row.table = .securityEvents) :
    schema.foreignKeys row.table = [loose (person row.table) .users] := by
  rcases log with log | log <;> rw [log] <;> rfl

/-- Whatever statements the role executes: an entry of the audit log or of the
security events stays as it was written, and still names its user exactly if
that user was there all the while. -/
theorem evidence_lasts (consistent : Consistent schema rows)
    {statements : List (Statement Table Column Uuid Data)}
    (ran : run perform rows statements = some final) (member : row ∈ rows)
    (log : row.table = .auditLogs ∨ row.table = .securityEvents) :
    ∃ entry ∈ final, entry.name = row.name ∧ entry.data = row.data ∧
      (∀ column, column ≠ person row.table → entry.ref column = row.ref column) ∧
      ∀ user, row.ref (person row.table) = some user →
        (entry.ref (person row.table) = some user ↔
          ∀ visited, Visits perform rows statements visited →
            (Table.users, user) ∈ names visited) := by
  have keys := person_key log
  have guarded : Guarded chatApp row.table := by
    rcases log with log | log <;> rw [log] <;> exact ⟨rfl, rfl⟩
  obtain ⟨entry, there, kept, iff⟩ := run_keeps consistent ran member guarded (by
    intro visited _ key listed cascading
    rw [keys, List.mem_singleton] at listed
    rw [listed] at cascading
    cases cascading)
  refine ⟨entry, there, kept.name, kept.data, ?_, ?_⟩
  · intro column other
    rcases kept.refs column with same | ⟨_, key, listed, named, _⟩
    · exact same
    · rw [keys, List.mem_singleton] at listed
      exact absurd (listed ▸ named).symm other
  · intro user signed
    have listed : loose (person row.table) .users ∈ schema.foreignKeys row.table :=
      keys ▸ List.mem_singleton_self _
    have target : row.target (loose (person row.table) .users) = some (.users, user) := by
      simp only [Row.target, loose, signed, Option.map_some]
    rw [← iff _ listed (.users, user) target, target]
    simp [Row.target, loose, Option.map_eq_some_iff]

end Evidence

section Edits
variable {Data : Type} {rows next final : Database Data} {row : Row Table Column Uuid Data}

/-- The statement deletes neither the message nor the conversation it is in. -/
def Spares (message : Uuid) (rows : Database Data) (statement : Statement Table Column Uuid Data) :
    Prop :=
  match statement with
  | .delete .messages hit => ∀ row ∈ rows, row.name = (.messages, message) → hit row = false
  | .delete .conversations hit => ∀ row ∈ rows, row.name = (.messages, message) →
      ∀ place ∈ rows, row.target (owned .conversationId .conversations) = some place.name →
        hit place = false
  | _ => True

theorem mem_victims {table : Table} {hit : Row Table Column Uuid Data → Bool}
    {name : Table × Uuid} : name ∈ victims table hit rows ↔
      ∃ row ∈ rows, row.name = name ∧ row.table = table ∧ hit row = true := by
  simp only [victims, names, List.mem_map, List.mem_filter, Bool.and_eq_true, decide_eq_true_eq]
  constructor
  · rintro ⟨row, ⟨member, chosen⟩, same⟩
    exact ⟨row, member, same, chosen⟩
  · rintro ⟨row, member, same, chosen⟩
    exact ⟨row, ⟨member, chosen⟩, same⟩

/-- A message falls with its conversation only. -/
theorem message_spared (consistent : Consistent schema rows) {message : Uuid} {table : Table}
    {hit : Row Table Column Uuid Data → Bool} {after : Database Data}
    (deleted : Deleted schema (victims table hit rows) rows after)
    (there : (Table.messages, message) ∈ names rows)
    (spares : Spares message rows (.delete table hit)) : (Table.messages, message) ∈ names after := by
  obtain ⟨text, member, named⟩ := List.mem_map.mp there
  have kind : text.table = .messages := congrArg Prod.fst named
  rw [← named]
  refine deleted.spared text member ?_ ?_
  · intro victim
    obtain ⟨other, listed, same, chosen, hits⟩ := mem_victims.mp victim
    obtain rfl : other = text := same_named consistent.distinct listed member same
    obtain rfl : table = .messages := chosen.symm.trans kind
    rw [spares other member named] at hits
    cases hits
  · intro key listed cascading target found
    have owning : key = owned .conversationId .conversations := by
      rw [kind] at listed
      simp only [schema, foreignKeys, List.mem_cons, List.not_mem_nil, or_false] at listed
      rcases listed with rfl | rfl | rfl | rfl | rfl | rfl
      · rfl
      all_goals cases cascading
    subst owning
    have resolved := consistent.resolved text member _ listed target found
    obtain ⟨place, here, same⟩ := List.mem_map.mp resolved
    have conversation : place.table = .conversations := by
      have first := congrArg Prod.fst same
      obtain ⟨_, _, rfl⟩ := Option.map_eq_some_iff.mp found
      exact first
    rw [← same]
    refine deleted.spared place here ?_ ?_
    · intro victim
      obtain ⟨other, listing, alike, chosen, hits⟩ := mem_victims.mp victim
      obtain rfl : other = place := same_named consistent.distinct listing here alike
      obtain rfl : table = .conversations := chosen.symm.trans conversation
      rw [spares text member named other here (by rw [same]; exact found)] at hits
      cases hits
    · intro key keyed falls
      rw [conversation] at keyed
      obtain rfl := List.mem_singleton.mp keyed
      cases falls

theorem edit_key (edit : row.table = .messageEdits) :
    owned .messageId .messages ∈ schema.foreignKeys row.table := by
  rw [edit]
  exact List.mem_cons_self

theorem edit_target {message : Uuid} (about : row.ref .messageId = some message) :
    row.target (owned .messageId .messages) = some (.messages, message) := by
  simp only [Row.target, owned, about, Option.map_some]

theorem edit_names (consistent : Consistent schema rows) (member : row ∈ rows)
    (edit : row.table = .messageEdits) {message : Uuid} (about : row.ref .messageId = some message) :
    (Table.messages, message) ∈ names rows :=
  consistent.resolved row member _ (edit_key edit) _ (edit_target about)

/-- A statement that spares the message of an edit leaves the message there. -/
theorem step_spares (consistent : Consistent schema rows) (member : row ∈ rows)
    (edit : row.table = .messageEdits) {message : Uuid} (about : row.ref .messageId = some message)
    {statement : Statement Table Column Uuid Data} (spares : Spares message rows statement)
    (ran : perform rows statement = some next) : (Table.messages, message) ∈ names next := by
  have there := edit_names consistent member edit about
  cases statement with
  | insert new =>
      simp only [perform, execute, Option.ite_none_right_eq_some, Option.some.injEq] at ran
      obtain ⟨_, rfl⟩ := ran
      rw [names, List.map_append]
      exact List.mem_append_left _ there
  | update table change =>
      -- the edit is not updated, and the update may not break its key
      have whole := execute_consistent ran
      obtain ⟨same, here⟩ : ∃ same : Row Table Column Uuid Data, same ∈ next ∧ same = row := by
        simp only [perform, execute, Option.ite_none_right_eq_some, Bool.and_eq_true,
          Option.some.injEq] at ran
        obtain ⟨⟨allowed, _⟩, rfl⟩ := ran
        have other : row.table ≠ table := by
          rintro rfl
          rw [edit] at allowed
          cases allowed
        exact ⟨row, List.mem_map.mpr ⟨row, member, if_neg other⟩, rfl⟩
      obtain ⟨present, rfl⟩ := here
      exact edit_names whole present edit about
  | delete table hit =>
      simp only [perform, execute, Option.ite_none_right_eq_some, Option.some.injEq] at ran
      obtain ⟨_, rfl⟩ := ran
      exact message_spared consistent (delete_deleted consistent table hit) there spares

/-- A statement that leaves an edit of the message spares the message. -/
theorem step_spared (consistent : Consistent schema rows) {message : Uuid}
    {statement : Statement Table Column Uuid Data} (ran : perform rows statement = some next)
    (there : (Table.messages, message) ∈ names next) : Spares message rows statement := by
  cases statement with
  | insert new => trivial
  | update table change => trivial
  | delete table hit =>
      have whole := execute_consistent ran
      simp only [perform, execute, Option.ite_none_right_eq_some, Option.some.injEq] at ran
      have deleted : Deleted schema (victims table hit rows) rows next :=
        ran.2 ▸ delete_deleted consistent table hit
      have untouched : ∀ row ∈ rows, row.name ∈ names next → row.table = table → hit row = false := by
        intro row member stays chosen
        by_contra hits
        exact deleted.outside stays
          (mem_victims.mpr ⟨row, member, rfl, chosen, by simpa using hits⟩)
      unfold Spares
      split
      · rename_i same
        cases same
        intro text member named
        exact untouched text member (named ▸ there) (congrArg Prod.fst named)
      · rename_i same
        cases same
        intro text member named place here found
        obtain ⟨later, stays, called⟩ := List.mem_map.mp there
        obtain ⟨source, listed, _, kept⟩ := deleted.versions later stays
        obtain rfl : source = text := same_named consistent.distinct listed member
          (kept.name.symm.trans (called.trans named.symm))
        have kind : source.table = .messages := congrArg Prod.fst named
        have key : owned .conversationId .conversations ∈ schema.foreignKeys source.table := by
          rw [kind]
          exact List.mem_cons_self
        rw [← kept.cascades key rfl] at found
        have stands := whole.resolved later stays _ (kept.sameTable ▸ key) _ found
        refine untouched place here stands ?_
        obtain ⟨_, _, same⟩ := Option.map_eq_some_iff.mp found
        exact (congrArg Prod.fst same).symm
      · trivial

/-- As long as its message is spared an edit is there, and so is the message. -/
theorem edited_message_stays (consistent : Consistent schema rows) (member : row ∈ rows)
    (edit : row.table = .messageEdits) {message : Uuid} (about : row.ref .messageId = some message)
    {statements : List (Statement Table Column Uuid Data)}
    (reached : run perform rows statements = some final)
    (meets : Meets perform (Spares message) rows statements) :
    (Table.messages, message) ∈ names final := by
  have strong := guarded_invariant (fun rows => Consistent schema rows ∧
      ∃ later ∈ rows, Kept schema row later ∧ later.ref .messageId = some message)
    (fun rows statement next known spares taken => by
      obtain ⟨whole, later, here, kept, same⟩ := known
      have kind : later.table = .messageEdits := kept.sameTable.trans edit
      have there := step_spares whole here kind same spares taken
      obtain ⟨last, present, version, _⟩ := execute_keeps whole taken here
        (by rw [kind]; exact ⟨rfl, rfl⟩) (by
          intro key listed cascading target found
          rw [kind] at listed
          simp only [schema, foreignKeys, List.mem_cons, List.not_mem_nil, or_false] at listed
          rcases listed with rfl | rfl
          · rw [edit_target same] at found
            exact Option.mem_some.mp found ▸ there
          · cases cascading)
      have still := (version.cascades (edit_key kind) rfl).trans (edit_target same)
      simp only [Row.target, owned, Option.map_eq_some_iff, Prod.mk.injEq, true_and,
        exists_eq_right] at still
      exact ⟨execute_consistent taken, last, present, kept.trans version, still⟩)
    reached meets ⟨consistent, row, member, Kept.refl row, about⟩
  obtain ⟨whole, later, here, kept, same⟩ := strong
  exact edit_names whole here (kept.sameTable.trans edit) same

/-- In the state that the statements lead to, the record of an edit stands as it was,
and still names its editor exactly if that user was there all the while. -/
def Stands (rows : Database Data) (row : Row Table Column Uuid Data)
    (statements : List (Statement Table Column Uuid Data)) (visited : Database Data) : Prop :=
  ∃ later ∈ visited, later.name = row.name ∧ later.data = row.data ∧
    (∀ column, column ≠ .editedBy → later.ref column = row.ref column) ∧
    ∀ user, row.ref .editedBy = some user →
      (later.ref .editedBy = some user ↔
        ∀ passed, Visits perform rows statements passed → (Table.users, user) ∈ names passed)

theorem edit_stands (consistent : Consistent schema rows) (member : row ∈ rows)
    (edit : row.table = .messageEdits) {message : Uuid} (about : row.ref .messageId = some message)
    {statements : List (Statement Table Column Uuid Data)}
    (reached : run perform rows statements = some final)
    (meets : Meets perform (Spares message) rows statements) : Stands rows row statements final := by
  have keys : schema.foreignKeys row.table =
      [owned .messageId .messages, loose .editedBy .users] := by
    rw [edit]
    rfl
  obtain ⟨later, there, kept, iff⟩ := run_keeps consistent reached member
    (by rw [edit]; exact ⟨rfl, rfl⟩) (by
      rintro visited ⟨before, after, rfl, arrives⟩ key listed cascading target found
      rw [keys, List.mem_cons, List.mem_singleton] at listed
      rcases listed with rfl | rfl
      · rw [edit_target about] at found
        exact Option.mem_some.mp found ▸ edited_message_stays consistent member edit about arrives
          ((meets_append_iff arrives).mp meets).1
      · cases cascading)
  refine ⟨later, there, kept.name, kept.data, fun column other => ?_, fun user made => ?_⟩
  · rcases kept.refs column with same | ⟨_, key, listed, named, unset⟩
    · exact same
    · rw [keys, List.mem_cons, List.mem_singleton] at listed
      rcases listed with rfl | rfl
      · cases unset
      · exact absurd named.symm other
  · have listed : loose .editedBy .users ∈ schema.foreignKeys row.table := by simp [keys]
    have target : row.target (loose .editedBy .users) = some (.users, user) := by
      simp only [Row.target, loose, made, Option.map_some]
    rw [← iff _ listed (.users, user) target, target]
    simp [Row.target, loose, Option.map_eq_some_iff]

/-- Whatever statements the role executes: the record of an edit stands in every
state of a run exactly when no statement deletes its message, or the conversation
that the message is in at that moment. -/
theorem edits_last_iff (consistent : Consistent schema rows)
    {statements : List (Statement Table Column Uuid Data)}
    (ran : run perform rows statements = some final) (member : row ∈ rows)
    (edit : row.table = .messageEdits) {message : Uuid} (about : row.ref .messageId = some message) :
    (∀ before after visited, statements = before ++ after →
        run perform rows before = some visited → Stands rows row before visited) ↔
      Meets perform (Spares message) rows statements := by
  constructor
  · intro lasts
    apply meets_of_visits
    rintro before statement after rfl visited reached
    obtain ⟨next, taken, _⟩ := (run_cons_iff _ _ _ _).mp (run_after ran reached)
    have whole := run_invariant (Consistent schema)
      (fun _ _ _ _ taken => execute_consistent taken) reached consistent
    obtain ⟨later, here, named, _, same, _⟩ := lasts (before ++ [statement]) after next (by simp)
      ((run_append_iff _ _ _ _).mpr ⟨visited, reached, (run_single _ _ _).mpr taken⟩)
    have kind : later.table = .messageEdits := (congrArg Prod.fst named).trans edit
    have still : later.ref .messageId = some message := (same .messageId (by decide)).trans about
    exact step_spared whole taken (edit_names (execute_consistent taken) here kind still)
  · rintro meets before after visited rfl reached
    exact edit_stands consistent member edit about reached ((meets_append_iff reached).mp meets).1

end Edits

def correction : Row Table Column Uuid String where
  table := .messageEdits
  id := 3
  ref := fun column =>
    if column = .messageId then some 9 else if column = .editedBy then some 1 else none
  data := "helo"

def registration : Row Table Column Uuid String where
  table := .auditLogs
  id := 7
  ref := fun column => if column = .actorId then some 1 else none
  data := "user.registered"

/-- User 1 has edited message 9 in conversation 5, and that is on record. -/
def smallChat : Database String :=
  [correction, registration,
    { table := .users, id := 1, ref := fun _ => none, data := "Ann" },
    { table := .conversations, id := 5, ref := fun _ => none, data := "Tea" },
    { table := .messages, id := 9, data := "hello"
      ref := fun column =>
        if column = .conversationId then some 5 else if column = .senderId then some 1 else none }]

def dropUsers : List (Statement Table Column Uuid String) := [.delete .users fun _ => true]

theorem small_chat_consistent : Consistent schema smallChat := by decide

/-- The entry outlives its user and no longer names him. -/
theorem dropped_user_unnamed : ∃ final, run perform smallChat dropUsers = some final ∧
    ∃ entry ∈ final, entry.name = (Table.auditLogs, 7) ∧ entry.data = "user.registered" ∧
      entry.ref .actorId ≠ some 1 := by
  have dropped : ((run perform smallChat dropUsers).any fun rows =>
      decide ((Table.users, 1) ∉ names rows)) = true := by decide
  obtain ⟨final, ran, gone⟩ := (Option.any_eq_true _ _).mp dropped
  obtain ⟨entry, there, named, same, _, signed⟩ := evidence_lasts small_chat_consistent ran
    (by simp [smallChat] : registration ∈ smallChat) (Or.inl rfl)
  refine ⟨final, ran, entry, there, named, same, fun signs => of_decide_eq_true gone ?_⟩
  exact (signed 1 rfl).mp signs final ⟨dropUsers, [], rfl, ran⟩

/-- The edit outlives whoever made it, and no longer names him. -/
theorem dropped_user_edits : ∃ final, run perform smallChat dropUsers = some final ∧
    (∀ before after visited, dropUsers = before ++ after →
      run perform smallChat before = some visited → Stands smallChat correction before visited) ∧
    ∃ later ∈ final, later.name = correction.name ∧ later.ref .editedBy ≠ some 1 := by
  have dropped : ((run perform smallChat dropUsers).any fun rows =>
      decide ((Table.users, 1) ∉ names rows)) = true := by decide
  obtain ⟨final, ran, gone⟩ := (Option.any_eq_true _ _).mp dropped
  have lasts := (edits_last_iff small_chat_consistent ran
    (by simp [smallChat] : correction ∈ smallChat) rfl rfl).mpr ⟨trivial, fun _ _ => trivial⟩
  obtain ⟨later, there, named, _, _, signed⟩ := lasts dropUsers [] final (by simp) ran
  refine ⟨final, ran, lasts, later, there, named, fun signs => of_decide_eq_true gone ?_⟩
  exact (signed 1 rfl).mp signs final ⟨dropUsers, [], rfl, ran⟩

end RunnerupChat.DatabaseRole
