import RunnerupChat.DisplayedMessages
import RunnerupChat.MessagePages

/-!
What the message store answers, as `ChatPage` relies on it: the stored messages
of one run form one archive, and every message and page served at any time of
that run agrees with it.
-/

namespace RunnerupChat.ServedPages

open Accounts (Uuid)
open DisplayedMessages MessagePages MessageStore Runs

/-- The conversation and the number of a stored message. -/
def archiveOf (store : MessageStore.State) : Archive := fun id =>
  ((store.messages.find? fun row => row.id == id).map fun row =>
    (row.conversationId, row.seq)).getD (0, 0)

section Stored
variable {searchMatches : String → String → Bool} {store final : MessageStore.State}
  {conversation : Uuid}

theorem archive_stored (inv : Inv store) {row : Message} (stored : row ∈ store.messages) :
    archiveOf store row.id = (row.conversationId, row.seq) := by
  rw [archiveOf, UniqueKeys.find_member Message.id inv.unique.distinct stored]
  rfl

/-- The keys of a conversation only grow. -/
theorem keys_run {actions : List MessageStore.Action} (inv : Inv store)
    (ran : run (MessageStore.step searchMatches) store actions = some final)
    (conversation : Uuid) :
    ∃ added, keysOf final conversation = keysOf store conversation ++ added := by
  apply run_keeps (fun later => ∃ added,
    keysOf later conversation = keysOf store conversation ++ added) ?_ inv
    ⟨[], (List.append_nil _).symm⟩ ran
  rintro before after action inv ⟨added, grown⟩ effect
  obtain ⟨more, longer, _⟩ := keys_step conversation inv effect
  refine ⟨added ++ more, ?_⟩
  rw [longer, grown, List.append_assoc]

/-- A message keeps its conversation and its number. -/
theorem stored_recorded {actions : List MessageStore.Action} (inv : Inv store)
    (ran : run (MessageStore.step searchMatches) store actions = some final)
    {row : Message} (stored : row ∈ store.messages) (attachments : List Attachment) :
    Recorded (archiveOf final) (serialize row attachments) := by
  obtain ⟨added, grown⟩ := keys_run inv ran row.conversationId
  have listed : row ∈ messagesOf store row.conversationId :=
    List.mem_filter.mpr ⟨stored, beq_self_eq_true row.conversationId⟩
  have kept : rowKey row ∈ keysOf final row.conversationId := by
    rw [grown]
    exact List.mem_append_left _ (List.mem_map_of_mem listed)
  obtain ⟨later, held, same⟩ := List.mem_map.mp kept
  obtain ⟨present, inside⟩ := List.mem_filter.mp held
  have ids : later.id = row.id := congrArg Prod.fst same
  have seqs : later.seq = row.seq := congrArg Prod.snd same
  have ended : Inv final := run_invariant Inv step_inv ran inv
  have archived := archive_stored ended present
  rw [ids, seqs, beq_iff_eq.mp inside] at archived
  exact archived

end Stored

section Served
variable {searchMatches : String → String → Bool} {actions : List MessageStore.Action}
  {visited final : MessageStore.State}

/-- What reaches the page was answered, or published, from the store as it was
at some time of the run. -/
def Served (searchMatches : String → String → Bool) (actions : List MessageStore.Action) :
    ChatPage.Action → Prop
  | .opened id page => ∃ visited limit,
      Visits (MessageStore.step searchMatches) MessageStore.initial actions visited ∧
        page = (listRows visited id none none limit).map (serialize · [])
  | .loadedOlder id before page => ∃ visited limit,
      Visits (MessageStore.step searchMatches) MessageStore.initial actions visited ∧
        page = (listRows visited id (some before) none limit).map (serialize · [])
  | .created message | .answered _ message => ∃ visited row attachments,
      Visits (MessageStore.step searchMatches) MessageStore.initial actions visited ∧
        row ∈ visited.messages ∧ message = serialize row attachments
  | _ => True

/-- A page that `list_messages` answers at some time of a run, newest first, is
a page of its conversation. -/
theorem served_page
    (ran : run (MessageStore.step searchMatches) MessageStore.initial actions = some final)
    (visits : Visits (MessageStore.step searchMatches) MessageStore.initial actions visited)
    (conversation : Uuid) (before : Option Nat) (limit : Nat) :
    PageOf (archiveOf final) conversation
      ((listRows visited conversation before none limit).map (serialize · [])) := by
  obtain ⟨earlier, later, reached, onward⟩ := visits_between ran visits
  obtain ⟨inv, numbered⟩ := run_numbered reached conversation
  have page := backward_page inv numbered before limit
  have listed : ∀ row ∈ listRows visited conversation before none limit,
      row ∈ visited.messages ∧ row.conversationId = conversation := by
    intro row member
    have inside := List.mem_of_mem_filter (page.inside row member)
    exact ⟨List.mem_of_mem_filter inside, beq_iff_eq.mp (List.mem_filter.mp inside).2⟩
  constructor
  case recorded =>
    intro message member
    obtain ⟨row, answered, rfl⟩ := List.mem_map.mp member
    exact stored_recorded inv onward (listed row answered).1 []
  case inside =>
    intro message member
    obtain ⟨row, answered, rfl⟩ := List.mem_map.mp member
    exact (listed row answered).2
  case descending =>
    rw [List.pairwise_map]
    exact page.sorted

/-- Served from one run of the store, what reaches the page comes from one archive. -/
theorem served_genuine
    (ran : run (MessageStore.step searchMatches) MessageStore.initial actions = some final)
    {action : ChatPage.Action} (served : Served searchMatches actions action) :
    Genuine (archiveOf final) action := by
  have recorded : ∀ message : MessageOut, (∃ visited row attachments,
      Visits (MessageStore.step searchMatches) MessageStore.initial actions visited ∧
        row ∈ visited.messages ∧ message = serialize row attachments) →
      Recorded (archiveOf final) message := by
    rintro message ⟨visited, row, attachments, visits, stored, rfl⟩
    obtain ⟨earlier, later, reached, onward⟩ := visits_between ran visits
    exact stored_recorded (run_numbered reached row.conversationId).1 onward stored attachments
  cases action with
  | opened id page =>
      obtain ⟨visited, limit, visits, rfl⟩ := served
      exact served_page ran visits id none limit
  | loadedOlder id before page =>
      obtain ⟨visited, limit, visits, rfl⟩ := served
      exact served_page ran visits id (some before) limit
  | created message | answered index message => exact recorded message served
  | _ => trivial

end Served

end RunnerupChat.ServedPages
