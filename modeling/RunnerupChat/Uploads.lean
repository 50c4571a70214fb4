import RunnerupChat.Authz
import RunnerupChat.Storage
import RunnerupChat.Runs

/-!
`api/v1/uploads.py`: an attachment from its upload grant to its download, while
its owner writes to storage with the presigned URL. The URL may be used again
until it expires, and each use replaces the object.
-/

namespace RunnerupChat.Uploads

open Accounts Storage
open MessageStore (AttachmentState)

structure Attachment extends toStored : Authz.Attachment where
  declaredMime : Option String
  scanVerdict : Option String := none
  finalizedAt : Option Time := none
  deriving DecidableEq

structure UploadRequest where
  conversationId : Uuid
  filename : String
  mime : String
  size : Nat

def UploadRequest.isValid (payload : UploadRequest) : Bool :=
  decide (1 ≤ payload.filename.length ∧ payload.filename.length ≤ 255 ∧
    3 ≤ payload.mime.length ∧ payload.mime.length ≤ 100 ∧ 0 < payload.size)

/-- A presigned URL for `put_object`. -/
structure Grant where
  storageKey : String
  expiresAt : Time

inductive Answer where
  | ready
  | refused (error : AppError)
  /-- An exception that is no `AppError`. -/
  | failed
  deriving DecidableEq

/-- Where a call of `finalize_upload` stands. -/
inductive Stage where
  | loaded
  /-- `head_object` has answered. -/
  | sized (size : Nat)
  /-- `probe_object` has returned. -/
  | probed (size : Nat) (detected : Option String)
  /-- The rejection is committed. -/
  | deleting
  | answered (answer : Answer)
  deriving DecidableEq

/-- A call with the copy of the row that it has read. -/
structure Call where
  attachment : Attachment
  stage : Stage

structure State where
  now : Time := 0
  rows : List Attachment := []
  objects : String → Option (List UInt8) := fun _ => none
  grants : List Grant := []
  calls : List Call := []

inductive Action where
  | advance (pause : Nat)
  /-- A request of a user who may send to the conversation. -/
  | request (owner : Uuid) (payload : UploadRequest) (id : Uuid) (key : String)
  | put (key : String) (bytes : List UInt8)
  | finalize (id owner : Uuid)
  | proceed (index : Nat)
  /-- The call is broken off. -/
  | stop (index : Nat)
  | send (id owner message conversation : Uuid)

/-- An `UPDATE` writes the columns that differ from the copy that was read. -/
def overlay (loaded changed row : Attachment) : Attachment :=
  { row with
    byteSize := if changed.byteSize = loaded.byteSize then row.byteSize else changed.byteSize
    detectedMime :=
      if changed.detectedMime = loaded.detectedMime then row.detectedMime
      else changed.detectedMime
    scanVerdict :=
      if changed.scanVerdict = loaded.scanVerdict then row.scanVerdict else changed.scanVerdict
    state := if changed.state = loaded.state then row.state else changed.state
    finalizedAt :=
      if changed.finalizedAt = loaded.finalizedAt then row.finalizedAt else changed.finalizedAt }

def rejectedCopy (loaded : Attachment) : Attachment :=
  { loaded with state := .rejected, scanVerdict := some "unrecognized_content" }

def mismatch (declared : Option String) (detected : String) : String :=
  "declared_" ++ declared.getD "None" ++ "_actual_" ++ detected

def readyCopy (loaded : Attachment) (size : Nat) (mime : String) (now : Time) : Attachment :=
  { loaded with
    scanVerdict :=
      if loaded.declaredMime = some mime then loaded.scanVerdict
      else some (mismatch loaded.declaredMime mime)
    byteSize := size
    detectedMime := mime
    state := .ready
    finalizedAt := some now }

/-- The row of the copy, changed. -/
def rewrite (loaded changed row : Attachment) : Attachment :=
  if row.id = loaded.id then overlay loaded changed row else row

section Machine
variable (characters : Characters) (detect : List UInt8 → Option (Option String))

def newAttachment (owner : Uuid) (payload : UploadRequest) (id : Uuid) (key : String) :
    Attachment :=
  { id := id, ownerId := owner, conversationId := some payload.conversationId, messageId := none
    displayName := sanitizeFilename characters payload.filename
    -- provisional; replaced by the observed size
    byteSize := payload.size
    detectedMime := "application/octet-stream", width := none, height := none
    durationMs := none, state := .pending, storageKey := key
    declaredMime := some payload.mime }

/-- The ids are random, so that neither is in use. -/
def request (state : State) (owner : Uuid) (payload : UploadRequest) (id : Uuid)
    (key : String) : Option State :=
  if payload.isValid = true ∧
      createUploadGrant characters payload.filename payload.mime payload.size = .ok () ∧
      ∀ row ∈ state.rows, row.id ≠ id ∧ row.storageKey ≠ key then
    some { state with
      rows := state.rows ++ [newAttachment characters owner payload id key]
      grants := state.grants ++ [⟨key, state.now + uploadUrlTtl⟩] }
  else none

def put (state : State) (key : String) (bytes : List UInt8) : Option State :=
  if state.grants.any fun grant => grant.storageKey == key && decide (state.now ≤ grant.expiresAt)
  then some { state with objects := Function.update state.objects key (some bytes) }
  else none

/-- The first statement of `finalize_upload`. -/
def finalize (state : State) (id owner : Uuid) : Option State :=
  match state.rows.find? fun row => row.id == id && row.ownerId == owner with
  | none => some state
  | some row =>
      let stage : Stage := if row.state = .ready then .answered .ready else .loaded
      some { state with calls := state.calls ++ [⟨row, stage⟩] }

def enter (state : State) (index : Nat) (call : Call) (stage : Stage) : State :=
  { state with calls := state.calls.set index { call with stage := stage } }

def commit (state : State) (loaded changed : Attachment) : State :=
  { state with rows := state.rows.map (rewrite loaded changed) }

def deleteObject (state : State) (key : String) : State :=
  { state with objects := Function.update state.objects key none }

def proceed (state : State) (index : Nat) (call : Call) : Option State :=
  let loaded := call.attachment
  let key := loaded.storageKey
  match call.stage with
  | .loaded => match state.objects key with
      -- `head_object` raises where there is no object
      | none => some (enter state index call (.answered .failed))
      | some bytes =>
          if maxUploadBytes < bytes.length then
            some (enter state index call (.answered (.refused (.validationFailed "file_too_large"))))
          else some (enter state index call (.sized bytes.length))
  | .sized size => match state.objects key with
      -- the range cannot be satisfied where there is no first byte
      | none | some [] => some (enter state index call (.answered .failed))
      | some bytes => match detect (leading bytes) with
          | none => some (enter state index call (.answered .failed))
          | some detected => some (enter state index call (.probed size detected))
  | .probed _ none =>
      some (enter (commit state loaded (rejectedCopy loaded)) index call .deleting)
  | .probed size (some mime) =>
      -- `CHECK (byte_size > 0)`
      if size = 0 then some (enter state index call (.answered .failed))
      else some (enter (commit state loaded (readyCopy loaded size mime state.now)) index call
        (.answered .ready))
  | .deleting =>
      some (enter (deleteObject state key) index call
        (.answered (.refused (.validationFailed "file_type_not_allowed"))))
  | .answered _ => none

def stop (state : State) (index : Nat) (call : Call) : Option State :=
  match call.stage with
  | .answered _ => none
  | .loaded | .sized _ | .probed _ _ | .deleting =>
      some (enter state index call (.answered .failed))

/-- `send_message` binds a finished upload of its sender. -/
def bound (owner message conversation : Uuid) (row : Attachment) : Attachment :=
  if row.ownerId = owner ∧ row.messageId = none ∧ row.state = .ready then
    { row with messageId := some message, conversationId := some conversation }
  else row

def send (state : State) (id owner message conversation : Uuid) : State :=
  { state with rows := state.rows.map fun row =>
    if row.id = id then bound owner message conversation row else row }

def step (state : State) : Action → Option State
  | .advance pause => some { state with now := state.now + pause }
  | .request owner payload id key => request characters state owner payload id key
  | .put key bytes => put state key bytes
  | .finalize id owner => finalize state id owner
  | .proceed index => (state.calls[index]?).bind fun call => proceed detect state index call
  | .stop index => (state.calls[index]?).bind fun call => stop state index call
  | .send id owner message conversation => some (send state id owner message conversation)

end Machine

/-- What a download URL is for. -/
structure Served where
  storageKey : String
  name : String
  mime : String
  size : Nat

/-- `download_url`; `mayRead` is what `resolve_access` says of a conversation. -/
def downloadUrl (state : State) (id principal : Uuid) (mayRead : Uuid → Bool) : Option Served :=
  (state.rows.find? fun row => row.id == id).bind fun row =>
    let served : Served := ⟨row.storageKey, row.displayName, row.detectedMime, row.byteSize⟩
    if row.state ≠ .ready then none
    else match row.conversationId with
      | none => if row.ownerId ≠ principal then none else some served
      | some conversation => if mayRead conversation then some served else none

section Conditions
variable (detect : List UInt8 → Option (Option String))

def Stage.Open : Stage → Prop
  | .answered _ => False
  | .loaded | .sized _ | .probed _ _ | .deleting => True

/-- Between `head_object` and the commit. -/
def Stage.Probing : Stage → Prop
  | .sized _ | .probed _ _ => True
  | .loaded | .deleting | .answered _ => False

/-- The bytes are of this size and begin like this type. -/
def Matches (bytes : List UInt8) (size : Nat) (mime : String) : Prop :=
  bytes.length = size ∧ carries mime (leading bytes) = true

def Holds (state : State) (key : String) (size : Nat) (mime : String) : Prop :=
  ∃ bytes, state.objects key = some bytes ∧ Matches bytes size mime

/-- No type is found for the object, if there is one. -/
def Unrecognised (state : State) (key : String) : Prop :=
  ∀ bytes mime, state.objects key = some bytes → detect (leading bytes) ≠ some (some mime)

/-- While a call is probing it, an object is replaced only by one of the same
size and leading bytes, and a finished upload only by one of its size and type;
no object that is recognised is read for a rejected upload. -/
def Steady (state : State) : Action → Prop
  | .put key bytes =>
      (∀ call ∈ state.calls, call.attachment.storageKey = key → call.stage.Probing →
        ∃ old, state.objects key = some old ∧ bytes.length = old.length ∧
          leading bytes = leading old) ∧
      ∀ row ∈ state.rows, row.storageKey = key → row.state = .ready →
        Matches bytes row.byteSize row.detectedMime
  | .proceed index => ∀ call size, state.calls[index]? = some call → call.stage = .sized size →
      ∀ row ∈ state.rows, row.id = call.attachment.id → row.state = .rejected →
        Unrecognised detect state row.storageKey
  | .advance _ | .request _ _ _ _ | .finalize _ _ | .stop _ | .send _ _ _ _ => True

/-- What holds between a row and a call about it. -/
def StageOk (state : State) (row : Attachment) : Stage → Prop
  | .loaded | .answered _ => True
  | .sized size => ∀ bytes, state.objects row.storageKey = some bytes → bytes.length = size
  | .probed size (some mime) => Holds state row.storageKey size mime ∧ row.state ≠ .rejected
  | .probed _ none => ∀ bytes, state.objects row.storageKey = some bytes →
      detect (leading bytes) = some none
  | .deleting => row.state = .rejected

/-- An unfinished row is as the call has read it; a rejected one stays so. -/
structure CopyOk (row loaded : Attachment) : Prop where
  unfinished : loaded.state ≠ .ready
  same : row.state ≠ .ready →
    row.byteSize = loaded.byteSize ∧ row.detectedMime = loaded.detectedMime
  rejected : loaded.state = .rejected → row.state = .rejected

structure Inv (state : State) : Prop where
  single : ∀ row ∈ state.rows, ∀ other ∈ state.rows,
    row.id = other.id ∨ row.storageKey = other.storageKey → row = other
  known : ∀ call ∈ state.calls, ∃ row ∈ state.rows, row.id = call.attachment.id ∧
    row.storageKey = call.attachment.storageKey
  copies : ∀ call ∈ state.calls, call.stage.Open → ∀ row ∈ state.rows,
    row.id = call.attachment.id → CopyOk row call.attachment
  ready : ∀ row ∈ state.rows, row.state = .ready →
    Holds state row.storageKey row.byteSize row.detectedMime
  stages : ∀ call ∈ state.calls, ∀ row ∈ state.rows, row.id = call.attachment.id →
    StageOk detect state row call.stage

end Conditions

section Invariant
variable {characters : Characters} {detect : List UInt8 → Option (Option String)}
  {state next : State} {index : Nat} {call : Call}

/-- The row of a call has its key. -/
theorem known_key (inv : Inv detect state) (member : call ∈ state.calls) {row : Attachment}
    (listed : row ∈ state.rows) (about : row.id = call.attachment.id) :
    row.storageKey = call.attachment.storageKey := by
  obtain ⟨other, found, id, key⟩ := inv.known call member
  rw [inv.single row listed other found (Or.inl (about.trans id.symm))]
  exact key

theorem known_id (inv : Inv detect state) (member : call ∈ state.calls) {row : Attachment}
    (listed : row ∈ state.rows) (key : row.storageKey = call.attachment.storageKey) :
    row.id = call.attachment.id := by
  obtain ⟨other, found, id, same⟩ := inv.known call member
  rw [inv.single row listed other found (Or.inr (key.trans same.symm))]
  exact id

/-- A call goes on to a stage that fits. -/
theorem enter_inv (inv : Inv detect state) (found : state.calls[index]? = some call)
    {stage : Stage} (onward : stage.Open → call.stage.Open)
    (fits : ∀ row ∈ state.rows, row.id = call.attachment.id → StageOk detect state row stage) :
    Inv detect (enter state index call stage) := by
  have member := List.mem_of_getElem? found
  have each : ∀ other ∈ (enter state index call stage).calls,
      other ∈ state.calls ∨ other = { call with stage := stage } :=
    fun other listed => List.mem_or_eq_of_mem_set listed
  refine ⟨inv.single, fun other listed => ?_, fun other listed open_ row row_listed about => ?_,
    inv.ready, fun other listed row row_listed about => ?_⟩
  · rcases each other listed with old | rfl
    · exact inv.known other old
    · exact inv.known call member
  · rcases each other listed with old | rfl
    · exact inv.copies other old open_ row row_listed about
    · exact inv.copies call member (onward open_) row row_listed about
  · rcases each other listed with old | rfl
    · exact inv.stages other old row row_listed about
    · exact fits row row_listed about

/-- A rewrite of the rows that keeps their ids and keys. -/
theorem map_inv (inv : Inv detect state) (change : Attachment → Attachment)
    (ids : ∀ row, (change row).id = row.id)
    (keys : ∀ row, (change row).storageKey = row.storageKey)
    (copies : ∀ call ∈ state.calls, call.stage.Open → ∀ row ∈ state.rows,
      row.id = call.attachment.id → CopyOk (change row) call.attachment)
    (ready : ∀ row ∈ state.rows, (change row).state = .ready →
      Holds state row.storageKey (change row).byteSize (change row).detectedMime)
    (stages : ∀ call ∈ state.calls, ∀ row ∈ state.rows, row.id = call.attachment.id →
      StageOk detect state (change row) call.stage) :
    Inv detect { state with rows := state.rows.map change } where
  single := by
    intro row member other listed same
    obtain ⟨first, found, rfl⟩ := List.mem_map.mp member
    obtain ⟨second, also, rfl⟩ := List.mem_map.mp listed
    rw [ids, ids, keys, keys] at same
    rw [inv.single first found second also same]
  known := by
    intro call member
    obtain ⟨row, listed, id, key⟩ := inv.known call member
    exact ⟨change row, List.mem_map_of_mem listed, (ids row).trans id, (keys row).trans key⟩
  copies := by
    intro call member open_ row listed about
    obtain ⟨before, found, rfl⟩ := List.mem_map.mp listed
    exact copies call member open_ before found ((ids before).symm.trans about)
  ready := by
    intro row listed finished
    obtain ⟨before, found, rfl⟩ := List.mem_map.mp listed
    rw [keys]
    exact ready before found finished
  stages := by
    intro call member row listed about
    obtain ⟨before, found, rfl⟩ := List.mem_map.mp listed
    exact stages call member before found ((ids before).symm.trans about)

/-- A stage fits as long as the object and the state of the row are the same. -/
theorem stage_moved {other : State} {row changed : Attachment} {stage : Stage}
    (ok : StageOk detect state row stage)
    (object : other.objects changed.storageKey = state.objects row.storageKey)
    (same : changed.state = row.state) : StageOk detect other changed stage := by
  cases stage with
  | loaded | answered => trivial
  | sized size =>
      intro bytes held
      exact ok bytes (object ▸ held)
  | probed size detected => cases detected with
    | some mime =>
        obtain ⟨⟨bytes, held, fits⟩, accepted⟩ := ok
        exact ⟨⟨bytes, object.trans held, fits⟩, same ▸ accepted⟩
    | none =>
        intro bytes held
        exact ok bytes (object ▸ held)
  | deleting => exact same.trans ok

theorem rewrite_id (loaded changed row : Attachment) :
    (rewrite loaded changed row).id = row.id := by
  unfold rewrite
  split <;> rfl

theorem rewrite_key (loaded changed row : Attachment) :
    (rewrite loaded changed row).storageKey = row.storageKey := by
  unfold rewrite
  split <;> rfl

/-- What an update leaves in a column. -/
theorem column_holds {Column : Type} [DecidableEq Column] (good : Column → Prop)
    {changed loaded current : Column} (fresh : good changed)
    (stale : changed = loaded → good current) :
    good (if changed = loaded then current else changed) := by
  by_cases same : changed = loaded
  · rw [if_pos same]
    exact stale same
  · rw [if_neg same]
    exact fresh

theorem rejected_state {row loaded : Attachment} (copy : CopyOk row loaded) :
    (overlay loaded (rejectedCopy loaded) row).state = .rejected :=
  column_holds (· = AttachmentState.rejected) rfl fun same => copy.rejected same.symm

/-- A rejection leaves what is said about the object. -/
theorem rejected_columns (loaded row : Attachment) :
    (overlay loaded (rejectedCopy loaded) row).byteSize = row.byteSize ∧
      (overlay loaded (rejectedCopy loaded) row).detectedMime = row.detectedMime := by
  simp [overlay, rejectedCopy]

theorem ready_state {row loaded : Attachment} (copy : CopyOk row loaded) (size : Nat)
    (mime : String) (now : Time) :
    (overlay loaded (readyCopy loaded size mime now) row).state = .ready := by
  simp only [overlay, readyCopy]
  exact if_neg (Ne.symm copy.unfinished)

/-- A finished row says what the object is, also where the update leaves the
columns of an earlier one. -/
theorem ready_holds {row loaded : Attachment} (copy : CopyOk row loaded) {size : Nat}
    {mime : String} (now : Time)
    (finished : row.state = .ready → Holds state row.storageKey row.byteSize row.detectedMime)
    (holds : Holds state row.storageKey size mime) :
    Holds state row.storageKey (overlay loaded (readyCopy loaded size mime now) row).byteSize
      (overlay loaded (readyCopy loaded size mime now) row).detectedMime := by
  obtain ⟨bytes, held, length, carried⟩ := holds
  refine ⟨bytes, held, ?_, ?_⟩
  · refine column_holds (bytes.length = ·) length fun (unchanged : size = loaded.byteSize) => ?_
    by_cases done : row.state = .ready
    · obtain ⟨other, also, same, _⟩ := finished done
      rw [Option.some.inj (held.symm.trans also)]
      exact same
    · rw [(copy.same done).1, length, unchanged]
  · refine column_holds (fun name => carries name (leading bytes) = true) carried
      fun (unchanged : mime = loaded.detectedMime) => ?_
    by_cases done : row.state = .ready
    · obtain ⟨other, also, _, same⟩ := finished done
      rw [Option.some.inj (held.symm.trans also)]
      exact same
    · rw [(copy.same done).2, ← unchanged]
      exact carried

/-- An object for which no type is found is not one of a known type. -/
theorem barren_contradicts (correct : Correct detect) {key : String} {size : Nat} {mime : String}
    (holds : Holds state key size mime)
    (barren : ∀ bytes, state.objects key = some bytes → detect (leading bytes) = some none) :
    False := by
  obtain ⟨bytes, held, _, carried⟩ := holds
  rw [correct.missing (leading bytes) (barren bytes held) mime] at carried
  cases carried

/-- A commit changes the row of its call alone. -/
theorem commit_inv (inv : Inv detect state) {loaded changed : Attachment}
    (copies : ∀ call ∈ state.calls, call.stage.Open → ∀ row ∈ state.rows, row.id = loaded.id →
      CopyOk row call.attachment → CopyOk (overlay loaded changed row) call.attachment)
    (ready : ∀ row ∈ state.rows, row.id = loaded.id →
      (overlay loaded changed row).state = .ready → Holds state row.storageKey
        (overlay loaded changed row).byteSize (overlay loaded changed row).detectedMime)
    (stages : ∀ call ∈ state.calls, ∀ row ∈ state.rows, row.id = loaded.id →
      StageOk detect state row call.stage →
      StageOk detect state (overlay loaded changed row) call.stage) :
    Inv detect (commit state loaded changed) := by
  refine map_inv inv _ (rewrite_id _ _) (rewrite_key _ _)
    (fun call member still row listed about => ?_) (fun row listed finished => ?_)
    fun call member row listed about => ?_
  · have copy := inv.copies call member still row listed about
    unfold rewrite
    split
    · rename_i own
      exact copies call member still row listed own copy
    · exact copy
  · unfold rewrite at finished ⊢
    split at finished
    · rename_i own
      rw [if_pos own]
      exact ready row listed own finished
    · rename_i apart
      rw [if_neg apart]
      exact inv.ready row listed finished
  · have fits := inv.stages call member row listed about
    unfold rewrite
    split
    · rename_i own
      exact stages call member row listed own fits
    · exact fits

/-- The rejection of a call is committed. -/
theorem reject_inv (correct : Correct detect) (inv : Inv detect state) (member : call ∈ state.calls)
    {size : Nat} (stage : call.stage = .probed size none) :
    Inv detect (commit state call.attachment (rejectedCopy call.attachment)) := by
  have barren : ∀ row ∈ state.rows, row.id = call.attachment.id → ∀ bytes,
      state.objects row.storageKey = some bytes → detect (leading bytes) = some none := by
    intro row listed own
    have fits := inv.stages call member row listed own
    rw [stage] at fits
    exact fits
  have rejected : ∀ row ∈ state.rows, row.id = call.attachment.id →
      (overlay call.attachment (rejectedCopy call.attachment) row).state = .rejected :=
    fun row listed own => rejected_state (inv.copies call member (stage ▸ trivial) row listed own)
  refine commit_inv inv (fun other _ _ row listed own copy => ?_)
    (fun row listed own finished => ?_) fun other _ row listed own fits => ?_
  · refine ⟨copy.unfinished, fun _ => ?_, fun _ => rejected row listed own⟩
    rw [(rejected_columns _ row).1, (rejected_columns _ row).2]
    exact copy.same fun done =>
      barren_contradicts correct (inv.ready row listed done) (barren row listed own)
  · rw [rejected row listed own] at finished
    cases finished
  · cases reached : other.stage with
    | loaded | answered => trivial
    | sized size =>
        rw [reached] at fits
        exact fits
    | probed size detected => cases detected with
      | some mime =>
          rw [reached] at fits
          exact (barren_contradicts correct fits.1 (barren row listed own)).elim
      | none => exact barren row listed own
    | deleting => exact rejected row listed own

/-- The success of a call is committed. -/
theorem ready_inv (inv : Inv detect state) (member : call ∈ state.calls) {size : Nat}
    {mime : String} (stage : call.stage = .probed size (some mime)) :
    Inv detect (commit state call.attachment (readyCopy call.attachment size mime state.now)) := by
  have probed : ∀ row ∈ state.rows, row.id = call.attachment.id →
      Holds state row.storageKey size mime ∧ row.state ≠ .rejected := by
    intro row listed own
    have fits := inv.stages call member row listed own
    rw [stage] at fits
    exact fits
  have copies : ∀ row ∈ state.rows, row.id = call.attachment.id → CopyOk row call.attachment :=
    fun row listed own => inv.copies call member (stage ▸ trivial) row listed own
  refine commit_inv inv (fun other _ _ row listed own copy => ?_)
    (fun row listed own _ => ?_) fun other _ row listed own fits => ?_
  · have ready := ready_state (copies row listed own) size mime state.now
    exact ⟨copy.unfinished, fun unfinished => absurd ready unfinished, fun rejected =>
      absurd (copy.rejected rejected) (probed row listed own).2⟩
  · exact ready_holds (copies row listed own) state.now (inv.ready row listed)
      (probed row listed own).1
  · have ready := ready_state (copies row listed own) size mime state.now
    cases reached : other.stage with
    | loaded | answered => trivial
    | sized size =>
        rw [reached] at fits
        exact fits
    | probed size detected =>
        rw [reached] at fits
        cases detected with
        | some mime =>
            refine ⟨fits.1, fun rejected => ?_⟩
            rw [ready] at rejected
            cases rejected
        | none => exact fits
    | deleting =>
        rw [reached] at fits
        exact absurd fits (probed row listed own).2

/-- The object of a rejected upload is deleted. -/
theorem delete_inv (inv : Inv detect state) (member : call ∈ state.calls)
    (stage : call.stage = .deleting) :
    Inv detect (deleteObject state call.attachment.storageKey) := by
  have rejected : ∀ row ∈ state.rows, row.storageKey = call.attachment.storageKey →
      row.state = .rejected := by
    intro row listed key
    have fits := inv.stages call member row listed (known_id inv member listed key)
    rw [stage] at fits
    exact fits
  have gone : ∀ row ∈ state.rows, row.storageKey = call.attachment.storageKey →
      (deleteObject state call.attachment.storageKey).objects row.storageKey = none := by
    intro row _ key
    rw [key]
    exact Function.update_self _ _ _
  have kept : ∀ row ∈ state.rows, row.storageKey ≠ call.attachment.storageKey →
      (deleteObject state call.attachment.storageKey).objects row.storageKey =
        state.objects row.storageKey := fun row _ apart => Function.update_of_ne apart _ _
  refine ⟨inv.single, inv.known, inv.copies, fun row listed finished => ?_,
    fun other also row listed about => ?_⟩
  · have apart : row.storageKey ≠ call.attachment.storageKey := by
      intro key
      rw [rejected row listed key] at finished
      cases finished
    obtain ⟨bytes, held, matches_⟩ := inv.ready row listed finished
    exact ⟨bytes, (kept row listed apart).trans held, matches_⟩
  · have fits := inv.stages other also row listed about
    by_cases key : row.storageKey = call.attachment.storageKey
    · have absent := gone row listed key
      cases reached : other.stage with
      | loaded | answered => trivial
      | sized size =>
          intro bytes held
          rw [absent] at held
          cases held
      | probed size detected => cases detected with
        | some mime =>
            rw [reached] at fits
            exact absurd (rejected row listed key) fits.2
        | none =>
            intro bytes held
            rw [absent] at held
            cases held
      | deleting => exact rejected row listed key
    · exact stage_moved fits (kept row listed key) rfl

theorem put_inv (inv : Inv detect state) {key : String} {bytes : List UInt8}
    (steady : Steady detect state (.put key bytes)) (taken : put state key bytes = some next) :
    Inv detect next := by
  obtain ⟨probing, fitting⟩ := steady
  unfold put at taken
  split at taken
  case isFalse => cases taken
  cases taken
  refine ⟨inv.single, inv.known, inv.copies, fun row listed finished => ?_,
    fun other also row listed about => ?_⟩
  · by_cases same : row.storageKey = key
    · refine ⟨bytes, ?_, fitting row listed same finished⟩
      rw [same]
      exact Function.update_self _ _ _
    · obtain ⟨old, held, fits⟩ := inv.ready row listed finished
      exact ⟨old, (Function.update_of_ne same _ _).trans held, fits⟩
  · have fits := inv.stages other also row listed about
    by_cases same : row.storageKey = key
    · have held : Function.update state.objects key (some bytes) row.storageKey = some bytes := by
        rw [same]
        exact Function.update_self _ _ _
      have replaces : other.stage.Probing → ∃ old, state.objects row.storageKey = some old ∧
          bytes.length = old.length ∧ leading bytes = leading old := fun probed => by
        rw [same]
        exact probing other also ((known_key inv also listed about).symm.trans same) probed
      cases reached : other.stage with
      | loaded | answered => trivial
      | sized size =>
          rw [reached] at fits replaces
          obtain ⟨old, before, length, _⟩ := replaces trivial
          intro found also_held
          rw [Option.some.inj (also_held.symm.trans held), length]
          exact fits old before
      | probed size detected =>
          rw [reached] at fits replaces
          obtain ⟨old, before, length, begins⟩ := replaces trivial
          cases detected with
          | some mime =>
              obtain ⟨⟨found, there, size_eq, carried⟩, accepted⟩ := fits
              rw [Option.some.inj (there.symm.trans before)] at size_eq carried
              exact ⟨⟨bytes, held, length.trans size_eq, begins ▸ carried⟩, accepted⟩
          | none =>
              intro found also_held
              rw [Option.some.inj (also_held.symm.trans held), begins]
              exact fits old before
      | deleting =>
          rw [reached] at fits
          exact fits
    · exact stage_moved fits (Function.update_of_ne same _ _) rfl

theorem request_inv (inv : Inv detect state) {owner : Uuid} {payload : UploadRequest} {id : Uuid}
    {key : String} (taken : request characters state owner payload id key = some next) :
    Inv detect next := by
  unfold request at taken
  split at taken
  case isFalse => cases taken
  rename_i granted
  obtain ⟨_, _, fresh⟩ := granted
  cases taken
  have cases_ : ∀ row ∈ state.rows ++ [newAttachment characters owner payload id key],
      row ∈ state.rows ∨ row = newAttachment characters owner payload id key := fun row listed =>
    (List.mem_append.mp listed).imp_right List.mem_singleton.mp
  have apart : ∀ call ∈ state.calls, id ≠ call.attachment.id := by
    intro call member same
    obtain ⟨row, listed, about, _⟩ := inv.known call member
    exact (fresh row listed).1 (about.trans same.symm)
  refine ⟨?_, fun other also => ?_, fun other also still row listed about => ?_,
    fun row listed finished => ?_, fun other also row listed about => ?_⟩
  · intro row listed other also same
    rcases cases_ row listed with old | rfl <;> rcases cases_ other also with before | rfl
    · exact inv.single row old other before same
    · exact (same.elim (fresh row old).1 (fresh row old).2).elim
    · exact (same.elim (fun ids => (fresh other before).1 ids.symm)
        fun keys => (fresh other before).2 keys.symm).elim
    · rfl
  · obtain ⟨row, listed, about⟩ := inv.known other also
    exact ⟨row, List.mem_append_left _ listed, about⟩
  · rcases cases_ row listed with old | rfl
    · exact inv.copies other also still row old about
    · exact (apart other also about).elim
  · rcases cases_ row listed with old | rfl
    · exact inv.ready row old finished
    · cases finished
  · rcases cases_ row listed with old | rfl
    · exact inv.stages other also row old about
    · exact (apart other also about).elim

/-- A new call has read the row as it is. -/
theorem begin_inv (inv : Inv detect state) {loaded : Attachment} (read : loaded ∈ state.rows)
    {stage : Stage} (unfinished : stage.Open → loaded.state ≠ .ready)
    (fits : StageOk detect state loaded stage) :
    Inv detect { state with calls := state.calls ++ [⟨loaded, stage⟩] } := by
  have each : ∀ call ∈ state.calls ++ [⟨loaded, stage⟩],
      call ∈ state.calls ∨ call = ⟨loaded, stage⟩ := fun call listed =>
    (List.mem_append.mp listed).imp_right List.mem_singleton.mp
  refine ⟨inv.single, fun call member => ?_, fun call member still row listed about => ?_,
    inv.ready, fun call member row listed about => ?_⟩
  · rcases each call member with old | rfl
    · exact inv.known call old
    · exact ⟨loaded, read, rfl, rfl⟩
  · rcases each call member with old | rfl
    · exact inv.copies call old still row listed about
    · rw [inv.single row listed loaded read (Or.inl about)]
      exact ⟨unfinished still, fun _ => ⟨rfl, rfl⟩, fun rejected => rejected⟩
  · rcases each call member with old | rfl
    · exact inv.stages call old row listed about
    · rw [inv.single row listed loaded read (Or.inl about)]
      exact fits

theorem finalize_inv (inv : Inv detect state) {id owner : Uuid}
    (taken : finalize state id owner = some next) : Inv detect next := by
  unfold finalize at taken
  split at taken
  · exact Option.some.inj taken ▸ inv
  · rename_i row found
    have read := List.mem_of_find?_eq_some found
    cases taken
    by_cases finished : row.state = .ready
    · rw [if_pos finished]
      exact begin_inv inv read (fun still => still.elim) trivial
    · rw [if_neg finished]
      exact begin_inv inv read (fun _ => finished) trivial

/-- Binding an upload to a message leaves what is said about the object. -/
theorem bound_columns (id owner message conversation : Uuid) (row : Attachment) :
    (if row.id = id then bound owner message conversation row else row).id = row.id ∧
    (if row.id = id then bound owner message conversation row else row).storageKey =
      row.storageKey ∧
    (if row.id = id then bound owner message conversation row else row).state = row.state ∧
    (if row.id = id then bound owner message conversation row else row).byteSize = row.byteSize ∧
    (if row.id = id then bound owner message conversation row else row).detectedMime =
      row.detectedMime := by
  unfold bound
  split
  · split <;> exact ⟨rfl, rfl, rfl, rfl, rfl⟩
  · exact ⟨rfl, rfl, rfl, rfl, rfl⟩

theorem send_inv (inv : Inv detect state) (id owner message conversation : Uuid) :
    Inv detect (send state id owner message conversation) := by
  have columns := bound_columns id owner message conversation
  refine map_inv inv _ (fun row => (columns row).1) (fun row => (columns row).2.1)
    (fun other also still row listed about => ?_) (fun row listed finished => ?_)
    fun other also row listed about => ?_
  · obtain ⟨_, _, same, size, mime⟩ := columns row
    have copy := inv.copies other also still row listed about
    refine ⟨copy.unfinished, fun unfinished => ?_, fun rejected => ?_⟩
    · rw [size, mime]
      exact copy.same (same ▸ unfinished)
    · rw [same]
      exact copy.rejected rejected
  · obtain ⟨_, _, same, size, mime⟩ := columns row
    rw [same] at finished
    rw [size, mime]
    exact inv.ready row listed finished
  · obtain ⟨_, key, same, _, _⟩ := columns row
    exact stage_moved (inv.stages other also row listed about) (congrArg state.objects key) same

theorem answered_inv (inv : Inv detect state) (found : state.calls[index]? = some call)
    (answer : Answer) : Inv detect (enter state index call (.answered answer)) :=
  enter_inv inv found (fun still => still.elim) fun _ _ _ => trivial

/-- All that a step of a call can do. -/
inductive Proceeded (detect : List UInt8 → Option (Option String)) (state : State) (index : Nat)
    (call : Call) : State → Prop where
  | ended (answer : Answer) : Proceeded detect state index call
      (enter state index call (.answered answer))
  | sized (bytes : List UInt8) (stage : call.stage = .loaded)
      (held : state.objects call.attachment.storageKey = some bytes) :
      Proceeded detect state index call (enter state index call (.sized bytes.length))
  | probed (size : Nat) (bytes : List UInt8) (detected : Option String)
      (stage : call.stage = .sized size)
      (held : state.objects call.attachment.storageKey = some bytes)
      (known : detect (leading bytes) = some detected) :
      Proceeded detect state index call (enter state index call (.probed size detected))
  | rejected (size : Nat) (stage : call.stage = .probed size none) :
      Proceeded detect state index call
        (enter (commit state call.attachment (rejectedCopy call.attachment)) index call .deleting)
  | finished (size : Nat) (mime : String) (stage : call.stage = .probed size (some mime)) :
      Proceeded detect state index call
        (enter (commit state call.attachment (readyCopy call.attachment size mime state.now))
          index call (.answered .ready))
  | deleted (answer : Answer) (stage : call.stage = .deleting) :
      Proceeded detect state index call
        (enter (deleteObject state call.attachment.storageKey) index call (.answered answer))

theorem proceed_cases (taken : proceed detect state index call = some next) :
    Proceeded detect state index call next := by
  cases reached : call.stage with
  | answered answer =>
      simp only [proceed, reached] at taken
      cases taken
  | loaded =>
      simp only [proceed, reached] at taken
      split at taken
      · exact Option.some.inj taken ▸ .ended _
      · rename_i bytes held
        split at taken
        · exact Option.some.inj taken ▸ .ended _
        · exact Option.some.inj taken ▸ .sized bytes reached held
  | sized size =>
      simp only [proceed, reached] at taken
      split at taken
      · exact Option.some.inj taken ▸ .ended _
      · exact Option.some.inj taken ▸ .ended _
      · rename_i bytes _ held
        split at taken
        · exact Option.some.inj taken ▸ .ended _
        · rename_i detected known
          exact Option.some.inj taken ▸ .probed size bytes detected reached held known
  | probed size detected => cases detected with
    | none =>
        simp only [proceed, reached] at taken
        exact Option.some.inj taken ▸ .rejected size reached
    | some mime =>
        simp only [proceed, reached] at taken
        split at taken
        · exact Option.some.inj taken ▸ .ended _
        · exact Option.some.inj taken ▸ .finished size mime reached
  | deleting =>
      simp only [proceed, reached] at taken
      exact Option.some.inj taken ▸ .deleted _ reached

theorem proceed_inv (correct : Correct detect) (inv : Inv detect state)
    (found : state.calls[index]? = some call) (steady : Steady detect state (.proceed index))
    (taken : proceed detect state index call = some next) : Inv detect next := by
  have member := List.mem_of_getElem? found
  cases proceed_cases taken with
  | ended answer => exact answered_inv inv found answer
  | sized bytes stage held =>
      refine enter_inv inv found (fun _ => stage ▸ trivial) fun row listed about other also => ?_
      rw [known_key inv member listed about, held] at also
      rw [Option.some.inj also]
  | probed size bytes detected stage held known =>
      refine enter_inv inv found (fun _ => stage ▸ trivial) fun row listed about => ?_
      have key := known_key inv member listed about
      have length := inv.stages call member row listed about
      rw [stage] at length
      cases detected with
      | some mime =>
          refine ⟨⟨bytes, key ▸ held, length bytes (key ▸ held),
            correct.found _ mime known⟩, fun rejected => ?_⟩
          exact steady call size found stage row listed about rejected bytes mime
            (key ▸ held) known
      | none =>
          intro other also
          rw [key, held] at also
          rw [← Option.some.inj also]
          exact known
  | rejected size stage =>
      have changed := reject_inv correct inv member stage
      refine enter_inv changed found (fun _ => stage ▸ trivial) fun row listed about => ?_
      obtain ⟨before, was, rfl⟩ := List.mem_map.mp listed
      rw [rewrite_id] at about
      unfold rewrite
      rw [if_pos about]
      exact rejected_state (inv.copies call member (stage ▸ trivial) before was about)
  | finished size mime stage => exact answered_inv (ready_inv inv member stage) found .ready
  | deleted answer stage => exact answered_inv (delete_inv inv member stage) found answer

theorem step_inv (correct : Correct detect) {action : Action} (inv : Inv detect state)
    (steady : Steady detect state action)
    (taken : step characters detect state action = some next) : Inv detect next := by
  cases action with
  | advance pause =>
      cases taken
      exact ⟨inv.single, inv.known, inv.copies, inv.ready, inv.stages⟩
  | request owner payload id key => exact request_inv inv taken
  | put key bytes => exact put_inv inv steady taken
  | finalize id owner => exact finalize_inv inv taken
  | proceed index =>
      obtain ⟨call, found, after⟩ := Option.bind_eq_some_iff.mp taken
      exact proceed_inv correct inv found steady after
  | stop index =>
      obtain ⟨call, found, after⟩ := Option.bind_eq_some_iff.mp taken
      unfold stop at after
      split at after
      · cases after
      all_goals exact Option.some.inj after ▸ answered_inv inv found _
  | send id owner message conversation =>
      exact Option.some.inj taken ▸ send_inv inv id owner message conversation

theorem empty_inv : Inv detect {} := by
  refine ⟨?_, ?_, ?_, ?_, ?_⟩ <;> exact fun _ listed => absurd listed List.not_mem_nil

/-- An upload that is rejected. -/
def Rejected (state : State) (id : Uuid) : Prop :=
  (∃ row ∈ state.rows, row.id = id) ∧ ∀ row ∈ state.rows, row.id = id → row.state = .rejected

theorem rejected_map {id : Uuid} (rejected : Rejected state id) (change : Attachment → Attachment)
    (ids : ∀ row, (change row).id = row.id)
    (kept : ∀ row ∈ state.rows, row.id = id → (change row).state = .rejected) :
    Rejected { state with rows := state.rows.map change } id := by
  obtain ⟨⟨row, listed, about⟩, _⟩ := rejected
  refine ⟨⟨change row, List.mem_map_of_mem listed, (ids row).trans about⟩, ?_⟩
  intro other also same
  obtain ⟨before, was, rfl⟩ := List.mem_map.mp also
  exact kept before was ((ids before).symm.trans same)

theorem request_rejected {id : Uuid} (rejected : Rejected state id) {owner : Uuid}
    {payload : UploadRequest} {fresh : Uuid} {key : String}
    (taken : request characters state owner payload fresh key = some next) :
    Rejected next id := by
  unfold request at taken
  split at taken
  case isFalse => cases taken
  rename_i granted
  cases taken
  obtain ⟨⟨row, listed, about⟩, all⟩ := rejected
  refine ⟨⟨row, List.mem_append_left _ listed, about⟩, fun other also same => ?_⟩
  rcases List.mem_append.mp also with old | new
  · exact all other old same
  · rw [List.mem_singleton.mp new] at same
    exact ((granted.2.2 row listed).1 (about.trans same.symm)).elim

theorem proceed_rejected (inv : Inv detect state) (found : state.calls[index]? = some call)
    {id : Uuid} (rejected : Rejected state id)
    (taken : proceed detect state index call = some next) : Rejected next id := by
  have member := List.mem_of_getElem? found
  cases proceed_cases taken with
  | ended | sized | probed | deleted => exact rejected
  | rejected size stage =>
      refine rejected_map rejected _ (rewrite_id _ _) fun row listed same => ?_
      unfold rewrite
      split
      · rename_i own
        exact rejected_state (inv.copies call member (stage ▸ trivial) row listed own)
      · exact rejected.2 row listed same
  | finished size mime stage =>
      refine rejected_map rejected _ (rewrite_id _ _) fun row listed same => ?_
      unfold rewrite
      split
      · -- a call that has found a type is not about a rejected upload
        rename_i own
        have fits := inv.stages call member row listed own
        rw [stage] at fits
        exact (fits.2 (rejected.2 row listed same)).elim
      · exact rejected.2 row listed same

theorem step_rejected {action : Action} (inv : Inv detect state) {id : Uuid}
    (rejected : Rejected state id)
    (taken : step characters detect state action = some next) : Rejected next id := by
  cases action with
  | advance pause =>
      cases taken
      exact rejected
  | request owner payload fresh key => exact request_rejected rejected taken
  | put key bytes =>
      simp only [step, put] at taken
      split at taken
      · cases taken
        exact rejected
      · cases taken
  | finalize target owner =>
      simp only [step, finalize] at taken
      split at taken <;> exact Option.some.inj taken ▸ rejected
  | proceed index =>
      obtain ⟨call, found, after⟩ := Option.bind_eq_some_iff.mp taken
      exact proceed_rejected inv found rejected after
  | stop index =>
      obtain ⟨call, found, after⟩ := Option.bind_eq_some_iff.mp taken
      unfold stop at after
      split at after
      · cases after
      all_goals exact Option.some.inj after ▸ rejected
  | send target owner message conversation =>
      refine Option.some.inj taken ▸ rejected_map rejected _
        (fun row => (bound_columns target owner message conversation row).1) ?_
      intro row listed same
      rw [(bound_columns target owner message conversation row).2.2.1]
      exact rejected.2 row listed same

theorem served_holds (inv : Inv detect state) {id principal : Uuid} {mayRead : Uuid → Bool}
    {served : Served} (answered : downloadUrl state id principal mayRead = some served) :
    Holds state served.storageKey served.size served.mime := by
  obtain ⟨row, found, after⟩ := Option.bind_eq_some_iff.mp answered
  have listed := List.mem_of_find?_eq_some found
  dsimp only at after
  split at after
  · cases after
  · rename_i finished
    have holds := inv.ready row listed (not_not.mp finished)
    split at after
    · split at after
      · cases after
      · exact Option.some.inj after ▸ holds
    · split at after
      · exact Option.some.inj after ▸ holds
      · cases after

/-- A run of steady steps from the start keeps the invariant. -/
theorem steady_inv (correct : Correct detect) {actions : List Action} {final : State}
    (ran : Runs.run (step characters detect) {} actions = some final)
    (steady : Runs.Meets (step characters detect) (Steady detect) {} actions) :
    Inv detect final :=
  Runs.guarded_invariant (Inv detect)
    (fun _ _ _ inv allowed taken => step_inv correct inv allowed taken) ran steady empty_inv

/-- While a run is steady, a download serves an object of the size and type it
names, and a rejected upload is never finished. -/
theorem steady_uploads_serve_probed (characters : Characters) (correct : Correct detect)
    (actions : List Action)
    (steady : Runs.Meets (step characters detect) (Steady detect) {} actions) :
    (∀ visited, Runs.Visits (step characters detect) {} actions visited →
      ∀ id principal mayRead served, downloadUrl visited id principal mayRead = some served →
        Holds visited served.storageKey served.size served.mime) ∧
    ∀ earlier later, Runs.Passes (step characters detect) {} actions earlier later →
      ∀ row ∈ earlier.rows, row.state = .rejected →
        ∀ other ∈ later.rows, other.id = row.id → other.state ≠ .ready := by
  constructor
  · rintro visited ⟨before, after, rfl, reached⟩ id principal mayRead served answered
    obtain ⟨first, _⟩ := (Runs.meets_append_iff reached).mp steady
    exact served_holds (steady_inv correct reached first) answered
  · rintro earlier later ⟨before, middle, after, rfl, reached, onward⟩ row listed state other
      also same
    obtain ⟨first, second⟩ := (Runs.meets_append_iff reached).mp steady
    have inv := steady_inv correct reached first
    have start : Rejected earlier row.id := by
      refine ⟨⟨row, listed, rfl⟩, fun found member ids => ?_⟩
      rw [inv.single found member row listed (Or.inl ids)]
      exact state
    have both : Inv detect later ∧ Rejected later row.id := Runs.guarded_invariant
      (fun state => Inv detect state ∧ Rejected state row.id)
      (fun _ _ _ good allowed taken =>
        ⟨step_inv correct good.1 allowed taken, step_rejected good.1 good.2 taken⟩)
      onward ((Runs.meets_append_iff onward).mp second).1 ⟨inv, start⟩
    rw [both.2.2 other also same]
    exact fun ready => nomatch ready

end Invariant

section Runs

/-- `GIF89a`, and a program of the same size. -/
def picture : List UInt8 := [0x47, 0x49, 0x46, 0x38, 0x39, 0x61]

def program : List UInt8 := [0x4d, 0x5a, 0x90, 0x00, 0x03, 0x00]

def asked : Action := .request 7 ⟨5, "cat.gif", "image/gif", 6⟩ 1 "u/7/1/0"

def probing (call : Nat) : List Action :=
  [.finalize 1 7, .proceed call, .proceed call, .proceed call]

/-- The object of a finished upload is replaced, and a rejected upload is tried
again: the one is still served, and the other is finished. -/
theorem replaced_upload_served :
    (Correct detectMime ∧ ∃ final served, Runs.run (step asciiOnly detectMime) {}
        ([asked, .put "u/7/1/0" picture] ++ probing 0 ++ [.put "u/7/1/0" program]) = some final ∧
      downloadUrl final 1 7 (fun _ => true) = some served ∧
      ¬Holds final served.storageKey served.size served.mime) ∧
    Correct detectListed ∧ ∃ earlier later, Runs.run (step asciiOnly detectListed) {}
        ([asked, .put "u/7/1/0" program] ++ probing 0 ++ [.proceed 0]) = some earlier ∧
      Runs.run (step asciiOnly detectListed) earlier
        ([.put "u/7/1/0" picture] ++ probing 1) = some later ∧
      earlier.rows.map (fun row => (row.id, row.state)) = [(1, .rejected)] ∧
      later.rows.map (fun row => (row.id, row.state)) = [(1, .ready)] := by
  refine ⟨⟨detect_correct, ?_⟩, listed_correct, ?_⟩
  · obtain ⟨final, served, ran, answered, stored, mime⟩ : ∃ final served,
        Runs.run (step asciiOnly detectMime) {}
          ([asked, .put "u/7/1/0" picture] ++ probing 0 ++ [.put "u/7/1/0" program]) = some final ∧
        downloadUrl final 1 7 (fun _ => true) = some served ∧
        final.objects served.storageKey = some program ∧ served.mime = "image/gif" :=
      ⟨_, _, rfl, rfl, rfl, rfl⟩
    refine ⟨final, served, ran, answered, ?_⟩
    rintro ⟨bytes, held, _, carried⟩
    have plain : carries "image/gif" (leading program) = false := by decide
    rw [Option.some.inj (held.symm.trans stored), mime, plain] at carried
    cases carried
  · exact ⟨_, _, rfl, rfl, rfl, rfl⟩

/-- Without the replacement the upload is served as it was probed. -/
theorem finished_upload_served : ∃ final served,
    Runs.run (step asciiOnly detectMime) {} ([asked, .put "u/7/1/0" picture] ++ probing 0) =
      some final ∧
    downloadUrl final 1 7 (fun _ => true) = some served ∧
    Holds final served.storageKey served.size served.mime := by
  have steady : Runs.Meets (step asciiOnly detectMime) (Steady detectMime) {}
      ([asked, .put "u/7/1/0" picture] ++ probing 0) := by
    refine Runs.meets_cons rfl trivial (Runs.meets_cons rfl ⟨?_, ?_⟩ (Runs.meets_cons rfl trivial
      (Runs.meets_cons rfl ?_ (Runs.meets_cons rfl ?_ (Runs.meets_cons rfl ?_ trivial)))))
    · exact fun _ listed => absurd listed List.not_mem_nil
    · intro row listed _ finished
      rw [List.mem_singleton.mp listed] at finished
      cases finished
    all_goals
      intro call size _ _ row listed _ rejected
      rw [List.mem_singleton.mp listed] at rejected
      cases rejected
  obtain ⟨final, served, ran, answered⟩ : ∃ final served,
      Runs.run (step asciiOnly detectMime) {} ([asked, .put "u/7/1/0" picture] ++ probing 0) =
        some final ∧
      downloadUrl final 1 7 (fun _ => true) = some served := ⟨_, _, rfl, rfl⟩
  refine ⟨final, served, ran, answered, ?_⟩
  exact (steady_uploads_serve_probed asciiOnly detect_correct _ steady).1 final
    ⟨_, [], (List.append_nil _).symm, ran⟩ 1 7 (fun _ => true) served answered

end Runs

end RunnerupChat.Uploads
