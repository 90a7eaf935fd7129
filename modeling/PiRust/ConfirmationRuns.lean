import PiRust.DelegationConfirmation

/- The queue of pending confirmations beside the replay of the log. -/
namespace PiRust.DelegationConfirmation

open SessionLog List

/-- What the write leaves in the log is not what it reports: a part of the line behind an error,
or the line behind an event that has no line feed. -/
def Write.astray (tail : LogTail) (write : Write) : Bool :=
  match write.append with
  | some failure => failure.written ≠ .nothing
  | none => write.manifest.isSome || tail = .unended

/-- A service whose session opens, and whose log reads as far as its tail. -/
structure Sound (service : LoggedService) : Prop where
  manifest : validateManifest service.record.manifest.toSessionManifest = .ok ()
  handle : service.handle.sessionId = service.record.manifest.sessionId
  own : ∀ event ∈ service.record.events,
    validateEventForSession event service.handle.sessionId = .ok ()

/-- The log no longer reads. -/
structure Torn (service : LoggedService) : Prop where
  sound : Sound service
  unread : ∃ error, service.tail.error = some error

/-- The log reads one event more. -/
structure Written (data : SessionEventData) (before after : LoggedService) : Prop where
  sound : Sound after
  read : after.tail.error = none
  events : ∃ event, event.data = data ∧ after.record.events = before.record.events ++ [event]

/-- What an append comes to. A torn log may be left behind an error or a success. -/
inductive Appended (write : Write) (data : SessionEventData) (before : LoggedService) :
    Attempt LoggedService Unit → Prop
  | lost (reported : write.astray before.tail = false) (error : SessionLog.CodingSessionError) :
      Appended write data before (before, .error error)
  | misreported {after : LoggedService} (astray : write.astray before.tail = true)
      (written : Written data before after) (error : SessionLog.CodingSessionError) :
      Appended write data before (after, .error error)
  | torn {after : LoggedService} (astray : write.astray before.tail = true) (torn : Torn after)
      (outcome : Except SessionLog.CodingSessionError Unit) :
      Appended write data before (after, outcome)
  | ok {after : LoggedService} (reported : write.astray before.tail = false)
      (written : Written data before after) : Appended write data before (after, .ok ())

section writes

variable {service : LoggedService}

theorem readEvents_sound (sound : Sound service) : service.readEvents =
    match service.tail.error with
    | some error => .error error
    | none => .ok service.record.events := by
  cases read : service.tail.error <;>
    simp only [LoggedService.readEvents, SessionRecord.readEvents_ok sound.own, read]

/-- The log after a part of a line. -/
inductive Extends (unparsed : String) (event : SessionEventEnvelope) (part : LinePart)
    (before : LoggedService) : LoggedService → Prop
  | same (nothing : part = .nothing) : Extends unparsed event part before before
  | whole (tail : LogTail) (ended : before.tail = .ended) (read : tail.error = none)
      (most : part = .event ∨ part = .line) : Extends unparsed event part before
        ⟨⟨{ before.record with events := before.record.events ++ [event] }, before.handle⟩, tail⟩
  | torn (events : List SessionEventEnvelope) (left : events ⊆ before.record.events)
      (some_part : part ≠ .nothing) (split : part = .piece ∨ before.tail = .unended) :
      Extends unparsed event part before
        ⟨⟨{ before.record with events := events }, before.handle⟩, .torn unparsed⟩

theorem writeLine_extends (read : service.tail.error = none) (unparsed : String)
    (event : SessionEventEnvelope) (part : LinePart) :
    Extends unparsed event part service (service.writeLine unparsed event part) := by
  obtain ⟨state, tail⟩ := service
  cases tail with
  | ended =>
    cases part with
    | nothing => exact .same rfl
    | piece => exact .torn state.record.events (Subset.refl _) (by decide) (.inl rfl)
    | event => exact .whole .unended rfl rfl (.inl rfl)
    | line => exact .whole .ended rfl rfl (.inr rfl)
  | unended =>
    cases part with
    | nothing => exact .same rfl
    | piece | event | line =>
      exact .torn state.record.events.dropLast (dropLast_subset _) (by decide) (.inr rfl)
  | torn error => cases read

variable (write : Write) (operationId turnId : Option String) (data : SessionEventData)

theorem appendDurableSessionEvent_appended (sound : Sound service)
    (read : service.tail.error = none) : Appended write data service
      (appendDurableSessionEvent write operationId turnId data service) := by
  let event : SessionEventEnvelope :=
    { SessionEventEnvelope.new service.handle.sessionId write.eventId write.now data with
      operationId := operationId
      turnId := turnId }
  let stamped := event.withSessionSequence (nextAfter service.record.events)
  have valid : validateEventForSession stamped service.handle.sessionId = .ok () :=
    SessionEventEnvelope.new_valid service.handle.sessionId write.eventId write.now data
  have appended : service.appendEvent write event =
      match write.append with
      | some failure => (service.writeLine write.unparsed stamped failure.written,
          .error (.session failure.error))
      | none => (service.writeLine write.unparsed stamped .line, .ok ()) := by
    cases fault : write.append <;>
      simp only [LoggedService.appendEvent, readEvents_sound sound, read, valid, fault, stamped]
  have added (manifest handle : StoredManifest) (tail : LogTail) (reads : tail.error = none)
      (same : handle.sessionId = service.handle.sessionId)
      (named : handle.sessionId = manifest.sessionId)
      (opens : validateManifest manifest.toSessionManifest = .ok ()) :
      Written data service
        ⟨⟨⟨manifest, service.record.events ++ [stamped]⟩, handle⟩, tail⟩ := by
    refine ⟨⟨opens, named, fun other member => ?_⟩, reads, stamped, rfl, rfl⟩
    rw [same]
    rcases mem_append.mp member with old | new
    · exact sound.own other old
    · rw [mem_singleton.mp new]
      exact valid
  have cut (manifest handle : StoredManifest) (events : List SessionEventEnvelope)
      (left : events ⊆ service.record.events)
      (same : handle.sessionId = service.handle.sessionId)
      (named : handle.sessionId = manifest.sessionId)
      (opens : validateManifest manifest.toSessionManifest = .ok ()) :
      Torn ⟨⟨⟨manifest, events⟩, handle⟩, .torn write.unparsed⟩ := by
    refine ⟨⟨opens, named, fun other member => ?_⟩, _, rfl⟩
    rw [same]
    exact sound.own other (left member)
  simp only [appendDurableSessionEvent]
  rw [show service.appendEvent write _ = _ from appended]
  cases fault : write.append with
  | some failure =>
    dsimp only
    have line := writeLine_extends read write.unparsed stamped failure.written
    generalize service.writeLine write.unparsed stamped failure.written = after at line
    cases line with
    | same nothing => exact .lost (by simp [Write.astray, fault, nothing]) _
    | whole tail ended reads most =>
      refine .misreported ?_ (added _ _ _ reads rfl sound.handle sound.manifest) _
      rcases most with same | same <;> simp [Write.astray, fault, same]
    | torn events left some_part split =>
      refine .torn ?_ (cut _ _ _ left rfl sound.handle sound.manifest) _
      simp [Write.astray, fault, some_part]
  | none =>
    dsimp only
    have patched : validateManifest (ManifestPatch.apply { updatedAt := some write.now }
        service.record.manifest).toSessionManifest = .ok () := sound.manifest
    have refreshed (events : List SessionEventEnvelope) : ServiceState.refresh
        ⟨⟨ManifestPatch.apply { updatedAt := some write.now } service.record.manifest, events⟩,
          service.handle⟩ = (_, .ok ()) := ServiceState.refresh_eq service.handle patched
    have line := writeLine_extends read write.unparsed stamped .line
    generalize service.writeLine write.unparsed stamped .line = after at line
    cases line with
    | same nothing => cases nothing
    | whole tail ended reads most =>
      cases refusal : write.manifest with
      | some error =>
        refine .misreported ?_ (added _ _ _ reads rfl sound.handle sound.manifest) _
        simp [Write.astray, fault, refusal]
      | none =>
        simp only [SessionRecord.updateManifest, patched]
        rw [refreshed]
        refine .ok ?_ (added _ _ _ reads sound.handle.symm rfl patched)
        simp [Write.astray, fault, refusal, ended]
    | torn events left some_part split =>
      have unended : service.tail = .unended := split.resolve_left (by decide)
      have astray : write.astray service.tail = true := by simp [Write.astray, fault, unended]
      cases refusal : write.manifest with
      | some error => exact .torn astray (cut _ _ _ left rfl sound.handle sound.manifest) _
      | none =>
        simp only [SessionRecord.updateManifest, patched]
        rw [refreshed]
        refine .torn astray ?_ _
        exact cut _ _ _ left sound.handle.symm rfl patched

theorem appendDurableSessionEvent_torn (torn : Torn service) : ∃ error,
    appendDurableSessionEvent write operationId turnId data service = (service, .error error) := by
  obtain ⟨error, unread⟩ := torn.unread
  refine ⟨.session error, ?_⟩
  simp [appendDurableSessionEvent, LoggedService.appendEvent, readEvents_sound torn.sound, unread]

end writes

def Session.replayedKeys (values : Serde) (session : Session) :
    Except String (List ConfirmationKey) :=
  session.service.readEvents.map fun events => (foldEvents values events).pendingKeys

/-- The queue names the confirmations that the log leaves pending. -/
def Agrees (values : Serde) (session : Session) : Prop :=
  ∃ keys, session.replayedKeys values = .ok keys ∧ ∀ key, key ∈ keys ↔ key ∈ session.queue.keys

/-- What holds of every session whatever fails. -/
structure Steady (session : Session) : Prop where
  sound : Sound session.service
  distinct : session.queue.keys.Nodup

variable {values : Serde}

def logKeys (values : Serde) (service : LoggedService) : List ConfirmationKey :=
  (foldEvents values service.record.events).pendingKeys

theorem agrees_iff {session : Session} (sound : Sound session.service) :
    Agrees values session ↔ session.service.tail.error = none ∧
      ∀ key, key ∈ logKeys values session.service ↔ key ∈ session.queue.keys := by
  unfold Agrees Session.replayedKeys
  rw [readEvents_sound sound]
  cases session.service.tail.error with
  | none =>
    constructor
    · rintro ⟨keys, replayed, same⟩
      cases replayed
      exact ⟨rfl, same⟩
    · exact fun same => ⟨_, rfl, same.2⟩
  | some error =>
    constructor
    · rintro ⟨keys, replayed, same⟩
      cases replayed
    · rintro ⟨read, _⟩
      cases read

theorem Written.keys {data : SessionEventData} {before after : LoggedService}
    (written : Written data before after) :
    logKeys values after = confirmKeys (logKeys values before) data := by
  obtain ⟨event, rfl, events⟩ := written.events
  rw [logKeys, events]
  exact pendingKeys_concat values before.record.events event

theorem isDuplicate_iff (pending : PendingDelegationConfirmationState) (queue : Queue) :
    queue.isDuplicate pending = true ↔ pending.key ∈ queue.keys := by
  simp [Queue.isDuplicate, Queue.keys, PendingDelegationConfirmationState.key]

theorem keys_push (queue : Queue) (pending : PendingDelegationConfirmationState) :
    Queue.keys (queue ++ [pending]) = queue.keys ++ [pending.key] :=
  map_append

variable {rfc3339 : Rfc3339} {operationId toolCallId now : String} {queue : Queue}
  {pending : PendingDelegationConfirmationState}

theorem activePending_some
    (found : queue.activePending rfc3339 operationId toolCallId now = some pending) :
    pending ∈ queue ∧ pending.key = (operationId, toolCallId) := by
  refine ⟨mem_of_find?_eq_some found, ?_⟩
  have named := find?_some found
  simp only [Queue.names, Bool.and_eq_true, decide_eq_true_eq] at named
  rw [PendingDelegationConfirmationState.key, named.1.2, named.2]

theorem keys_removeActive (distinct : queue.keys.Nodup)
    (found : queue.activePending rfc3339 operationId toolCallId now = some pending) :
    Queue.keys (queue.removeActive rfc3339 operationId toolCallId now).2 =
      queue.keys.erase (operationId, toolCallId) := by
  obtain ⟨removed, front, back, -, named, split, erased⟩ :=
    exists_of_eraseP (mem_of_find?_eq_some found) (find?_some found)
  have key : removed.key = (operationId, toolCallId) := by
    simp only [Queue.names, Bool.and_eq_true, decide_eq_true_eq] at named
    rw [PendingDelegationConfirmationState.key, named.1.2, named.2]
  have keys : queue.keys = front.map PendingDelegationConfirmationState.key ++
      (operationId, toolCallId) :: back.map PendingDelegationConfirmationState.key := by
    rw [Queue.keys, split, map_append, map_cons, key]
  have absent : (operationId, toolCallId) ∉ front.map PendingDelegationConfirmationState.key := by
    intro member
    rw [keys] at distinct
    exact (nodup_append.mp distinct).2.2 _ member _ (mem_cons_self ..) rfl
  rw [keys, erase_append_right _ absent, erase_cons_head]
  simp [Queue.removeActive, erased, Queue.keys]

def queueDiverges (write : Write) (pending : PendingDelegationConfirmationState)
    (session : Session) : Bool :=
  !session.queue.isDuplicate pending && pending.hasRuntime && write.astray session.service.tail

def adoptDiverges : List (PendingDelegationConfirmationState × Write) → Session → Bool
  | [], _ => false
  | (pending, write) :: rest, session =>
    queueDiverges write pending session ||
      match session.queuePending write pending false with
      | (_, .error _) => false
      | (queued, .ok ()) => adoptDiverges rest queued

/-- A call that reaches a write which leaves something else in the log than it reports. -/
def Call.diverges (rfc3339 : Rfc3339) (call : Call) (session : Session) : Bool :=
  match call with
  | .queue pending _ write => queueDiverges write pending session
  | .adopt pendingConfirmations => adoptDiverges pendingConfirmations session
  | .approve operationId toolCallId now write | .reject operationId toolCallId now _ write =>
    (session.queue.activePending rfc3339 operationId toolCallId now).isSome &&
      write.astray session.service.tail

/-- Queue and log still agree exactly where the call does not diverge. -/
structure Settles (values : Serde) (diverges : Bool) (after : Session) : Prop where
  steady : Steady after
  agrees : Agrees values after ↔ diverges = false

/-- The event of a confirmation that is asked for. -/
abbrev requested (pending : PendingDelegationConfirmationState) : SessionEventData :=
  let request := pending.request
  .delegationConfirmationRequested request.operationId request.turnId request.toolCallId
    request.requestingProfileId request.targetKind request.targetId request.task pending.reason

section steps

variable {session : Session} {write : Write}

variable {after : Session} {data : SessionEventData}

theorem Settles.unchanged (steady : Steady session) (agrees : Agrees values session)
    (service : after.service = session.service) (queue : after.queue = session.queue) :
    Settles values false after := by
  obtain ⟨sound, distinct⟩ := steady
  rw [← service] at sound
  rw [← queue] at distinct
  refine ⟨⟨sound, distinct⟩, iff_of_true ?_ rfl⟩
  obtain ⟨keys, replayed, same⟩ := agrees
  refine ⟨keys, ?_, ?_⟩
  · rw [Session.replayedKeys, service]
    exact replayed
  · rw [queue]
    exact same

theorem Settles.behind (steady : Steady session) (agrees : Agrees values session)
    (written : Written data session.service after.service) (queue : after.queue = session.queue)
    (key : ConfirmationKey)
    (moved : ¬ (key ∈ confirmKeys (logKeys values session.service) data ↔
      key ∈ logKeys values session.service)) :
    Settles values true after := by
  have distinct := steady.distinct
  rw [← queue] at distinct
  refine ⟨⟨written.sound, distinct⟩, iff_of_false (fun still => moved ?_) Bool.noConfusion⟩
  have before := ((agrees_iff steady.sound).mp agrees).2 key
  have after := ((agrees_iff written.sound).mp still).2 key
  rw [written.keys, queue] at after
  exact after.trans before.symm

theorem Settles.torn (torn : Torn after.service) (distinct : after.queue.keys.Nodup) :
    Settles values true after := by
  refine ⟨⟨torn.sound, distinct⟩, iff_of_false (fun still => ?_) Bool.noConfusion⟩
  obtain ⟨error, unread⟩ := torn.unread
  rw [((agrees_iff torn.sound).mp still).1] at unread
  cases unread

theorem Settles.together (written : Written data session.service after.service) (queue : Queue)
    (kept : after.queue = queue) (distinct : queue.keys.Nodup)
    (same : ∀ key, key ∈ confirmKeys (logKeys values session.service) data ↔ key ∈ queue.keys) :
    Settles values false after := by
  rw [← kept] at distinct same
  refine ⟨⟨written.sound, distinct⟩,
    iff_of_true ((agrees_iff written.sound).mpr ⟨written.read, ?_⟩) rfl⟩
  intro key
  rw [written.keys]
  exact same key

section

variable (steady : Steady session) (agrees : Agrees values session)
include steady agrees

theorem queuePending_settles (pending : PendingDelegationConfirmationState) (emit : Bool) :
    Settles values (queueDiverges write pending session)
      (session.queuePending write pending emit).1 := by
  obtain ⟨read, same⟩ := (agrees_iff steady.sound).mp agrees
  by_cases duplicate : session.queue.isDuplicate pending = true
  · have quiet : queueDiverges write pending session = false := by
      simp [queueDiverges, duplicate]
    rw [Session.queuePending, if_pos duplicate, quiet]
    exact Settles.unchanged steady agrees rfl rfl
  rw [Session.queuePending, if_neg duplicate]
  cases runtime : pending.hasRuntime with
  | false =>
    have quiet : queueDiverges write pending session = false := by
      simp [queueDiverges, runtime]
    simp only [recordDelegationConfirmationRequested, delegationRuntimeSeedFromPromptOptions,
      runtime, quiet]
    exact Settles.unchanged steady agrees rfl rfl
  | true =>
    have absent : pending.key ∉ session.queue.keys := fun member =>
      duplicate ((isDuplicate_iff pending session.queue).mpr member)
    have fresh : pending.key ∉ logKeys values session.service := fun member =>
      absent ((same pending.key).mp member)
    have reported : queueDiverges write pending session = write.astray session.service.tail := by
      simp [queueDiverges, Bool.eq_false_iff.mpr duplicate, runtime]
    have appended := appendDurableSessionEvent_appended write (some pending.request.operationId)
      (some pending.request.turnId) (requested pending) steady.sound read
    have listed : confirmKeys (logKeys values session.service) (requested pending) =
        logKeys values session.service ++ [pending.key] := if_neg fresh
    have distinct : (Queue.keys (session.queue ++ [pending])).Nodup := by
      rw [keys_push, ← concat_eq_append]
      exact Nodup.concat absent steady.distinct
    simp only [recordDelegationConfirmationRequested, delegationRuntimeSeedFromPromptOptions,
      runtime, if_true, reported]
    generalize appendDurableSessionEvent write _ _ _ session.service = result at appended ⊢
    cases appended with
    | lost quiet error =>
      rw [quiet]
      exact Settles.unchanged steady agrees rfl rfl
    | torn astray torn outcome =>
      rw [astray]
      cases outcome with
      | error => exact Settles.torn torn steady.distinct
      | ok => exact Settles.torn torn distinct
    | misreported astray written error =>
      rw [astray]
      refine Settles.behind steady agrees written rfl pending.key fun still => ?_
      rw [listed] at still
      exact fresh (still.mp (mem_append_right _ (mem_singleton_self _)))
    | ok quiet written =>
      rw [quiet]
      refine Settles.together written (session.queue ++ [pending]) rfl distinct fun key => ?_
      rw [listed, keys_push, mem_append, mem_append, same key]

theorem resolve_settles {rfc3339 : Rfc3339} {operationId toolCallId now : String}
    {pending : PendingDelegationConfirmationState}
    (found : session.queue.activePending rfc3339 operationId toolCallId now = some pending)
    (resolution : String → String → SessionEventData)
    (resolves : ∀ operationId toolCallId keys,
      confirmKeys keys (resolution operationId toolCallId) = keys.erase (operationId, toolCallId))
    {result : Attempt LoggedService Unit}
    (ran : appendDurableSessionEvent write (some pending.request.operationId) none
      (resolution pending.request.operationId pending.request.toolCallId) session.service = result)
    {after : Session} (service : after.service = result.1)
    (queue : after.queue = match result.2 with
      | .error _ => session.queue
      | .ok () => (Queue.removeActive rfc3339 operationId toolCallId now session.queue).2) :
    Settles values (write.astray session.service.tail) after := by
  obtain ⟨read, same⟩ := (agrees_iff steady.sound).mp agrees
  obtain ⟨member, key⟩ := activePending_some found
  have listed : (operationId, toolCallId) ∈ session.queue.keys := key ▸ mem_map_of_mem member
  have resolves : ∀ keys, confirmKeys keys (resolution pending.request.operationId
      pending.request.toolCallId) = keys.erase (operationId, toolCallId) := fun keys =>
    (resolves _ _ keys).trans (congrArg keys.erase key)
  have appended := ran ▸ appendDurableSessionEvent_appended write
    (some pending.request.operationId) none
    (resolution pending.request.operationId pending.request.toolCallId) steady.sound read
  have unlisted : (operationId, toolCallId) ∉
      (logKeys values session.service).erase (operationId, toolCallId) :=
    (pendingKeys_nodup values session.service.record.events).not_mem_erase
  have erased : (Queue.keys (Queue.removeActive rfc3339 operationId toolCallId now
      session.queue).2).Nodup := by
    rw [keys_removeActive steady.distinct found]
    exact steady.distinct.erase _
  obtain ⟨moved, left⟩ := after
  dsimp only at service queue
  subst service queue
  cases appended with
  | lost quiet error =>
    rw [quiet]
    exact Settles.unchanged steady agrees rfl rfl
  | torn astray torn outcome =>
    rw [astray]
    refine Settles.torn torn ?_
    cases outcome with
    | error => exact steady.distinct
    | ok => exact erased
  | misreported astray written error =>
    rw [astray]
    refine Settles.behind steady agrees written rfl (operationId, toolCallId) fun still => ?_
    rw [resolves] at still
    exact unlisted (still.mpr ((same _).mpr listed))
  | ok quiet written =>
    rw [quiet]
    have unique : (logKeys values session.service).Nodup :=
      pendingKeys_nodup values session.service.record.events
    refine Settles.together written _ rfl erased fun key => ?_
    rw [keys_removeActive steady.distinct found, resolves, unique.mem_erase_iff,
      steady.distinct.mem_erase_iff]
    exact and_congr_right fun _ => same key

theorem approvePending_settles (rfc3339 : Rfc3339) (operationId toolCallId now : String) :
    Settles values (Call.diverges rfc3339 (.approve operationId toolCallId now write) session)
      (session.approvePending rfc3339 write operationId toolCallId now).1 := by
  simp only [Session.approvePending, Session.activePending, Call.diverges]
  cases found : session.queue.activePending rfc3339 operationId toolCallId now with
  | none =>
    exact Settles.unchanged steady agrees rfl rfl
  | some pending =>
    simp only [recordDelegationConfirmationApproved, Option.isSome_some, Bool.true_and]
    generalize ran : appendDurableSessionEvent write _ _ _ session.service = result
    obtain ⟨service, outcome⟩ := result
    refine resolve_settles steady agrees found .delegationConfirmationApproved (fun _ _ _ => rfl) ran
      ?_ ?_
    · cases outcome <;> rfl
    · cases outcome <;> rfl

theorem rejectPending_settles (rfc3339 : Rfc3339) (operationId toolCallId now reason : String) :
    Settles values (Call.diverges rfc3339 (.reject operationId toolCallId now reason write) session)
      (session.rejectPending rfc3339 write operationId toolCallId now reason).1 := by
  simp only [Session.rejectPending, Session.activePending, Call.diverges]
  cases found : session.queue.activePending rfc3339 operationId toolCallId now with
  | none =>
    exact Settles.unchanged steady agrees rfl rfl
  | some pending =>
    simp only [recordDelegationConfirmationRejected, Option.isSome_some, Bool.true_and]
    generalize ran : appendDurableSessionEvent write _ _ _ session.service = result
    obtain ⟨service, outcome⟩ := result
    refine resolve_settles steady agrees found .delegationConfirmationRejected (fun _ _ _ => rfl) ran
      ?_ ?_
    · cases outcome <;> rfl
    · cases outcome <;> rfl

end

theorem queuePending_torn (torn : Torn session.service) (emit : Bool) :
    (session.queuePending write pending emit).1.service = session.service ∧
      (session.queuePending write pending emit).1.queue = session.queue := by
  unfold Session.queuePending recordDelegationConfirmationRequested
  split
  · exact ⟨rfl, rfl⟩
  cases delegationRuntimeSeedFromPromptOptions pending with
  | error error => exact ⟨rfl, rfl⟩
  | ok =>
    obtain ⟨error, failed⟩ := appendDurableSessionEvent_torn write
      (some pending.request.operationId) (some pending.request.turnId) (requested pending) torn
    dsimp only
    rw [failed]
    exact ⟨rfl, rfl⟩

theorem adoptPending_torn (torn : Torn session.service) (distinct : session.queue.keys.Nodup)
    (pendingConfirmations : List (PendingDelegationConfirmationState × Write)) :
    Settles values true (session.adoptPending pendingConfirmations).1 := by
  induction pendingConfirmations generalizing session with
  | nil => exact Settles.torn torn distinct
  | cons first rest ih =>
    obtain ⟨service, queue⟩ := @queuePending_torn first.1 session first.2 torn false
    rw [← service] at torn
    rw [← queue] at distinct
    unfold Session.adoptPending
    dsimp only
    split
    · exact Settles.torn torn distinct
    · exact ih torn distinct

/-- A confirmation that is queued although its write goes astray leaves a torn log. -/
theorem queuePending_outcome (steady : Steady session) (agrees : Agrees values session)
    (diverges : queueDiverges write pending session = true)
    (done : (session.queuePending write pending false).2 = .ok ()) :
    Torn (session.queuePending write pending false).1.service := by
  simp only [queueDiverges, Bool.and_eq_true, Bool.not_eq_true'] at diverges
  obtain ⟨⟨unique, runtime⟩, hidden⟩ := diverges
  have appended := appendDurableSessionEvent_appended write (some pending.request.operationId)
    (some pending.request.turnId) (requested pending) steady.sound ((agrees_iff steady.sound).mp agrees).1
  simp only [Session.queuePending, unique, recordDelegationConfirmationRequested,
    delegationRuntimeSeedFromPromptOptions, runtime, if_true, Bool.false_eq_true,
    if_false] at done ⊢
  generalize appendDurableSessionEvent write _ _ _ session.service = result at appended done ⊢
  cases appended with
  | lost reported => exact absurd hidden (by rw [reported]; exact Bool.false_ne_true)
  | misreported => cases done
  | torn astray torn outcome =>
    cases outcome with
    | error => cases done
    | ok => exact torn
  | ok reported => exact absurd hidden (by rw [reported]; exact Bool.false_ne_true)

theorem adoptPending_settles (steady : Steady session) (agrees : Agrees values session)
    (pendingConfirmations : List (PendingDelegationConfirmationState × Write)) :
    Settles values (adoptDiverges pendingConfirmations session)
      (session.adoptPending pendingConfirmations).1 := by
  induction pendingConfirmations generalizing session with
  | nil => exact Settles.unchanged steady agrees rfl rfl
  | cons first rest ih =>
    obtain ⟨pending, write⟩ := first
    have queued : Settles values (queueDiverges write pending session)
        (session.queuePending write pending false).1 :=
      queuePending_settles steady agrees pending false
    have stops := @queuePending_outcome values pending session write steady agrees
    simp only [Session.adoptPending, adoptDiverges]
    generalize session.queuePending write pending false = result at queued stops ⊢
    obtain ⟨after, outcome⟩ := result
    cases outcome with
    | error error =>
      rw [Bool.or_false]
      exact queued
    | ok =>
      cases diverges : queueDiverges write pending session with
      | false =>
        rw [diverges] at queued
        exact ih queued.steady (queued.agrees.mpr rfl)
      | true => exact adoptPending_torn (stops diverges rfl) queued.steady.distinct rest

theorem Call.apply_settles (steady : Steady session) (agrees : Agrees values session)
    (rfc3339 : Rfc3339) (call : Call) :
    Settles values (call.diverges rfc3339 session) (call.apply rfc3339 session).1 := by
  cases call with
  | queue pending emit write => exact queuePending_settles steady agrees pending emit
  | adopt pendingConfirmations => exact adoptPending_settles steady agrees pendingConfirmations
  | approve operationId toolCallId now write =>
    exact approvePending_settles steady agrees rfc3339 operationId toolCallId now
  | reject operationId toolCallId now reason write =>
    exact rejectPending_settles steady agrees rfc3339 operationId toolCallId now reason

end steps

/-- Queue and log agree after each call of a run exactly where no call diverges. -/
theorem run_agrees_iff (rfc3339 : Rfc3339) (calls : List Call) {session : Session}
    (steady : Steady session) (agrees : Agrees values session) :
    (∀ earlier later, calls = earlier ++ later → Agrees values (session.run rfc3339 earlier)) ↔
      ∀ earlier call later, calls = earlier ++ call :: later →
        call.diverges rfc3339 (session.run rfc3339 earlier) = false := by
  have step : ∀ (call : Call) (session : Session), Steady session → Agrees values session →
      Steady (call.apply rfc3339 session).1 ∧
        (Agrees values (call.apply rfc3339 session).1 ↔ call.diverges rfc3339 session = false) := by
    intro call session steady agrees
    have settles := call.apply_settles steady agrees rfc3339
    exact ⟨settles.steady, settles.agrees⟩
  exact Transition.always_iff step calls steady agrees

def createdSession : Session where
  service := { ServiceState.create "sess" "evt_1" "now" "default" none with }
  queue := []

def sampleRfc3339 : Rfc3339 := ⟨fun _ => none⟩

def samplePending : PendingDelegationConfirmationState :=
  ⟨⟨"op", "turn", "tool", "default", .agent, "reviewer", "review"⟩, true, "policy", "now"⟩

def queued : Call := .queue samplePending true { eventId := "evt_2", now := "now" }

def partialRejection : List Call :=
  [queued, .reject "op" "tool" "now" "no"
    { eventId := "evt_3", now := "now", manifest := some "Permission denied" }]

/-- What was rejected in the log can still be approved. -/
theorem partialRejection_disagrees :
    Agrees .silent createdSession ∧
      ¬ Agrees .silent (createdSession.run sampleRfc3339 partialRejection) := by
  refine ⟨⟨[], rfl, fun _ => Iff.rfl⟩, ?_⟩
  rintro ⟨keys, replayed, same⟩
  have rejected : keys = [] := (Except.ok.inj replayed).symm
  subst rejected
  exact absurd ((same ("op", "tool")).mpr (by decide)) not_mem_nil

theorem createdSession_steady : Steady createdSession := by
  refine ⟨⟨rfl, rfl, ?_⟩, nodup_nil⟩
  decide

/-- The same rejection with writes that succeed. -/
theorem rejection_agrees :
    Agrees .silent (createdSession.run sampleRfc3339
      [queued, .reject "op" "tool" "now" "no" { eventId := "evt_3", now := "now" }]) := by
  refine (run_agrees_iff sampleRfc3339 _ createdSession_steady
    ⟨[], rfl, fun _ => Iff.rfl⟩).mpr ?_ _ [] (append_nil _).symm
  rintro (_ | ⟨first, _ | ⟨second, earlier⟩⟩) call later split
  · cases split
    decide
  · cases split
    decide
  · have lengths := congrArg length split
    simp only [length_cons, length_nil, length_append] at lengths
    omega

end PiRust.DelegationConfirmation
