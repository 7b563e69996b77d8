import RtmpServer.Bridge.State
import RtmpServer.Db.SessionWrites

/-!
# The RTMP bridge: its operations

The operations of `DbRtmpBridge`, each a program of the actions of `Bridge.State` in the order of
the source. Logging and the bookkeeping of failed attempts are left out.
-/

namespace RtmpServer

open Lib.Program

abbrev BridgeM := Prog Action Action.Answer

namespace Bridge

def look (q : Query) : BridgeM q.Answer := Prog.perform (Action.look q)

def perform (a : Action) : BridgeM a.Answer := Prog.perform a

inductive AuthFailureKind where
  | credential
  | recognizedKey
  | operational
  deriving DecidableEq, Repr

/-! ### Ownership -/

/-- `try_release_ownership_for_conn`. The coordinator is called without the lock. -/
def tryReleaseOwnershipForConn (conn : UInt64) : BridgeM Unit := do
  let entry : Option (String × UInt64) ← look (.ownership conn)
  let coordinator : Coordinator ← look .coordinator
  match entry with
  | none => pure ()
  | some (streamId, epoch) =>
    if coordinator = .absent then pure ()
    else
      let released : Bool ← perform (.releaseStreamOwner .release streamId epoch)
      perform (.forgetOwnership conn streamId epoch released)
      if released then pure () else perform (.queueReleases [(streamId, epoch)])

/-- Releases ownership only for the stream of the session that ends. -/
def releaseOwnershipOf (conn : UInt64) (streamId : String) : BridgeM Unit := do
  let entry : Option (String × UInt64) ← look (.ownership conn)
  if entry.any fun e => e.1 = streamId then tryReleaseOwnershipForConn conn else pure ()

/-- `retry_pending_ownership_releases`, one epoch. -/
def retryRelease (e : String × UInt64) : BridgeM Unit := do
  let released : Bool ← perform (.releaseStreamOwner .retry e.1 e.2)
  if released then pure () else perform (.queueReleases [e])

def retryPendingOwnershipReleases : BridgeM Unit := do
  let pending : List (String × UInt64) ← perform .takeReleases
  let coordinator : Coordinator ← look .coordinator
  if coordinator = .absent then perform (.queueReleases pending)
  else pending.forM retryRelease

/-- The cluster manager after an isolation: it acquires the stream again and re-stamps the local
publishers, and gives the epoch back when there is none. -/
def reacquireStream (streamId : String) : BridgeM Unit := do
  let epoch : Option UInt64 ← perform (.acquireStreamOwner streamId)
  match epoch with
  | none => pure ()
  | some epoch =>
    let retagged : Bool ← perform (.retagStreamEpoch streamId epoch)
    if retagged then pure ()
    else
      let _ : Bool ← perform (.releaseStreamOwner .undo streamId epoch)
      pure ()

/-! ### The end of a session -/

def deactivatePublisher (cause : Cause) (row : PublisherRecord) : BridgeM Bool :=
  perform (.publisherUpdate cause { row with active := false })

def deactivatePlayer (cause : Cause) (row : PlayerRecord) : BridgeM Bool :=
  perform (.playerUpdate cause { row with active := false })

def releasePublisher (conn : UInt64) : BridgeM Unit := do
  let publisher : Option PublisherRecord ← look (.publisher conn)
  match publisher with
  | none => pure ()
  | some row =>
    if ← deactivatePublisher .release row then
      releaseOwnershipOf conn row.streamId
      perform (.clearPublisher conn row.id)
    else pure ()

def releasePublisherIfId (conn : UInt64) (publisherId : String) : BridgeM Unit := do
  let publisher : Option PublisherRecord ← look (.publisher conn)
  match publisher.filter fun row => row.id = publisherId with
  | none => pure ()
  | some row =>
    if ← deactivatePublisher .release row then
      let current : Option PublisherRecord ← look (.publisher conn)
      if current.any fun p => p.id = publisherId then
        releaseOwnershipOf conn row.streamId
        perform (.clearPublisher conn publisherId)
      else pure ()
    else pure ()

def releasePlayer (conn : UInt64) : BridgeM Unit := do
  let player : Option PlayerRecord ← look (.player conn)
  match player with
  | none => pure ()
  | some row =>
    if ← deactivatePlayer .release row then perform (.clearPlayer conn row.id) else pure ()

def releasePlayerIfId (conn : UInt64) (playerId : String) : BridgeM Unit := do
  let player : Option PlayerRecord ← look (.player conn)
  match player.filter fun row => row.id = playerId with
  | none => pure ()
  | some row =>
    if ← deactivatePlayer .release row then
      let current : Option PlayerRecord ← look (.player conn)
      if current.any fun p => p.id = playerId then perform (.clearPlayer conn playerId) else pure ()
    else pure ()

def abandonRolesForStream (streamId : String) : BridgeM Unit := do
  let dropped : List UInt64 × List UInt64 ← perform (.abandonRoles streamId)
  dropped.1.forM tryReleaseOwnershipForConn
  if dropped.2.isEmpty then pure () else perform (.forceClose dropped.2)

def closePublisher (publisher : Option PublisherRecord) : BridgeM Unit :=
  match publisher with
  | none => pure ()
  | some row => do
    if ← deactivatePublisher .close row then pure ()
    else perform (.queueDeactivation (.publisher { row with active := false } rfl))

def closePlayer (player : Option PlayerRecord) : BridgeM Unit :=
  match player with
  | none => pure ()
  | some row => do
    if ← deactivatePlayer .close row then pure ()
    else perform (.queueDeactivation (.player { row with active := false } rfl))

def onClose (conn : UInt64) : BridgeM Unit := do
  perform (.takeForceClose conn)
  let removed : Option ConnState ← perform (.removeConn conn)
  match removed with
  | none => pure ()
  | some cs =>
    closePublisher cs.publisher
    tryReleaseOwnershipForConn conn
    closePlayer cs.player

/-- `PendingDeactivation::deactivate`, with the row queued again when it failed. -/
def retryDeactivation : PendingDeactivation → BridgeM Unit
  | .publisher row inactive => do
    let updated : Bool ← perform (.publisherUpdate .retry row)
    if updated then pure ()
    else if ← look (.publisherExists row.id) then
      perform (.queueDeactivation (.publisher row inactive))
    else pure ()
  | .player row inactive => do
    let updated : Bool ← perform (.playerUpdate .retry row)
    if updated then pure ()
    else if ← look (.playerExists row.id) then perform (.queueDeactivation (.player row inactive))
    else pure ()

def retryPendingDeactivations : BridgeM Unit := do
  if ← look .retryDue then
    let pending : List PendingDeactivation ← perform .takeDeactivations
    pending.forM retryDeactivation
  else pure ()

/-! ### Authorization -/

def restorePublisherRow (old : PublisherRecord) : BridgeM Bool := do
  let restored : Bool ← perform (.publisherUpdate .restore { old with active := true })
  if restored then pure true
  else perform (.publisherTryAcquire .restore { old with active := true })

def restorePlayerRow (old : PlayerRecord) : BridgeM Bool := do
  let restored : Bool ← perform (.playerUpdate .restore { old with active := true })
  if restored then pure true
  else perform (.playerTryAcquire .restore { old with active := true })

/-- A refused publish brings the prior session back, if there was one. -/
def refusePublish (old : Option PublisherRecord) (kind : AuthFailureKind) :
    BridgeM (Except AuthFailureKind Unit) :=
  match old with
  | none => pure (.error kind)
  | some prior => do
    let _ ← restorePublisherRow prior
    pure (.error kind)

/-- The row just acquired is given up; its result is ignored. -/
def undoPublish (row : PublisherRecord) (old : Option PublisherRecord) (kind : AuthFailureKind) :
    BridgeM (Except AuthFailureKind Unit) := do
  let _ ← deactivatePublisher .undo row
  refusePublish old kind

/-- A switch releases the claim of another stream, once it has the new one. -/
def releasePrior (prior : Option (String × UInt64)) (streamId : String) : BridgeM Bool :=
  match prior.filter fun e => e.1 ≠ streamId with
  | none => pure true
  | some e => perform (.releaseStreamOwner .authorize e.1 e.2)

/-- The part of `try_authorize_publish` that settles the ownership of the stream. -/
def claimStream (conn : UInt64) (row : PublisherRecord) (old : Option PublisherRecord)
    (prior : Option (String × UInt64)) : BridgeM (Except AuthFailureKind Unit) := do
  let coordinator : Coordinator ← look .coordinator
  if coordinator = .absent then
    perform (.installPublisher conn row)
    pure (.ok ())
  else
    let granted : Option UInt64 ← perform (.acquireStreamOwner row.streamId)
    match granted with
    | none => undoPublish row old .recognizedKey
    | some epoch =>
      if ← releasePrior prior row.streamId then
        perform (.recordOwnership conn row.streamId epoch prior)
        perform (.installPublisher conn row)
        pure (.ok ())
      else
        let _ : Bool ← perform (.releaseStreamOwner .undo row.streamId epoch)
        undoPublish row old .operational

/-- The prior session's row is deactivated before the new slot is tried. -/
def giveUpPublisher (old : Option PublisherRecord) : BridgeM Bool :=
  match old with
  | none => pure true
  | some row => deactivatePublisher .authorize row

def giveUpPlayer (old : Option PlayerRecord) : BridgeM Bool :=
  match old with
  | none => pure true
  | some row => deactivatePlayer .authorize row

/-- `try_authorize_publish` from the point where the new row is complete. -/
def switchPublisher (conn : UInt64) (row : PublisherRecord) :
    BridgeM (Except AuthFailureKind Unit) := do
  let old : Option PublisherRecord ← look (.publisher conn)
  let prior : Option (String × UInt64) ← look (.ownership conn)
  if ← giveUpPublisher old then
    let acquired : Bool ← perform (.publisherTryAcquire .authorize row)
    if acquired then claimStream conn row old prior
    else refusePublish old .recognizedKey
  else pure (.error .operational)

def newPublisher (stream : Stream) (app id : String) (now : Int) : PublisherRecord :=
  ⟨id, stream.id, app, stream.name, 0, {}, now, true⟩

def newPlayer (viewer : StreamViewer) (stream : Stream) (app id : String) (now : Int) :
    PlayerRecord :=
  ⟨id, stream.id, viewer.id, app, stream.name, 0, {}, now, true⟩

def tryAuthorizePublish (conn : UInt64) (app streamKey : String) :
    BridgeM (Except AuthFailureKind Unit) := do
  let found : DbLookup Stream ← look (.publishKey streamKey)
  match found with
  | .missing => pure (.error .credential)
  | .failed => pure (.error .operational)
  | .ok stream =>
    if !stream.enabled then pure (.error .recognizedKey)
    else if ← look (.deleted stream.id) then pure (.error .recognizedKey)
    else if stream.app ≠ app then pure (.error .credential)
    else
      let id : Option String ← look .sessionId
      match id with
      | none => pure (.error .operational)
      | some id =>
        let now : Int ← look .now
        switchPublisher conn (newPublisher stream app id now)

def refusePlay (old : Option PlayerRecord) (kind : AuthFailureKind) :
    BridgeM (Except AuthFailureKind Unit) :=
  match old with
  | none => pure (.error kind)
  | some prior => do
    let _ ← restorePlayerRow prior
    pure (.error kind)

def clusterFull (viewerId : String) : BridgeM Bool := do
  let coordinator : Coordinator ← look .coordinator
  if coordinator = .cluster then
    let here : Nat ← look (.localSessions viewerId)
    let elsewhere : Nat ← look (.remoteSessions viewerId)
    pure (decide (maxConnectionsPerPlayKey ≤ here + elsewhere))
  else pure false

def switchPlayer (conn : UInt64) (row : PlayerRecord) :
    BridgeM (Except AuthFailureKind Unit) := do
  let old : Option PlayerRecord ← look (.player conn)
  if ← giveUpPlayer old then
    if ← clusterFull row.viewerId then refusePlay old .recognizedKey
    else
      let acquired : Bool ← perform (.playerTryAcquire .authorize row)
      if acquired then
        perform (.installPlayer conn row)
        pure (.ok ())
      else refusePlay old .recognizedKey
  else pure (.error .operational)

def clusterUnavailable : BridgeM Bool := do
  let coordinator : Coordinator ← look .coordinator
  if coordinator = .cluster then
    let accepts : Bool ← look .acceptsPlay
    pure !accepts
  else pure false

def tryAuthorizePlay (conn : UInt64) (app streamKey : String) :
    BridgeM (Except AuthFailureKind Unit) := do
  let found : DbLookup (StreamViewer × Stream) ← look (.playKey streamKey)
  match found with
  | .missing => pure (.error .credential)
  | .failed => pure (.error .operational)
  | .ok (viewer, stream) =>
    if ← look (.deleted stream.id) then pure (.error .recognizedKey)
    else if !stream.enabled then pure (.error .recognizedKey)
    else if stream.app ≠ app then pure (.error .credential)
    else if ← clusterUnavailable then pure (.error .operational)
    else
      let id : Option String ← look .sessionId
      match id with
      | none => pure (.error .operational)
      | some id =>
        let now : Int ← look .now
        switchPlayer conn (newPlayer viewer stream app id now)

def authorizePublish (conn : UInt64) (app streamKey : String) : BridgeM Bool := do
  if ← look (.rateLimited conn) then pure false
  else
    let result ← tryAuthorizePublish conn app streamKey
    pure result.toBool

def authorizePlay (conn : UInt64) (app streamKey : String) : BridgeM Bool := do
  if ← look (.rateLimited conn) then pure false
  else
    let result ← tryAuthorizePlay conn app streamKey
    pure result.toBool

/-! ### The fast path -/

def tryFastAuthorizePublish (conn : UInt64) (app streamKey : String) :
    BridgeM (Option PublisherRecord) := do
  let coordinator : Coordinator ← look .coordinator
  if coordinator = .cluster || !isValidAccessKey streamKey then pure none
  else
    let cached : Option Stream ← look (.cachedPublishKey streamKey)
    match cached.filter fun stream => stream.enabled && stream.app = app with
    | none => pure none
    | some stream =>
      if ← look (.rateLimited conn) then pure none
      else
        let id : Option String ← look .sessionId
        match id with
        | none => pure none
        | some id =>
          let now : Int ← look .now
          let row := newPublisher stream app id now
          let admitted : Bool ← perform (.admitPublisher conn row)
          pure (if admitted then some row else none)

def tryFastAuthorizePlay (conn : UInt64) (app streamKey : String) :
    BridgeM (Option PlayerRecord) := do
  let coordinator : Coordinator ← look .coordinator
  if coordinator = .cluster || !isValidAccessKey streamKey then pure none
  else
    let cached : Option (StreamViewer × Stream) ← look (.cachedPlayKey streamKey)
    match cached.filter fun pair => pair.2.enabled && pair.2.app = app with
    | none => pure none
    | some (viewer, stream) =>
      if ← look (.rateLimited conn) then pure none
      else
        let id : Option String ← look .sessionId
        match id with
        | none => pure none
        | some id =>
          let now : Int ← look .now
          let row := newPlayer viewer stream app id now
          let admitted : Bool ← perform (.admitPlayer conn row)
          pure (if admitted then some row else none)

/-- `drop_fast_publisher`, which is all of `cancel_fast_publish`. -/
def dropFastPublisher (conn : UInt64) (row : PublisherRecord) : BridgeM Unit := do
  perform (.clearPublisher conn row.id)
  perform (.forgetFastOwnership conn row.streamId)

def cancelFastPlay (conn : UInt64) (row : PlayerRecord) : BridgeM Unit := do
  perform (.clearPlayer conn row.id)
  perform (.playerCancelReservation row.viewerId)

def persistFastPublish (conn : UInt64) (row : PublisherRecord) : BridgeM Unit := do
  let acquired : Bool ← perform (.publisherTryAcquire .persist row)
  if acquired then
    let held : Option PublisherRecord ← look (.publisher conn)
    if held.any fun p => p.id = row.id then pure ()
    else
      let _ ← deactivatePublisher .dropped row
      pure ()
  else
    dropFastPublisher conn row
    perform (.forceClose [conn])

def persistFastPlay (conn : UInt64) (row : PlayerRecord) : BridgeM Unit := do
  let inserted : Bool ← perform (.playerInsertReserved row)
  if inserted then
    let held : Option PlayerRecord ← look (.player conn)
    if held.any fun p => p.id = row.id then pure ()
    else
      let _ ← deactivatePlayer .dropped row
      pure ()
  else
    perform (.dropPlayer conn row.id)
    perform (.forceClose [conn])

/-- A publish on the thread that polls: the row of an admitted session goes to the worker, and
without a worker the admission is taken back. -/
def fastPublish (conn : UInt64) (app streamKey : String) : BridgeM Unit := do
  let row ← tryFastAuthorizePublish conn app streamKey
  match row with
  | none => pure ()
  | some row =>
    let queued : Bool ← perform (.queuePersist (.publish conn row))
    if queued then pure () else dropFastPublisher conn row

def fastPlay (conn : UInt64) (app streamKey : String) : BridgeM Unit := do
  let row ← tryFastAuthorizePlay conn app streamKey
  match row with
  | none => pure ()
  | some row =>
    let queued : Bool ← perform (.queuePersist (.play conn row))
    if queued then pure () else cancelFastPlay conn row

def persistNext : BridgeM Unit := do
  let job : Option PersistJob ← perform .takePersist
  match job with
  | none => pure ()
  | some (.publish conn row) => persistFastPublish conn row
  | some (.play conn row) => persistFastPlay conn row

/-! ### Where an authorization begins to change something -/

def Looks : Action → Prop
  | .look _ => True
  | _ => False

section Leads

variable {α : Type} {T : BridgeM α → Prop}

theorem leads_look {q : Query} {next : q.Answer → BridgeM α} (h : ∀ x, Prog.Leads Looks T (next x)) :
    Prog.Leads Looks T (look q >>= next) := .act trivial h

theorem leads_unless {c : Prop} [Decidable c] {p q : BridgeM α} (hp : T p)
    (hq : Prog.Leads Looks T q) : Prog.Leads Looks T (if c then p else q) := by
  split
  · exact .here hp
  · exact hq

theorem leads_newSession {p : BridgeM α} {f : String → Int → BridgeM α} (hp : T p)
    (hf : ∀ id now, T (f id now)) :
    Prog.Leads Looks T (look .sessionId >>= fun id : Option String => match id with
      | none => p
      | some id => look .now >>= f id) := by
  refine leads_look fun id => ?_
  cases id with
  | none => exact .here hp
  | some id => exact leads_look fun now => .here (hf id now)

variable {conn : UInt64}

theorem tryAuthorizePublish_leads (app streamKey : String) :
    (tryAuthorizePublish conn app streamKey).Leads Looks fun p =>
      (∃ kind, p = .ret (.error kind)) ∨ ∃ row, p = switchPublisher conn row := by
  refine leads_look fun found => ?_
  rcases found with stream | _ | _
  · refine leads_unless (.inl ⟨_, rfl⟩) (leads_look fun deleted => ?_)
    refine leads_unless (.inl ⟨_, rfl⟩) (leads_unless (.inl ⟨_, rfl⟩) ?_)
    exact leads_newSession (.inl ⟨_, rfl⟩) fun _ _ => .inr ⟨_, rfl⟩
  · exact .here (.inl ⟨_, rfl⟩)
  · exact .here (.inl ⟨_, rfl⟩)

theorem clusterUnavailable_leads :
    clusterUnavailable.Leads Looks fun p => ∃ refused, p = .ret refused := by
  refine leads_look fun coordinator => ?_
  split
  · exact leads_look fun accepts => .here ⟨_, rfl⟩
  · exact .here ⟨_, rfl⟩

theorem tryAuthorizePlay_leads (app streamKey : String) :
    (tryAuthorizePlay conn app streamKey).Leads Looks fun p =>
      (∃ kind, p = .ret (.error kind)) ∨ ∃ row, p = switchPlayer conn row := by
  refine leads_look fun found => ?_
  rcases found with ⟨viewer, stream⟩ | _ | _
  · refine leads_look fun deleted => leads_unless (.inl ⟨_, rfl⟩) ?_
    refine leads_unless (.inl ⟨_, rfl⟩) (leads_unless (.inl ⟨_, rfl⟩) ?_)
    refine clusterUnavailable_leads.bind ?_
    rintro _ ⟨refused, rfl⟩
    refine leads_unless (.inl ⟨_, rfl⟩) ?_
    exact leads_newSession (.inl ⟨_, rfl⟩) fun _ _ => .inr ⟨_, rfl⟩
  · exact .here (.inl ⟨_, rfl⟩)
  · exact .here (.inl ⟨_, rfl⟩)

theorem authorizePublish_leads (app streamKey : String) :
    (authorizePublish conn app streamKey).Leads Looks fun p => p = .ret false ∨
      ∃ row, p = switchPublisher conn row >>= fun result => .ret result.toBool := by
  refine leads_look fun limited => leads_unless (.inl rfl) ?_
  refine (tryAuthorizePublish_leads app streamKey).bind ?_
  rintro _ (⟨kind, rfl⟩ | ⟨row, rfl⟩)
  · exact .here (.inl rfl)
  · exact .here (.inr ⟨row, rfl⟩)

theorem authorizePlay_leads (app streamKey : String) :
    (authorizePlay conn app streamKey).Leads Looks fun p => p = .ret false ∨
      ∃ row, p = switchPlayer conn row >>= fun result => .ret result.toBool := by
  refine leads_look fun limited => leads_unless (.inl rfl) ?_
  refine (tryAuthorizePlay_leads app streamKey).bind ?_
  rintro _ (⟨kind, rfl⟩ | ⟨row, rfl⟩)
  · exact .here (.inl rfl)
  · exact .here (.inr ⟨row, rfl⟩)

theorem tryFastAuthorizePublish_leads (app streamKey : String) :
    (tryFastAuthorizePublish conn app streamKey).Leads Looks fun p => p = .ret none ∨
      ∃ row, p = .act (.admitPublisher conn row) fun admitted =>
        .ret (if admitted then some row else none) := by
  refine leads_look fun coordinator => leads_unless (.inl rfl) (leads_look fun cached => ?_)
  split
  · exact .here (.inl rfl)
  · refine leads_look fun limited => leads_unless (.inl rfl) ?_
    exact leads_newSession (.inl rfl) fun _ _ => .inr ⟨_, rfl⟩

theorem tryFastAuthorizePlay_leads (app streamKey : String) :
    (tryFastAuthorizePlay conn app streamKey).Leads Looks fun p => p = .ret none ∨
      ∃ row, p = .act (.admitPlayer conn row) fun admitted =>
        .ret (if admitted then some row else none) := by
  refine leads_look fun coordinator => leads_unless (.inl rfl) (leads_look fun cached => ?_)
  split
  · exact .here (.inl rfl)
  · refine leads_look fun limited => leads_unless (.inl rfl) ?_
    exact leads_newSession (.inl rfl) fun _ _ => .inr ⟨_, rfl⟩

end Leads

end Bridge

/-! ### Actions that write a row -/

/-- The action writes one row of a session and answers whether it did. -/
structure Action.WritesRow (a : Action) (r : SessionRow) (active : Bool)
    (write : Outcome → Bridge → SessionDb × Bool) (answer : Bool → a.Answer) : Prop where
  exec : ∀ w s, a.exec w s = ({ s with sessions := (write w s).1 }, answer (write w s).2)
  row : ∀ w s, RowWrite s.db (write w s).1.db r active (write w s).2

section WritesRow

variable (cause : Cause) {active : Bool}

theorem writesRow_publisherUpdate {row : PublisherRecord} (hrow : row.active = active) :
    Action.WritesRow (.publisherUpdate cause row) (.publisher row.id) active
      (fun w s => s.sessions.publisherUpdate row.id row w.faults) id :=
  ⟨fun _ _ => rfl, fun w s => hrow ▸ (publisherUpdate_written s.sessions row.id row w.faults).rowWrite⟩

theorem writesRow_playerUpdate {row : PlayerRecord} (hrow : row.active = active) :
    Action.WritesRow (.playerUpdate cause row) (.player row.id) active
      (fun w s => s.sessions.playerUpdate row.id row w.faults.write) id :=
  ⟨fun _ _ => rfl, fun _ s => hrow ▸ (playerUpdate_written s.sessions row.id row _).rowWrite⟩

theorem writesRow_publisherTryAcquire (row : PublisherRecord) :
    Action.WritesRow (.publisherTryAcquire cause row) (.publisher row.id) true
      (fun w s => ({ s.sessions with db := (s.db.publisherTryAcquire row w.faults.write).1 },
        (s.db.publisherTryAcquire row w.faults.write).2)) id :=
  ⟨fun _ _ => rfl, fun _ s => (publisherTryAcquire_acquired s.db row _).rowWrite⟩

theorem writesRow_playerTryAcquire (row : PlayerRecord) :
    Action.WritesRow (.playerTryAcquire cause row) (.player row.id) true
      (fun w s => ({ s.sessions with db := (s.db.playerTryAcquire row w.faults.write).1 },
        (s.db.playerTryAcquire row w.faults.write).2)) id :=
  ⟨fun _ _ => rfl, fun _ s => (playerTryAcquire_inserted s.db row _).rowWrite⟩

theorem writesRow_playerInsertReserved (row : PlayerRecord) :
    Action.WritesRow (.playerInsertReserved row) (.player row.id) true
      (fun w s => ({ s.sessions with db := (s.db.playerInsertReserved row w.faults.write).1 },
        (s.db.playerInsertReserved row w.faults.write).2)) id :=
  ⟨fun _ _ => rfl, fun _ s => (playerInsertReserved_inserted s.db row _).rowWrite⟩

end WritesRow

/-! ### Samples -/

def ownedStreams : Db :=
  { Db.empty with
    streams :=
      [⟨⟨"a", "first", "live", "pub_a_00000000000000000000000000",
          "play_a_0000000000000000000000000", "stats_a_000000000000000000000000", true, 0⟩, false, "t"⟩,
        ⟨⟨"b", "second", "live", "pub_b_00000000000000000000000000",
          "play_b_0000000000000000000000000", "stats_b_000000000000000000000000", true, 0⟩, false, "t"⟩] }

/-- `n` steps of the operation at `i`, with one outcome for all. -/
def advances {ι : Type} (i n : Nat) (w : Outcome) : List (Event ι Outcome) :=
  List.replicate n (.advance i w)

end RtmpServer
