import RtmpServer.Db.Changes

/-!
# The replicated state machine

`ClusterCommand`, `ClusterResponse` and the two levels at which `SqliteStateMachine` runs a command:
`applyCommand` (the private `apply_command`) and `applyNormal`, the arm of `apply` that takes the
fencing epoch of an acquire and the bound of a node-wide release from the log index. `step` is the
state machine as the log sees it: the database after one entry, or nothing when the entry answers
`Error` and `apply` returns a storage error.
-/

namespace RtmpServer

open Lib.Table Lib.Replay List

/-! ### Commands, responses and effects -/

inductive ClusterCommand where
  | createStream (stream : Stream) (defaultViewer : StreamViewer) (deleteToken : String)
  | beginDeleteStream (id : String) (expectedCreatedAt : Option Int)
      (expectedDeleteToken : Option String)
  | finalizeDeleteStream (id : String)
  | setStreamEnabled (id : String) (enabled : Bool)
  | createViewer (viewer : StreamViewer)
  | deleteViewer (streamId viewerId : String)
  | setApiToken (token : String)
  | acquireStreamOwner (streamId : String) (nodeId epoch : UInt64) (acquiredAt : Int)
  | releaseStreamOwner (streamId : String) (epoch : UInt64)
  | releaseOwnersForNode (nodeId maxEpoch : UInt64)
  | seedFromStandalone (streams : List Stream) (viewers : List StreamViewer)
      (deleteTokens : List (String × String)) (apiToken : Option String)
      (pendingDeleteStreamIds : List String)
  | setClusterId (id : String)
  deriving DecidableEq, Repr

inductive ClusterResponse where
  | ok
  | duplicate
  | notFound
  | conflict
  | ownerEpoch (epoch : UInt64)
  | released (index : UInt64)
  | error (msg : String)
  deriving DecidableEq, Repr

inductive StateEffect where
  | drainStream (id : String)
  | clearDrainStream (id : String)
  | revokeViewer (id : String)
  | apiToken (token : String)
  | ownershipChanged
  deriving DecidableEq, Repr

structure Applied where
  db : Db
  response : ClusterResponse
  effects : List StateEffect

def ClusterResponse.isError : ClusterResponse → Bool
  | .error _ => true
  | _ => false

/-! ### `SeedFromStandalone` -/

/-- The value a list of pairs gives to `id`; a later pair replaces an earlier one. -/
def tokenFor (deleteTokens : List (String × String)) (id : String) : Option String :=
  (lookup Prod.fst deleteTokens.reverse id).map Prod.snd

/-- The token of a seeded stream: the one the command carries, else the derived one. -/
def seedToken (deleteTokens : List (String × String)) (s : Stream) : String :=
  (tokenFor deleteTokens s.id).getD (legacyDeleteToken s.id s.publishKey)

/-- The stream loop. An error carries the database as the early return leaves it. -/
def seedStreams (deleteTokens : List (String × String)) (db : Db) : List Stream → Except Db Db
  | [] => .ok db
  | s :: rest =>
    match db.streamInsertOnlyWithToken s (seedToken deleteTokens s) with
    | .ok db' => seedStreams deleteTokens db' rest
    | .error .duplicate => seedStreams deleteTokens db rest
    | .error .db => .error db

def seedViewers (db : Db) : List StreamViewer → Except Db Db
  | [] => .ok db
  | v :: rest =>
    match db.viewerAdd v with
    | .ok db' => seedViewers db' rest
    | .error .duplicate => seedViewers db rest
    | .error .parentUnavailable => .error db
    | .error .db => .error db

def seedPending (db : Db) (ids : List String) : Db :=
  ids.foldl (fun db id => (db.streamDisable id).1) db

def seedFromStandalone (db : Db) (streams : List Stream) (viewers : List StreamViewer)
    (deleteTokens : List (String × String)) (apiToken : Option String)
    (pendingDeleteStreamIds : List String) : Applied :=
  match seedStreams deleteTokens db streams with
  | .error db₁ => ⟨db₁, .error "stream_insert_only failed during SeedFromStandalone", []⟩
  | .ok db₁ =>
    match seedViewers db₁ viewers with
    | .error db₂ => ⟨db₂, .error "viewer_add failed during SeedFromStandalone", []⟩
    | .ok db₂ =>
      let db₃ := apiToken.elim db₂ db₂.tokenReplace
      ⟨seedPending db₃ pendingDeleteStreamIds, .ok,
        apiToken.toList.map .apiToken ++ pendingDeleteStreamIds.map .drainStream⟩

/-! ### `apply_command` -/

/-- The `DeleteViewer` arm: the last viewer and the one that holds the stream's play key stay. -/
def deleteViewer (db : Db) (streamId viewerId : String) : Applied :=
  let viewers := db.viewerList streamId
  if viewers.length = 1 ∧ viewers.any (fun v => v.id = viewerId) then ⟨db, .conflict, []⟩
  else if (db.streamGet streamId).any fun stream =>
      viewers.any fun v => v.id = viewerId ∧ v.playKey = stream.playKey then
    ⟨db, .conflict, []⟩
  else
    match db.viewerDelete streamId viewerId with
    | (db', true) =>
      ⟨db'.playersDeactivateForViewer viewerId, .ok, [.revokeViewer viewerId]⟩
    | (db', false) => ⟨db', .notFound, []⟩

def acquireResponse (db : Db) (effects : List StateEffect) :
    Except OwnerError (Db × UInt64) → Applied
  | .ok (db', epoch) => ⟨db', .ownerEpoch epoch, effects⟩
  | .error .conflict => ⟨db, .conflict, []⟩
  | .error .notFound => ⟨db, .notFound, []⟩
  | .error .db => ⟨db, .error "db", []⟩

/-- The token of a created stream; entries from before the field existed carry none. -/
def createToken (stream : Stream) (deleteToken : String) : String :=
  if deleteToken = "" then legacyDeleteToken stream.id stream.publishKey else deleteToken

def applyCommand (db : Db) : ClusterCommand → Applied
  | .createStream stream defaultViewer deleteToken =>
    match db.streamAddWithViewerWithToken stream defaultViewer
      (createToken stream deleteToken) with
    | .ok db' => ⟨db', .ok, []⟩
    | .error .duplicate => ⟨db, .duplicate, []⟩
    | .error .db => ⟨db, .error "db", []⟩
  | .beginDeleteStream id expectedCreatedAt expectedDeleteToken =>
    match db.streamDisableExpecting id expectedCreatedAt expectedDeleteToken with
    | (db', .disabled) => ⟨db', .ok, [.drainStream id]⟩
    | (db', .missing) => ⟨db', .notFound, []⟩
    | (db', .stale) => ⟨db', .conflict, []⟩
  | .finalizeDeleteStream id =>
    match db.streamDeleteIfPending id with
    | (db', true) => ⟨db', .ok, [.clearDrainStream id]⟩
    | (db', false) => ⟨db', if (db'.streamGet id).isSome then .conflict else .notFound, []⟩
  | .setStreamEnabled id enabled =>
    match db.streamSetEnabled id enabled with
    | (db', true) => ⟨db', .ok, []⟩
    | (db', false) => ⟨db', if (db'.streamGet id).isSome then .error "db" else .notFound, []⟩
  | .createViewer viewer =>
    match db.viewerAdd viewer with
    | .ok db' => ⟨db', .ok, []⟩
    | .error .duplicate => ⟨db, .duplicate, []⟩
    | .error .parentUnavailable => ⟨db, .conflict, []⟩
    | .error .db => ⟨db, .error "db", []⟩
  | .deleteViewer streamId viewerId => deleteViewer db streamId viewerId
  | .setApiToken token => ⟨db.tokenReplace token, .ok, [.apiToken token]⟩
  | .acquireStreamOwner streamId nodeId epoch acquiredAt =>
    acquireResponse db [] (db.streamOwnerAcquire streamId nodeId epoch acquiredAt)
  | .releaseStreamOwner streamId epoch =>
    ⟨(db.streamOwnerRelease streamId epoch).1, .ok, [.ownershipChanged]⟩
  | .releaseOwnersForNode nodeId maxEpoch =>
    ⟨(db.streamOwnersReleaseForNode nodeId maxEpoch).1, .ok, [.ownershipChanged]⟩
  | .seedFromStandalone streams viewers deleteTokens apiToken pendingDeleteStreamIds =>
    seedFromStandalone db streams viewers deleteTokens apiToken pendingDeleteStreamIds
  | .setClusterId id => ⟨db.clusterIdSet id, .ok, []⟩

/-- The `Normal` arm of `apply`. An acquire is stored under the log index, whatever epoch the
command carries, and a node-wide release reports the index. -/
def applyNormal (index : UInt64) (db : Db) : ClusterCommand → Applied
  | .acquireStreamOwner streamId nodeId _ acquiredAt =>
    acquireResponse db [.ownershipChanged]
      (db.streamOwnerAcquire streamId nodeId (max index 1) acquiredAt)
  | .releaseOwnersForNode nodeId maxEpoch =>
    let r := applyCommand db (.releaseOwnersForNode nodeId maxEpoch)
    { r with response := if r.response = .ok then .released (max index 1) else r.response }
  | cmd => applyCommand db cmd

/-! ### Log entries -/

structure LogId where
  term : UInt64
  nodeId : UInt64
  index : UInt64
  deriving DecidableEq, Repr

/-- The voter sets (joint while a change is in progress) and the addresses of all nodes. -/
structure Membership where
  configs : List (List UInt64)
  nodes : List (UInt64 × String)
  deriving DecidableEq, Repr

inductive EntryPayload where
  | blank
  | normal (cmd : ClusterCommand)
  | membership (mem : Membership)
  deriving DecidableEq, Repr

structure Entry where
  logId : LogId
  payload : EntryPayload
  deriving DecidableEq, Repr

/-- What one entry does to the database. Blank and membership entries only move `last_applied`. -/
def applyEntry (db : Db) (e : Entry) : Applied :=
  match e.payload with
  | .blank => ⟨db, .ok, []⟩
  | .normal cmd => applyNormal e.logId.index db cmd
  | .membership _ => ⟨db, .ok, []⟩

/-- The state machine over the log: an `Error` response stops it. -/
def step (db : Db) (e : Entry) : Option Db :=
  if (applyEntry db e).response.isError then none else some (applyEntry db e).db

/-! ### The changes a command makes -/

/-- The changes the command may make when it is applied at `index`. -/
def ClusterCommand.Makes (index : UInt64) (c : Change) : ClusterCommand → Prop
  | .createStream s v token => c = .insertStream s (createToken s token) ∨ c = .insertViewer v
  | .beginDeleteStream id createdAt token =>
    c = .setStreamFlags (Db.disableMatches id createdAt token) false true
  | .finalizeDeleteStream id => c = .deleteStream id
  | .setStreamEnabled id enabled => c = .setStreamFlags (fun r => r.id = id) enabled false
  | .createViewer v => c = .insertViewer v
  | .deleteViewer streamId viewerId =>
    c = .deleteViewers (fun v => v.streamId = streamId ∧ v.id = viewerId) ∨
      c = .deactivatePlayers viewerId
  | .setApiToken token => c = .setApiToken token
  | .acquireStreamOwner streamId nodeId _ acquiredAt =>
    c = .insertOwner ⟨streamId, nodeId.toInt64, (max index 1).toInt64, acquiredAt⟩ ∨
      c = .updateOwner streamId (max index 1).toInt64 acquiredAt
  | .releaseStreamOwner streamId epoch =>
    c = .deleteOwners fun o => o.streamId = streamId ∧ o.epoch = epoch.toInt64
  | .releaseOwnersForNode nodeId maxEpoch =>
    c = .deleteOwners fun o =>
      o.ownerNodeId = nodeId.toInt64 ∧ o.epoch ≤ Db.clampToI64 maxEpoch
  | .seedFromStandalone streams viewers deleteTokens apiToken pending =>
    (∃ s ∈ streams, c = .insertStream s (seedToken deleteTokens s)) ∨
      (∃ v ∈ viewers, c = .insertViewer v) ∨ (∃ token ∈ apiToken, c = .setApiToken token) ∨
      ∃ id ∈ pending, c = .setStreamFlags (Db.disableMatches id none none) false true
  | .setClusterId id => c = .setClusterId id

/-! #### The walk of the seed -/

section Seed

open Relation

variable {S : Db → Db → Prop} {streams : List Stream} {viewers : List StreamViewer}
  {tokens : List (String × String)} {apiToken : Option String} {pending : List String}

theorem seedStreams_steps (hS : ∀ s ∈ streams, ∀ db db',
      db.streamInsertOnlyWithToken s (seedToken tokens s) = .ok db' → S db db') (db : Db) :
    ∃ db', seedStreams tokens db streams = .ok db' ∧ ReflTransGen S db db' := by
  induction streams generalizing db with
  | nil => exact ⟨db, rfl, .refl⟩
  | cons s rest ih =>
    have ih := ih fun t ht => hS t (mem_cons_of_mem _ ht)
    unfold seedStreams
    cases hi : db.streamInsertOnlyWithToken s (seedToken tokens s) with
    | ok db₁ =>
      obtain ⟨db', hdb', hr⟩ := ih db₁
      exact ⟨db', hdb', .head (hS s mem_cons_self db db₁ hi) hr⟩
    | error e =>
      cases Db.streamInsertOnlyWithToken_error hi
      exact ih db

/-- The viewer loop stops at the first viewer whose stream is unavailable; what it inserted
before stays. -/
theorem seedViewers_steps (hS : ∀ v ∈ viewers, ∀ db db', db.viewerAdd v = .ok db' → S db db')
    (db : Db) :
    ∃ db', (seedViewers db viewers = .ok db' ∨ seedViewers db viewers = .error db') ∧
      ReflTransGen S db db' := by
  induction viewers generalizing db with
  | nil => exact ⟨db, .inl rfl, .refl⟩
  | cons v rest ih =>
    have ih := ih fun t ht => hS t (mem_cons_of_mem _ ht)
    unfold seedViewers
    cases hi : db.viewerAdd v with
    | ok db₁ =>
      obtain ⟨db', hdb', hr⟩ := ih db₁
      exact ⟨db', hdb', .head (hS v mem_cons_self db db₁ hi) hr⟩
    | error e =>
      cases e with
      | duplicate => exact ih db
      | parentUnavailable => exact ⟨db, .inr rfl, .refl⟩
      | db => exact absurd hi Db.viewerAdd_ne_db

theorem seedPending_steps (hS : ∀ id ∈ pending, ∀ db, S db (db.streamDisable id).1) (db : Db) :
    ReflTransGen S db (seedPending db pending) := by
  induction pending generalizing db with
  | nil => exact .refl
  | cons id rest ih =>
    exact .head (hS id mem_cons_self db) (ih (fun t ht => hS t (mem_cons_of_mem _ ht)) _)

theorem seedFromStandalone_steps (hstreams : ∀ s ∈ streams, ∀ db db',
      db.streamInsertOnlyWithToken s (seedToken tokens s) = .ok db' → S db db')
    (hviewers : ∀ v ∈ viewers, ∀ db db', db.viewerAdd v = .ok db' → S db db')
    (htoken : ∀ token ∈ apiToken, ∀ db, S db (db.tokenReplace token))
    (hpending : ∀ id ∈ pending, ∀ db, S db (db.streamDisable id).1) (db : Db) :
    ReflTransGen S db (seedFromStandalone db streams viewers tokens apiToken pending).db := by
  obtain ⟨db₁, h₁, hr₁⟩ := seedStreams_steps hstreams db
  obtain ⟨db₂, h₂, hr₂⟩ := seedViewers_steps hviewers db₁
  have hr₂ := hr₁.trans hr₂
  unfold seedFromStandalone
  rw [h₁]
  rcases h₂ with h₂ | h₂
  · have hr₃ : ReflTransGen S db (apiToken.elim db₂ db₂.tokenReplace) := by
      cases apiToken with
      | none => exact hr₂
      | some token => exact hr₂.tail (htoken token rfl db₂)
    simp only [h₂]
    exact hr₃.trans (seedPending_steps hpending _)
  · simp only [h₂]
    exact hr₂

theorem reaches_of_steps {P : Change → Prop} {db db' : Db} (h : ReflTransGen (Reaches P) db db') :
    Reaches P db db' := by
  induction h with
  | refl => exact .refl P db
  | tail _ hr ih => exact ih.trans hr

theorem reaches_insertOnly {P : Change → Prop} {s : Stream} {token : String} {db db' : Db}
    (hP : P (.insertStream s token)) (h : db.streamInsertOnlyWithToken s token = .ok db') :
    Reaches P db db' :=
  .single _ hP (Db.streamInsertOnlyWithToken_eq_ok.1 h).2

theorem reaches_viewerAdd {P : Change → Prop} {v : StreamViewer} {db db' : Db}
    (hP : P (.insertViewer v)) (h : db.viewerAdd v = .ok db') : Reaches P db db' :=
  .single _ hP (Db.viewerAdd_eq_ok.1 h).2.2

theorem seedStreams_reaches (tokens : List (String × String)) (streams : List Stream) (db : Db) :
    ∃ db', seedStreams tokens db streams = .ok db' ∧ Reaches (fun _ => True) db db' := by
  obtain ⟨db', h, hr⟩ := seedStreams_steps (S := Reaches fun _ => True)
    (fun _ _ _ _ => reaches_insertOnly trivial) db
  exact ⟨db', h, reaches_of_steps hr⟩

theorem seedFromStandalone_reaches (index : UInt64) (db : Db) :
    Reaches (ClusterCommand.Makes index · (.seedFromStandalone streams viewers tokens apiToken pending))
      db (seedFromStandalone db streams viewers tokens apiToken pending).db := by
  refine reaches_of_steps (seedFromStandalone_steps ?_ ?_ ?_ ?_ db)
  · exact fun s hs _ _ => reaches_insertOnly (.inl ⟨s, hs, rfl⟩)
  · exact fun v hv _ _ => reaches_viewerAdd (.inr (.inl ⟨v, hv, rfl⟩))
  · exact fun token ht _ => .single (.setApiToken token) (.inr (.inr (.inl ⟨token, ht, rfl⟩))) rfl
  · exact fun id hid _ => .single _ (.inr (.inr (.inr ⟨id, hid, rfl⟩))) rfl

end Seed

theorem deleteViewer_cases (db : Db) (streamId viewerId : String) :
    deleteViewer db streamId viewerId = ⟨db, .conflict, []⟩ ∨
      deleteViewer db streamId viewerId = ⟨db, .notFound, []⟩ ∨
      ((db.viewerDelete streamId viewerId).2 ∧ deleteViewer db streamId viewerId =
        ⟨(db.viewerDelete streamId viewerId).1.playersDeactivateForViewer viewerId, .ok,
          [.revokeViewer viewerId]⟩) := by
  unfold deleteViewer
  dsimp only
  split_ifs
  · exact .inl rfl
  · exact .inl rfl
  · right
    cases h : (db.viewerDelete streamId viewerId).2 with
    | true =>
      right
      refine ⟨rfl, ?_⟩
      rcases hd : db.viewerDelete streamId viewerId with ⟨db', x⟩
      rw [hd] at h
      cases h
      rfl
    | false =>
      left
      have hnone : (db.viewerDelete streamId viewerId).1 = db := by
        have h' : ∀ v ∈ db.viewers,
            decide (v.streamId = streamId ∧ v.id = viewerId) = false := by
          simpa [Db.viewerDelete] using h
        show { db with viewers := _ } = db
        rw [deleteWhere_of_none h']
      rcases hd : db.viewerDelete streamId viewerId with ⟨db', x⟩
      rw [hd] at h hnone
      cases h
      cases hnone
      rfl

theorem acquireResponse_reaches (index : UInt64) (db : Db) (streamId : String)
    (nodeId epoch : UInt64) (acquiredAt : Int) (effects : List StateEffect) :
    Reaches (ClusterCommand.Makes index · (.acquireStreamOwner streamId nodeId epoch acquiredAt)) db
      (acquireResponse db effects
        (db.streamOwnerAcquire streamId nodeId (max index 1) acquiredAt)).db := by
  unfold Db.streamOwnerAcquire
  cases db.streamRow streamId with
  | none => exact .refl _ db
  | some s =>
    dsimp only
    split_ifs with hs
    · cases lookup (·.streamId) db.owners streamId with
      | some o =>
        dsimp only
        split_ifs with hn
        · exact .refl _ db
        · exact .single (.updateOwner streamId (max index 1).toInt64 acquiredAt) (.inr rfl) rfl
      | none =>
        dsimp only
        cases hi : db.insertOwner ⟨streamId, nodeId.toInt64, (max index 1).toInt64, acquiredAt⟩ with
        | none => exact .refl _ db
        | some db' => exact .single (.insertOwner _) (.inl rfl) hi
    · exact .refl _ db

theorem beginDeleteStream_db (index : UInt64) (db : Db) (id : String) (createdAt : Option Int)
    (token : Option String) :
    (applyNormal index db (.beginDeleteStream id createdAt token)).db =
      db.setStreamFlags (Db.disableMatches id createdAt token) false true := by
  simp only [applyNormal, applyCommand, Db.streamDisableExpecting]
  split_ifs <;> rfl

theorem finalizeDeleteStream_db (index : UInt64) (db : Db) (id : String) :
    (applyNormal index db (.finalizeDeleteStream id)).db = (db.streamDeleteIfPending id).1 := by
  simp only [applyNormal, applyCommand]
  split <;> simp_all

theorem setStreamEnabled_db (index : UInt64) (db : Db) (id : String) (enabled : Bool) :
    (applyNormal index db (.setStreamEnabled id enabled)).db =
      db.setStreamFlags (fun r => r.id = id) enabled false := by
  simp only [applyNormal, applyCommand, Db.streamSetEnabled]
  split <;> simp_all

theorem Db.isSome_streamGet_setStreamFlags (db : Db) (p : StreamRow → Bool) (enabled pending : Bool)
    (id : String) : ((db.setStreamFlags p enabled pending).streamGet id).isSome = db.hasStream id := by
  rw [streamGet, Option.isSome_map, streamRow_setStreamFlags, Option.isSome_map, isSome_streamRow]

theorem setStreamEnabled_response (index : UInt64) (db : Db) (id : String) (enabled : Bool) :
    (applyNormal index db (.setStreamEnabled id enabled)).response =
      if db.hasStream id then .ok else .notFound := by
  simp only [applyNormal, applyCommand, Db.streamSetEnabled]
  cases h : db.hasStream id with
  | true => rfl
  | false =>
    dsimp only
    rw [Db.isSome_streamGet_setStreamFlags, h]
    rfl

/-- **A command makes no other changes than the ones it names.** -/
theorem applyNormal_reaches (index : UInt64) (db : Db) (cmd : ClusterCommand) :
    Reaches (ClusterCommand.Makes index · cmd) db (applyNormal index db cmd).db := by
  cases cmd with
  | createStream s v token =>
    simp only [applyNormal, applyCommand]
    cases h : db.streamAddWithViewerWithToken s v (createToken s token) with
    | error e => cases e <;> exact .refl _ db
    | ok db' =>
      obtain ⟨-, -, db₁, hs, hv⟩ := Db.streamAddWithViewerWithToken_eq_ok.1 h
      exact (Reaches.single (.insertStream s _) (.inl rfl) hs).trans
        (.single (.insertViewer v) (.inr rfl) hv)
  | beginDeleteStream id createdAt token =>
    rw [beginDeleteStream_db]
    exact .single (.setStreamFlags _ false true) rfl rfl
  | finalizeDeleteStream id =>
    rw [finalizeDeleteStream_db]
    exact .single (.deleteStream id) rfl rfl
  | setStreamEnabled id enabled =>
    rw [setStreamEnabled_db]
    exact .single (.setStreamFlags _ enabled false) rfl rfl
  | createViewer v =>
    simp only [applyNormal, applyCommand]
    cases h : db.viewerAdd v with
    | error e => cases e <;> exact .refl _ db
    | ok db' => exact reaches_viewerAdd rfl h
  | deleteViewer streamId viewerId =>
    have hdel : Reaches (ClusterCommand.Makes index · (.deleteViewer streamId viewerId)) db
        (db.viewerDelete streamId viewerId).1 := .single (.deleteViewers _) (.inl rfl) rfl
    simp only [applyNormal, applyCommand, deleteViewer]
    split_ifs
    · exact .refl _ db
    · exact .refl _ db
    · split
      · rename_i db' heq
        rw [heq] at hdel
        exact hdel.trans (.single (.deactivatePlayers viewerId) (.inr rfl) rfl)
      · rename_i db' heq
        rw [heq] at hdel
        exact hdel
  | setApiToken token => exact .single (.setApiToken token) rfl rfl
  | acquireStreamOwner streamId nodeId epoch acquiredAt =>
    exact acquireResponse_reaches index db streamId nodeId epoch acquiredAt _
  | releaseStreamOwner streamId epoch =>
    exact .single (.deleteOwners _) rfl rfl
  | releaseOwnersForNode nodeId maxEpoch =>
    exact .single (.deleteOwners _) rfl rfl
  | seedFromStandalone streams viewers tokens apiToken pending =>
    exact seedFromStandalone_reaches index db
  | setClusterId id => exact .single (.setClusterId id) rfl rfl

theorem applyNormal_schemaOk {db : Db} (h : SchemaOk db) (index : UInt64) (cmd : ClusterCommand) :
    SchemaOk (applyNormal index db cmd).db :=
  h.reaches (applyNormal_reaches index db cmd)

theorem applyEntry_schemaOk {db : Db} (h : SchemaOk db) (e : Entry) :
    SchemaOk (applyEntry db e).db := by
  unfold applyEntry
  cases e.payload with
  | blank => exact h
  | normal cmd => exact applyNormal_schemaOk h _ cmd
  | membership mem => exact h

theorem step_eq_some {db db' : Db} {e : Entry} :
    step db e = some db' ↔ (applyEntry db e).response.isError = false ∧ (applyEntry db e).db = db' := by
  unfold step
  split_ifs with h <;> simp [h]

theorem step_schemaOk {db db' : Db} {e : Entry} (h : SchemaOk db) (hs : step db e = some db') :
    SchemaOk db' := by
  obtain ⟨-, rfl⟩ := step_eq_some.1 hs
  exact applyEntry_schemaOk h e

end RtmpServer
